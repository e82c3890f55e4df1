import Mathlib.Computability.RegularExpressions
import ShaderNodes.Proofs.Grammar.Parser

/-!
# Numbers as they may be written

The forms of numbers are regular expressions. The tokens read numbers from left to right and give
nothing back, and take the longest one. Where a number is followed by a comma or by nothing, that is
the whole of it, so the rules for literals take the texts of the forms and no others.

* `Form.number`, `Form.decimal`: `-?[0-9]+(\.[0-9]+)?` and `-?[0-9]+\.[0-9]+`.
* `decimal_eq_some_iff`, `number_eq_some`, `number_append`: what the tokens match.
* `Parser.takes_scalarLiteral_iff`, `Parser.takes_vectorLiteral_iff`: what the rules take.
-/

namespace ShaderNodes.Grammar

open Text

/-! ## Forms -/

namespace Form

/-- `[0-9]` -/
def digit : RegularExpression Char := "0123456789".toList.foldr (fun c form => .char c + form) 0

/-- `[0-9]+` -/
def digits : RegularExpression Char := digit * digit.star

/-- `-?[0-9]+` -/
def integer : RegularExpression Char := (1 + .char '-') * digits

/-- `\.[0-9]+` -/
def fraction : RegularExpression Char := .char '.' * digits

/-- `-?[0-9]+(\.[0-9]+)?` -/
def number : RegularExpression Char := integer * (1 + fraction)

/-- `-?[0-9]+\.[0-9]+` -/
def decimal : RegularExpression Char := integer * fraction

theorem mem_chars_iff {l s : List Char} :
    s ∈ (l.foldr (fun c form => .char c + form) (0 : RegularExpression Char)).matches' ↔
    ∃ c ∈ l, s = [c] := by
  induction l with
  | nil => simp [RegularExpression.matches'_zero, Language.notMem_zero]
  | cons c l ih =>
    rw [List.foldr_cons, RegularExpression.matches'_add, Language.mem_add, ih,
      RegularExpression.matches'_char, List.exists_mem_cons_iff]
    rfl

theorem mem_digit_iff {s : List Char} :
    s ∈ digit.matches' ↔ ∃ c : Char, c.isDigit = true ∧ s = [c] := by
  have hdigit : ∀ c : Char, c ∈ "0123456789".toList ↔ c.isDigit = true := by
    intro c
    constructor
    · intro h
      have hall : "0123456789".toList.all Char.isDigit = true := by decide
      exact List.all_eq_true.1 hall c h
    · intro h
      have hascii : c.toNat < 0x80 := lt_of_isWordChar (by simp [isWordChar, Char.isAlphanum, h])
      exact ascii_forall (P := fun c => c.isDigit = true →
        c ∈ "0123456789".toList) (by decide) hascii h
  rw [digit, mem_chars_iff]
  simp only [hdigit]

theorem mem_digits_iff {s : List Char} :
    s ∈ digits.matches' ↔ s ≠ [] ∧ ∀ c ∈ s, c.isDigit = true := by
  rw [digits, RegularExpression.matches'_mul, RegularExpression.matches'_star, Language.mem_mul]
  constructor
  · rintro ⟨a, ha, b, hb, rfl⟩
    obtain ⟨c, hc, rfl⟩ := mem_digit_iff.1 ha
    obtain ⟨L, rfl, hL⟩ := Language.mem_kstar.1 hb
    refine ⟨List.cons_ne_nil _ _, List.forall_mem_cons.2 ⟨hc, fun d hd => ?_⟩⟩
    obtain ⟨l, hl, hd⟩ := List.mem_flatten.1 hd
    obtain ⟨e, he, rfl⟩ := mem_digit_iff.1 (hL l hl)
    rwa [List.mem_singleton.1 hd]
  · rintro ⟨hne, hs⟩
    cases s with
    | nil => exact absurd rfl hne
    | cons c s =>
      obtain ⟨hc, hs⟩ := List.forall_mem_cons.1 hs
      refine ⟨[c], mem_digit_iff.2 ⟨c, hc, rfl⟩, s, ?_, rfl⟩
      refine Language.mem_kstar.2 ⟨s.map fun d => [d], ?_, fun l hl => ?_⟩
      · rw [← List.flatMap_def, List.flatMap_singleton']
      · obtain ⟨d, hd, rfl⟩ := List.mem_map.1 hl
        exact mem_digit_iff.2 ⟨d, hs d hd, rfl⟩

theorem mem_fraction_iff {s : List Char} :
    s ∈ fraction.matches' ↔ ∃ ds ∈ digits.matches', s = '.' :: ds := by
  rw [fraction, RegularExpression.matches'_mul, RegularExpression.matches'_char, Language.mem_mul]
  constructor
  · rintro ⟨a, ha, ds, hds, rfl⟩
    obtain rfl := Set.mem_singleton_iff.1 ha
    exact ⟨ds, hds, rfl⟩
  · rintro ⟨ds, hds, rfl⟩
    exact ⟨['.'], rfl, ds, hds, rfl⟩

theorem mem_integer_iff {s : List Char} :
    s ∈ integer.matches' ↔ s ∈ digits.matches' ∨ ∃ ds ∈ digits.matches', s = '-' :: ds := by
  rw [integer, RegularExpression.matches'_mul, RegularExpression.matches'_add,
    RegularExpression.matches'_epsilon, RegularExpression.matches'_char, Language.mem_mul]
  constructor
  · rintro ⟨a, ha, ds, hds, rfl⟩
    rcases (Language.mem_add _ _ _).1 ha with ha | ha
    · obtain rfl := (Language.mem_one a).1 ha
      exact .inl hds
    · obtain rfl := Set.mem_singleton_iff.1 ha
      exact .inr ⟨ds, hds, rfl⟩
  · rintro (h | ⟨ds, hds, rfl⟩)
    · exact ⟨[], .inl rfl, s, h, rfl⟩
    · exact ⟨['-'], .inr rfl, ds, hds, rfl⟩

theorem mem_decimal_iff {s : List Char} :
    s ∈ decimal.matches' ↔ ∃ whole ∈ integer.matches', ∃ part ∈ fraction.matches',
    s = whole ++ part := by
  rw [decimal, RegularExpression.matches'_mul, Language.mem_mul]
  simp only [eq_comm]

theorem mem_number_iff {s : List Char} :
    s ∈ number.matches' ↔ s ∈ integer.matches' ∨ s ∈ decimal.matches' := by
  rw [number, RegularExpression.matches'_mul, RegularExpression.matches'_add,
    RegularExpression.matches'_epsilon, mul_add, mul_one, decimal, RegularExpression.matches'_mul,
    Language.mem_add]

end Form

/-! ## Tokens -/

/-- No run of digits goes on at the beginning of the text. -/
def DigitsEnd (s : List Char) : Prop := ∀ c ∈ s.head?, c.isDigit = false

theorem digitsEnd_cons {c : Char} {s : List Char} (hc : c.isDigit = false) :
    DigitsEnd (c :: s) := by
  intro d hd
  obtain rfl : c = d := Option.some.inj hd
  exact hc

variable {s r : List Char}

theorem digits_eq_some_iff {ds : List Char} :
    digits s = some (ds, r) ↔ ds ∈ Form.digits.matches' ∧ s = ds ++ r ∧ DigitsEnd r := by
  rw [Form.mem_digits_iff, digits]
  constructor
  · intro h
    split at h
    · cases h
    · rename_i hne
      obtain ⟨rfl, rfl⟩ := Prod.mk.inj (Option.some.inj h)
      exact ⟨⟨hne, fun c hc => List.mem_takeWhile_imp hc⟩, List.takeWhile_append_dropWhile.symm,
        eq_false_of_mem_head?_dropWhile _ s⟩
  · rintro ⟨⟨hne, hds⟩, rfl, hr⟩
    obtain ⟨htake, hdrop⟩ := span_append hds hr
    rw [htake, hdrop]
    cases ds with
    | nil => exact absurd rfl hne
    | cons c ds => rfl

theorem fraction_eq_some_iff {part : List Char} :
    fraction s = some (part, r) ↔ part ∈ Form.fraction.matches' ∧ s = part ++ r ∧ DigitsEnd r := by
  rw [Form.mem_fraction_iff]
  constructor
  · intro h
    unfold fraction at h
    split at h
    · rename_i rest
      obtain ⟨⟨ds, r'⟩, hdigits, heq⟩ := Option.map_eq_some_iff.1 h
      obtain ⟨rfl, rfl⟩ := Prod.mk.inj heq
      obtain ⟨hds, rfl, hr⟩ := digits_eq_some_iff.1 hdigits
      exact ⟨⟨ds, hds, rfl⟩, rfl, hr⟩
    · cases h
  · rintro ⟨⟨ds, hds, rfl⟩, rfl, hr⟩
    exact Option.map_eq_some_iff.2 ⟨(ds, r), digits_eq_some_iff.2 ⟨hds, rfl, hr⟩, rfl⟩

theorem integer_eq_some_iff {whole : List Char} :
    integer s = some (whole, r) ↔ whole ∈ Form.integer.matches' ∧ s = whole ++ r ∧ DigitsEnd r := by
  rw [Form.mem_integer_iff]
  constructor
  · intro h
    unfold integer at h
    split at h
    · rename_i rest
      obtain ⟨⟨ds, r'⟩, hdigits, heq⟩ := Option.map_eq_some_iff.1 h
      obtain ⟨rfl, rfl⟩ := Prod.mk.inj heq
      obtain ⟨hds, rfl, hr⟩ := digits_eq_some_iff.1 hdigits
      exact ⟨.inr ⟨ds, hds, rfl⟩, rfl, hr⟩
    · obtain ⟨hds, rfl, hr⟩ := digits_eq_some_iff.1 h
      exact ⟨.inl hds, rfl, hr⟩
  · rintro ⟨hds | ⟨ds, hds, rfl⟩, rfl, hr⟩
    · -- A digit is no sign.
      have hdigits : digits (whole ++ r) = some (whole, r) := digits_eq_some_iff.2 ⟨hds, rfl, hr⟩
      rw [← hdigits]
      obtain ⟨hne, hall⟩ := Form.mem_digits_iff.1 hds
      cases whole with
      | nil => exact absurd rfl hne
      | cons c whole =>
        unfold integer
        split
        · rename_i rest heq
          have hc := hall c (.head _)
          rw [(List.cons.inj heq).1] at hc
          exact absurd hc (by decide)
        · rfl
    · exact Option.map_eq_some_iff.2 ⟨(ds, r), digits_eq_some_iff.2 ⟨hds, rfl, hr⟩, rfl⟩

/-- A run of digits ends where a fraction begins. -/
theorem digitsEnd_fraction {part : List Char} (h : part ∈ Form.fraction.matches') (r : List Char) :
    DigitsEnd (part ++ r) := by
  obtain ⟨ds, -, rfl⟩ := Form.mem_fraction_iff.1 h
  exact digitsEnd_cons (by decide)

theorem decimal_eq_some_iff {n : String} :
    decimal s = some (n, r) ↔ n.toList ∈ Form.decimal.matches' ∧ s = n.toList ++ r ∧
    DigitsEnd r := by
  rw [Form.mem_decimal_iff]
  constructor
  · intro h
    unfold decimal at h
    split at h
    · cases h
    · rename_i whole rest hwhole
      split at h
      · cases h
      · rename_i part rest' hpart
        obtain ⟨rfl, rfl⟩ := Prod.mk.inj (Option.some.inj h)
        obtain ⟨hinteger, rfl, -⟩ := integer_eq_some_iff.1 hwhole
        obtain ⟨hfraction, rfl, hr⟩ := fraction_eq_some_iff.1 hpart
        rw [String.toList_ofList]
        exact ⟨⟨whole, hinteger, part, hfraction, rfl⟩, (List.append_assoc _ _ _).symm, hr⟩
  · rintro ⟨⟨whole, hwhole, part, hpart, hn⟩, rfl, hr⟩
    have hinteger : integer (n.toList ++ r) = some (whole, part ++ r) :=
      integer_eq_some_iff.2 ⟨hwhole, by rw [hn, List.append_assoc], digitsEnd_fraction hpart r⟩
    have hfraction : fraction (part ++ r) = some (part, r) :=
      fraction_eq_some_iff.2 ⟨hpart, rfl, hr⟩
    simp only [decimal, hinteger, hfraction]
    rw [← hn, String.ofList_toList]

/-- A number with a fraction is read as such; otherwise only its integer part is. -/
theorem number_eq_or (s : List Char) :
    number s = (decimal s).or ((integer s).map fun w => (String.ofList w.1, w.2)) := by
  unfold number decimal
  cases integer s with
  | none => rfl
  | some w =>
    obtain ⟨whole, rest⟩ := w
    dsimp only
    cases fraction rest <;> rfl

theorem number_eq_some {n : String} (h : number s = some (n, r)) :
    n.toList ∈ Form.number.matches' ∧ s = n.toList ++ r := by
  rw [Form.mem_number_iff]
  rw [number_eq_or, Option.or_eq_some_iff, Option.map_eq_some_iff] at h
  rcases h with h | ⟨-, ⟨whole, r'⟩, h, heq⟩
  · obtain ⟨hn, hs, -⟩ := decimal_eq_some_iff.1 h
    exact ⟨.inr hn, hs⟩
  · obtain ⟨rfl, rfl⟩ := Prod.mk.inj heq
    obtain ⟨hn, hs, -⟩ := integer_eq_some_iff.1 h
    rw [String.toList_ofList]
    exact ⟨.inl hn, hs⟩

/-- No number goes on at the beginning of the text. -/
def NumberEnds (s : List Char) : Prop := DigitsEnd s ∧ s.head? ≠ some '.'

/-- A number is read as a whole where it ends. -/
theorem number_append {n : String} (hn : n.toList ∈ Form.number.matches') (hr : NumberEnds r) :
    number (n.toList ++ r) = some (n, r) := by
  rw [number_eq_or]
  rcases Form.mem_number_iff.1 hn with hn | hn
  · have hinteger : integer (n.toList ++ r) = some (n.toList, r) :=
      integer_eq_some_iff.2 ⟨hn, rfl, hr.1⟩
    have hfraction : fraction r = none := by
      unfold fraction
      split
      · exact absurd rfl hr.2
      · rfl
    have hdecimal : decimal (n.toList ++ r) = none := by
      simp only [decimal, hinteger, hfraction]
    rw [hdecimal, hinteger, Option.none_or, Option.map_some, String.ofList_toList]
  · rw [decimal_eq_some_iff.2 ⟨hn, rfl, hr.1⟩, Option.some_or]

/-! ## Literals -/

namespace Parser

theorem takes_decimal_iff {n : String} :
    decimal.Takes s n r ↔ n.toList ∈ Form.decimal.matches' ∧ s = n.toList ++ r ∧ DigitsEnd r := by
  rw [decimal, takes_rule_iff, takes_token_iff, decimal_eq_some_iff]

theorem takes_number_iff {n : String} : number.Takes s n r ↔ Grammar.number s = some (n, r) := by
  rw [number, takes_rule_iff, takes_token_iff]

/-- The rule for one number takes a whole text with a fraction, and nothing else. -/
theorem takes_scalarLiteral_iff :
    (∃ l, scalarLiteral.Takes s l r) ↔ r = [] ∧ s ∈ Form.decimal.matches' := by
  rw [scalarLiteral, exists_takes_compound_iff]
  constructor
  · rintro ⟨_, h⟩
    obtain ⟨l, s', hsingle, h⟩ := takes_bind_iff.1 h
    obtain ⟨l', s'', hend, h⟩ := takes_bind_iff.1 h
    obtain ⟨-, rfl⟩ := takes_pure_iff.1 h
    obtain ⟨n, hdecimal⟩ := exists_takes_leaf_iff.1 ⟨l, hsingle⟩
    obtain ⟨_, hend⟩ := exists_takes_leaf_iff.1 ⟨l', hend⟩
    obtain ⟨rfl, rfl⟩ := takes_endOfInput_iff.1 hend
    obtain ⟨hn, rfl, -⟩ := takes_decimal_iff.1 hdecimal
    rw [List.append_nil]
    exact ⟨rfl, hn⟩
  · rintro ⟨rfl, hs⟩
    have hdecimal : decimal.Takes s (String.ofList s) [] := by
      refine takes_decimal_iff.2 ⟨?_, ?_, nofun⟩
      · rwa [String.toList_ofList]
      · rw [String.toList_ofList, List.append_nil]
    obtain ⟨l, hsingle⟩ := exists_takes_leaf_iff.2 ⟨_, hdecimal⟩
    obtain ⟨l', hend⟩ := exists_takes_leaf_iff.2 ⟨(), takes_endOfInput_iff.2 ⟨rfl, rfl⟩⟩
    exact ⟨_,
      takes_bind_iff.2 ⟨l, [], hsingle,
        takes_bind_iff.2 ⟨l', [], hend, takes_pure_iff.2 ⟨rfl, rfl⟩⟩⟩⟩

/-- A comma and a number. -/
def furtherNumber : Parser (List Pair) := do
  char ','
  leaf .number number

/-- The text of the numbers that follow another one. -/
def furtherText (l : List String) : List Char := l.flatMap fun n => ',' :: n.toList

theorem intercalate_numbers (n : String) (l : List String) :
    [','].intercalate ((n :: l).map String.toList) = n.toList ++ furtherText l := by
  rw [List.map_cons, intercalate_cons_eq_append, List.flatMap_map, furtherText]

theorem numberEnds_furtherText (l : List String) : NumberEnds (furtherText l) := by
  cases l with
  | nil => exact ⟨nofun, nofun⟩
  | cons n l => exact ⟨digitsEnd_cons (by decide), by simp [furtherText]⟩

theorem takes_furtherNumber_iff :
    (∃ l, furtherNumber.Takes s l r) ↔ ∃ n s', s = ',' :: s' ∧ Grammar.number s' = some (n, r) := by
  simp only [furtherNumber, takes_bind_iff, takes_char_iff, takes_leaf_iff, takes_number_iff]
  constructor
  · rintro ⟨_, _, s', rfl, ⟨n, hn⟩, -⟩
    exact ⟨n, s', rfl, hn⟩
  · rintro ⟨n, s', rfl, hn⟩
    exact ⟨_, (), s', rfl, ⟨n, hn⟩, rfl⟩

theorem progresses_furtherNumber : furtherNumber.Progresses := by
  intro s l r h
  obtain ⟨n, s', rfl, hn⟩ := takes_furtherNumber_iff.1 ⟨l, h⟩
  obtain ⟨-, rfl⟩ := number_eq_some hn
  simp only [List.length_cons, List.length_append]
  omega

theorem reads_furtherNumber_iff :
    (∃ l, Reads furtherNumber s l []) ↔
      ∃ numbers : List String, (∀ n ∈ numbers, n.toList ∈ Form.number.matches') ∧
      s = furtherText numbers := by
  constructor
  · rintro ⟨l, h⟩
    generalize hr : [] = r at h
    induction h with
    | nil => exact ⟨[], List.forall_mem_nil _, hr.symm⟩
    | cons htakes _ ih =>
      obtain ⟨n, s', rfl, hn⟩ := takes_furtherNumber_iff.1 ⟨_, htakes⟩
      obtain ⟨hnumber, rfl⟩ := number_eq_some hn
      obtain ⟨numbers, hnumbers, rfl⟩ := ih hr
      exact ⟨n :: numbers, List.forall_mem_cons.2 ⟨hnumber, hnumbers⟩, rfl⟩
  · rintro ⟨numbers, hnumbers, rfl⟩
    induction numbers with
    | nil => exact ⟨[], .nil⟩
    | cons n numbers ih =>
      obtain ⟨hn, hnumbers⟩ := List.forall_mem_cons.1 hnumbers
      obtain ⟨l, hl⟩ := ih hnumbers
      obtain ⟨first, hfirst⟩ := takes_furtherNumber_iff.2
        ⟨n, _, rfl, number_append hn (numberEnds_furtherText numbers)⟩
      exact ⟨first :: l, .cons hfirst hl⟩

/-- The rule for several numbers takes a whole text of numbers between commas, and nothing else. -/
theorem takes_vectorLiteral_iff :
    (∃ l, vectorLiteral.Takes s l r) ↔ r = [] ∧ ∃ numbers : List String, numbers ≠ [] ∧
      (∀ n ∈ numbers, n.toList ∈ Form.number.matches') ∧
      s = [','].intercalate (numbers.map String.toList) := by
  rw [vectorLiteral, exists_takes_compound_iff]
  constructor
  · rintro ⟨_, h⟩
    obtain ⟨l, s₁, hfirst, h⟩ := takes_bind_iff.1 h
    obtain ⟨l', s₂, hmany, h⟩ := takes_bind_iff.1 h
    obtain ⟨l'', s₃, hend, h⟩ := takes_bind_iff.1 h
    obtain ⟨-, rfl⟩ := takes_pure_iff.1 h
    obtain ⟨_, hend⟩ := exists_takes_leaf_iff.1 ⟨l'', hend⟩
    obtain ⟨rfl, rfl⟩ := takes_endOfInput_iff.1 hend
    obtain ⟨first, hfirst⟩ := exists_takes_leaf_iff.1 ⟨l, hfirst⟩
    obtain ⟨hn, rfl⟩ := number_eq_some (takes_number_iff.1 hfirst)
    obtain ⟨hreads, -⟩ := (takes_many_iff progresses_furtherNumber).1 hmany
    obtain ⟨more, hmore, rfl⟩ := reads_furtherNumber_iff.1 ⟨l', hreads⟩
    exact ⟨rfl, first :: more, List.cons_ne_nil _ _, List.forall_mem_cons.2 ⟨hn, hmore⟩,
      (intercalate_numbers first more).symm⟩
  · rintro ⟨rfl, numbers, hne, hnumbers, rfl⟩
    cases numbers with
    | nil => exact absurd rfl hne
    | cons first more =>
      obtain ⟨hn, hmore⟩ := List.forall_mem_cons.1 hnumbers
      have hnumber := takes_number_iff.2 (number_append hn (numberEnds_furtherText more))
      obtain ⟨l, hfirst⟩ := exists_takes_leaf_iff.2 ⟨first, hnumber⟩
      obtain ⟨l', hreads⟩ := reads_furtherNumber_iff.2 ⟨more, hmore, rfl⟩
      have hmany : (many furtherNumber).Takes (furtherText more) l' [] :=
        (takes_many_iff progresses_furtherNumber).2 ⟨hreads, rfl⟩
      obtain ⟨l'', hend⟩ := exists_takes_leaf_iff.2 ⟨(), takes_endOfInput_iff.2 ⟨rfl, rfl⟩⟩
      rw [intercalate_numbers]
      exact ⟨_, takes_bind_iff.2 ⟨l, _, hfirst, takes_bind_iff.2 ⟨l', [], hmany,
        takes_bind_iff.2 ⟨l'', [], hend, takes_pure_iff.2 ⟨rfl, rfl⟩⟩⟩⟩⟩

end Parser

end ShaderNodes.Grammar
