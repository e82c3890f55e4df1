import ShaderNodes.Literal
import ShaderNodes.Proofs.Grammar.Number

/-!
# Reading literals

A literal of one component is a number with a fraction. A literal of more is that many numbers, with
commas between them; as the numbers have no commas themselves, the text tells them apart. Any other
text is refused, and the error tells whether it has another number of components or is no literal at
all.

* `Literal.Lists`: a text of numbers with commas between them.
* `Literal.parse_of_lists`, `Literal.parse_of_not_lists`: what is read from a text.
* `Literal.parse_iff_form`: what comes of a text, for any dimension.
* `Literal.parse_ok`: the characters of the components, none of which begins a word.
-/

namespace ShaderNodes

namespace Grammar

/-! ## The characters of numbers -/

/-- The characters of numbers. -/
def isNumeric (c : Char) : Bool := c.isDigit || c = '-' || c = '.'

theorem isNumeric_of_isDigit {c : Char} (h : c.isDigit = true) : isNumeric c = true := by
  simp [isNumeric, h]

theorem isWordStart_of_isNumeric {c : Char} (h : isNumeric c = true) : isWordStart c = false := by
  have hascii : c.toNat < 0x80 := by
    simp only [isNumeric, Bool.or_eq_true, decide_eq_true_eq] at h
    rcases h with (h | rfl) | rfl
    · exact Text.lt_of_isWordChar (by simp [isWordChar, Char.isAlphanum, h])
    · decide
    · decide
  exact Text.ascii_forall (P := fun c => isNumeric c = true → isWordStart c = false)
    (by decide) hascii h

namespace Form

variable {s : List Char}

theorem isNumeric_of_digits (h : s ∈ digits.matches') : ∀ c ∈ s, isNumeric c = true := fun c hc =>
  isNumeric_of_isDigit ((mem_digits_iff.1 h).2 c hc)

theorem isNumeric_of_integer (h : s ∈ integer.matches') : ∀ c ∈ s, isNumeric c = true := by
  rcases mem_integer_iff.1 h with h | ⟨ds, hds, rfl⟩
  · exact isNumeric_of_digits h
  · exact List.forall_mem_cons.2 ⟨by decide, isNumeric_of_digits hds⟩

theorem isNumeric_of_decimal (h : s ∈ decimal.matches') : ∀ c ∈ s, isNumeric c = true := by
  obtain ⟨whole, hwhole, part, hpart, rfl⟩ := mem_decimal_iff.1 h
  obtain ⟨ds, hds, rfl⟩ := mem_fraction_iff.1 hpart
  refine List.forall_mem_append.2 ⟨isNumeric_of_integer hwhole, ?_⟩
  exact List.forall_mem_cons.2 ⟨by decide, isNumeric_of_digits hds⟩

theorem isNumeric_of_number (h : s ∈ number.matches') : ∀ c ∈ s, isNumeric c = true :=
  (mem_number_iff.1 h).elim isNumeric_of_integer isNumeric_of_decimal

end Form

end Grammar

theorem SocketType.isNone_ofDimension?_iff {dimension : Nat} :
    (ofDimension? dimension).isNone = true ↔ ¬ (1 ≤ dimension ∧ dimension ≤ 4) := by
  match dimension with
  | 0 | 1 | 2 | 3 | 4 => simp [ofDimension?]
  | n + 5 =>
    simp only [ofDimension?, Option.isNone_none, true_iff]
    omega

namespace Literal

open Grammar

/-! ## Numbers between commas -/

/-- The text is made of the components, which are numbers, with commas between them. -/
def Lists (text : String) (components : List String) : Prop :=
  components ≠ [] ∧ (∀ n ∈ components, n.toList ∈ Form.number.matches') ∧
  ",".intercalate components = text

instance (text : String) (components : List String) : Decidable (Lists text components) :=
  inferInstanceAs (Decidable (_ ∧ _ ∧ _))

variable {text : String} {components : List String} {dimension : Nat}

namespace Lists

/-- The components are what the text has between its commas. -/
theorem splitOn_eq (h : Lists text components) :
    text.toList.splitOn ',' = components.map String.toList := by
  obtain ⟨hne, hnumbers, rfl⟩ := h
  rw [String.toList_intercalate]
  refine List.splitOn_intercalate ',' (fun l hl hcomma => ?_) (by simpa using hne)
  obtain ⟨n, hn, rfl⟩ := List.mem_map.1 hl
  exact absurd (Form.isNumeric_of_number (hnumbers n hn) ',' hcomma) (by decide)

/-- The components of a text that lists them are what it is split into. -/
theorem split_eq (h : Lists text components) : split text = components := by
  rw [split, h.splitOn_eq, List.map_map]
  simp [Function.comp_def]

/-- A number with a fraction is a list of one component. -/
theorem of_decimal (h : text.toList ∈ Form.decimal.matches') : Lists text [text] := by
  refine ⟨List.cons_ne_nil _ _, fun n hn => ?_, by simp⟩
  rw [List.mem_singleton.1 hn]
  exact Form.mem_number_iff.2 (.inr h)

/-- Such a text has one line. -/
theorem not_mem_newline (h : Lists text components) : '\n' ∉ text.toList := by
  obtain ⟨-, hnumbers, rfl⟩ := h
  intro hmem
  rw [String.toList_intercalate] at hmem
  rcases Text.mem_of_mem_intercalate hmem with hcomma | ⟨l, hl, hmem⟩
  · exact absurd hcomma (by decide)
  · obtain ⟨n, hn, rfl⟩ := List.mem_map.1 hl
    exact absurd (Form.isNumeric_of_number (hnumbers n hn) _ hmem) (by decide)

end Lists

/-! ## What is read -/

/-- The grammar takes numbers with a fraction for scalars. -/
theorem parse_scalarLiteral_iff :
    (∃ pairs, Parser.scalarLiteral.parse text.toList = .ok pairs) ↔
    text.toList ∈ Form.decimal.matches' := by
  simp only [Parser.parse_eq_ok_iff]
  rw [exists_comm]
  simp only [Parser.takes_scalarLiteral_iff, exists_eq_left]

/-- The grammar takes numbers between commas for vectors. -/
theorem parse_vectorLiteral_iff :
    (∃ pairs, Parser.vectorLiteral.parse text.toList = .ok pairs) ↔
    ∃ components, Lists text components := by
  have htext : ∀ components : List String, text.toList =
      [','].intercalate (components.map String.toList) ↔ ",".intercalate components = text := by
    intro components
    rw [← String.toList_inj, String.toList_intercalate, eq_comm]
    rfl
  simp only [Parser.parse_eq_ok_iff]
  rw [exists_comm]
  simp only [Parser.takes_vectorLiteral_iff, exists_eq_left, htext, Lists]

/-- A dimension that no type has is refused before the text is read. -/
theorem parse_of_unsupported (h : ¬ (1 ≤ dimension ∧ dimension ≤ 4)) :
    parse text dimension = .error ⟨.fault (.unsupportedDimension dimension) .literal,
      .point ⟨1, 1⟩⟩ :=
  if_pos (SocketType.isNone_ofDimension?_iff.2 h)

/-- Otherwise the rule for the dimension reads the text, and the pieces between its commas are
counted. -/
theorem parse_of_supported (h : 1 ≤ dimension ∧ dimension ≤ 4) :
    parse text dimension =
      ((if dimension = 1 then Parser.scalarLiteral
        else Parser.vectorLiteral).parse text.toList).bind fun pairs =>
          if (split text).length = dimension then pure (split text)
          else .error ⟨.fault (.arity dimension (split text).length) .literal,
            (pairs.head?.map fun literal => Location.ofExtent text.toList literal.extent).getD
              (.point ⟨1, 1⟩)⟩ :=
  if_neg (by rw [SocketType.isNone_ofDimension?_iff, not_not]; exact h)

theorem parse_one_of_decimal (h : text.toList ∈ Form.decimal.matches') :
    parse text 1 = .ok [text] := by
  obtain ⟨pairs, hpairs⟩ := parse_scalarLiteral_iff.2 h
  rw [parse_of_supported ⟨le_rfl, by decide⟩, if_pos rfl, hpairs, (Lists.of_decimal h).split_eq]
  rfl

theorem parse_one_of_not_decimal (h : text.toList ∉ Form.decimal.matches') :
    ∃ e, parse text 1 = .error e ∧ e.IsMismatch := by
  rw [parse_of_supported ⟨le_rfl, by decide⟩, if_pos rfl]
  cases hparse : Parser.scalarLiteral.parse text.toList with
  | ok pairs => exact absurd (parse_scalarLiteral_iff.1 ⟨pairs, hparse⟩) h
  | error e => exact ⟨e, rfl, Parser.isMismatch_of_parse hparse⟩

/-- The pair of a vector is there, and stands at the whole text. -/
theorem head?_of_parse_vectorLiteral {pairs : List Pair}
    (h : Parser.vectorLiteral.parse text.toList = .ok pairs) :
    ∃ inner, pairs.head? = some (.cover .vectorLiteral text.toList [] inner) := by
  obtain ⟨r, htakes⟩ := Parser.parse_eq_ok_iff.1 h
  obtain ⟨rfl, -⟩ := Parser.takes_vectorLiteral_iff.1 ⟨pairs, htakes⟩
  obtain ⟨inner, -, rfl⟩ := Parser.takes_compound_nil_iff.1 htakes
  exact ⟨inner, rfl⟩

section Vector

variable (hlow : 2 ≤ dimension) (hhigh : dimension ≤ 4)

include hlow hhigh

/-- Numbers between commas are a literal if they are as many as asked for; otherwise the error is
about the whole text. -/
theorem parse_of_lists (h : Lists text components) :
    parse text dimension =
      if components.length = dimension then .ok components
      else .error ⟨.fault (.arity dimension components.length) .literal,
        .span ⟨1, 1⟩ ⟨1, 1 + text.length⟩⟩ := by
  obtain ⟨pairs, hpairs⟩ := parse_vectorLiteral_iff.2 ⟨components, h⟩
  obtain ⟨inner, hhead⟩ := head?_of_parse_vectorLiteral hpairs
  have hplace :
      Location.ofExtent text.toList (Pair.cover .vectorLiteral text.toList [] inner).extent =
      .span ⟨1, 1⟩ ⟨1, 1 + text.length⟩ := by
    have happend := Location.ofExtent_append [] text.toList []
    rw [List.nil_append, List.nil_append, Position.after_of_not_mem h.not_mem_newline,
      String.length_toList, List.append_nil] at happend
    rw [Pair.cover, List.append_nil, happend]
    rfl
  rw [parse_of_supported ⟨by omega, hhigh⟩, if_neg (by omega), hpairs, h.split_eq, Except.bind,
    hhead, Option.map_some, hplace]
  rfl

theorem parse_of_not_lists (h : ¬ ∃ components, Lists text components) :
    ∃ e, parse text dimension = .error e ∧ e.IsMismatch := by
  rw [parse_of_supported ⟨by omega, hhigh⟩, if_neg (by omega)]
  cases hparse : Parser.vectorLiteral.parse text.toList with
  | ok pairs => exact absurd (parse_vectorLiteral_iff.1 ⟨pairs, hparse⟩) h
  | error e => exact ⟨e, rfl, Parser.isMismatch_of_parse hparse⟩

end Vector

/-- What is read are the numbers that the text lists, and they are as many as asked for. -/
theorem lists_of_parse (h : parse text dimension = .ok components) :
    components.length = dimension ∧ Lists text components := by
  by_cases hsupported : 1 ≤ dimension ∧ dimension ≤ 4
  · by_cases hone : dimension = 1
    · subst hone
      by_cases hdecimal : text.toList ∈ Form.decimal.matches'
      · obtain rfl := Except.ok.inj ((parse_one_of_decimal hdecimal).symm.trans h)
        exact ⟨rfl, .of_decimal hdecimal⟩
      · obtain ⟨e, he, -⟩ := parse_one_of_not_decimal hdecimal
        rw [he] at h
        cases h
    · by_cases hlists : ∃ components, Lists text components
      · obtain ⟨components', hlists⟩ := hlists
        rw [parse_of_lists (by omega) hsupported.2 hlists] at h
        split at h
        · rename_i hlength
          obtain rfl := Except.ok.inj h
          exact ⟨hlength, hlists⟩
        · cases h
      · obtain ⟨e, he, -⟩ := parse_of_not_lists (by omega) hsupported.2 hlists
        rw [he] at h
        cases h
  · rw [parse_of_unsupported hsupported] at h
    cases h

/-- A literal gives as many components as asked for, all of them numbers. -/
theorem parse_ok (h : parse text dimension = .ok components) :
    components.length = dimension ∧ ∀ n ∈ components, ∀ c ∈ n.toList, isNumeric c = true := by
  obtain ⟨hlength, -, hnumbers, -⟩ := lists_of_parse h
  exact ⟨hlength, fun n hn => Form.isNumeric_of_number (hnumbers n hn)⟩

/-! ## Main result -/

/-- What comes of a text as one component: itself, if it is a number with a fraction. -/
theorem parse_one_iff (text : String) :
    (∀ components, parse text 1 = .ok components ↔
        text.toList ∈ Form.decimal.matches' ∧ components = [text]) ∧
      ((∃ e, parse text 1 = .error e ∧ e.IsMismatch) ↔ text.toList ∉ Form.decimal.matches') := by
  by_cases hdecimal : text.toList ∈ Form.decimal.matches'
  · rw [parse_one_of_decimal hdecimal]
    simp [hdecimal, eq_comm]
  · obtain ⟨e, he, hmismatch⟩ := parse_one_of_not_decimal hdecimal
    rw [he]
    simp [hdecimal, hmismatch]

/-- What comes of a text as two to four components. -/
theorem parse_vector_iff (hlow : 2 ≤ dimension) (hhigh : dimension ≤ 4) (text : String) :
    (∀ components, parse text dimension = .ok components ↔
        components.length = dimension ∧ Lists text components) ∧
      (∀ expected got place, parse text dimension = .error ⟨.fault (.arity expected got) .literal,
        place⟩ ↔ expected = dimension ∧ got ≠ dimension ∧
          (∃ components, components.length = got ∧ Lists text components) ∧
          place = .span ⟨1, 1⟩ ⟨1, 1 + text.length⟩) ∧
      ((∃ e, parse text dimension = .error e ∧ e.IsMismatch) ↔
        ¬ ∃ components, Lists text components) := by
  refine ⟨fun components => ⟨lists_of_parse, ?_⟩, fun expected got place => ⟨fun h => ?_, ?_⟩,
    fun ⟨e, he, hmismatch⟩ ⟨components, hlists⟩ => ?_, parse_of_not_lists hlow hhigh⟩
  · rintro ⟨hlength, hlists⟩
    rw [parse_of_lists hlow hhigh hlists, if_pos hlength]
  · by_cases hlists : ∃ components, Lists text components
    · obtain ⟨components, hlists⟩ := hlists
      rw [parse_of_lists hlow hhigh hlists] at h
      split at h
      · cases h
      · rename_i hlength
        cases h
        exact ⟨rfl, hlength, ⟨components, rfl, hlists⟩, rfl⟩
    · obtain ⟨e, he, hmismatch⟩ := parse_of_not_lists hlow hhigh hlists
      exact absurd (Except.error.inj (he.symm.trans h)) hmismatch.ne_fault
  · rintro ⟨rfl, hne, ⟨components, rfl, hlists⟩, rfl⟩
    rw [parse_of_lists hlow hhigh hlists, if_neg hne]
  · rw [parse_of_lists hlow hhigh hlists] at he
    split at he
    · cases he
    · exact hmismatch.ne_fault (Except.error.inj he).symm

/-- Reading a literal accepts exactly the written forms: one number with a fraction, or as many
numbers between commas as asked for. Another count of numbers is an arity error over the whole text,
any other text is a mismatch, and a dimension that no type has is refused whatever the text is. The
components are also what a plain split at the commas gives. -/
theorem parse_iff_form (text : String) (dimension : Nat) :
    (parse text dimension = .error ⟨.fault (.unsupportedDimension dimension) .literal,
      .point ⟨1, 1⟩⟩ ↔
        ¬ (1 ≤ dimension ∧ dimension ≤ 4)) ∧
      (dimension = 1 →
        (∀ components, parse text dimension = .ok components ↔
          text.toList ∈ Form.decimal.matches' ∧ components = [text]) ∧
        ((∃ e, parse text dimension = .error e ∧ e.IsMismatch) ↔
          text.toList ∉ Form.decimal.matches')) ∧
      (2 ≤ dimension → dimension ≤ 4 →
        (∀ components, parse text dimension = .ok components ↔
          components.length = dimension ∧ Lists text components) ∧
        (∀ expected got place,
          parse text dimension = .error ⟨.fault (.arity expected got) .literal, place⟩ ↔
            expected = dimension ∧ got ≠ dimension ∧
              (∃ components, components.length = got ∧ Lists text components) ∧
              place = .span ⟨1, 1⟩ ⟨1, 1 + text.length⟩) ∧
        ((∃ e, parse text dimension = .error e ∧ e.IsMismatch) ↔
          ¬ ∃ components, Lists text components)) ∧
      ∀ components, parse text dimension = .ok components →
        text.toList.splitOn ',' = components.map String.toList := by
  refine ⟨⟨fun h hsupported => ?_, parse_of_unsupported⟩, ?_, fun hlow hhigh =>
    parse_vector_iff hlow hhigh text, fun components h => (lists_of_parse h).2.splitOn_eq⟩
  · rw [parse_of_supported hsupported] at h
    cases hparse : (if dimension = 1 then Parser.scalarLiteral
      else Parser.vectorLiteral).parse text.toList with
    | error e =>
      rw [hparse] at h
      exact (Parser.isMismatch_of_parse hparse).ne_fault (Except.error.inj h)
    | ok pairs =>
      rw [hparse, Except.bind] at h
      split at h <;> cases h
  · rintro rfl
    exact parse_one_iff text

/-- A scalar needs its fraction; the components of a vector do not, but their number has to be
right. -/
theorem parse_iff_form_signed :
    parse "-0.5" 1 = .ok ["-0.5"] ∧ (∃ e, parse "-2" 1 = .error e ∧ e.IsMismatch) ∧
      parse "0.5,-2,1" 3 = .ok ["0.5", "-2", "1"] ∧
      "0.5,-2,1".toList.splitOn ',' = ["0.5", "-2", "1"].map String.toList ∧
      parse "0.5,-2,1" 4 = .error ⟨.fault (.arity 4 3) .literal, .span ⟨1, 1⟩ ⟨1, 9⟩⟩ := by
  have hlists : Lists "0.5,-2,1" ["0.5", "-2", "1"] := by decide
  have hok : parse "0.5,-2,1" 3 = .ok ["0.5", "-2", "1"] :=
    (((parse_iff_form "0.5,-2,1" 3).2.2.1 (by decide) (by decide)).1 _).2 ⟨rfl, hlists⟩
  refine ⟨?_, ?_, hok, (parse_iff_form "0.5,-2,1" 3).2.2.2 _ hok, ?_⟩
  · exact (((parse_iff_form "-0.5" 1).2.1 rfl).1 _).2 ⟨by decide, rfl⟩
  · exact ((parse_iff_form "-2" 1).2.1 rfl).2.2 (by decide)
  · exact (((parse_iff_form "0.5,-2,1" 4).2.2.1 (by decide) (by decide)).2.1 4 3 _).2
      ⟨rfl, by decide, ⟨_, rfl, hlists⟩, rfl⟩

end Literal

end ShaderNodes
