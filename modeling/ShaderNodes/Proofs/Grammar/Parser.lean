import Mathlib.Data.List.TakeWhile
import ShaderNodes.Grammar.Error
import ShaderNodes.Proofs.Grammar.Token

/-!
# What parsers take

A parser takes the beginning of a text and leaves the rest (`Parser.Takes`). The `takes_*` lemmas
open combinators and plain rules, so that what a rule takes is told by what its parts take.

* `Location.ofExtent_append`: where a piece of a text is.
* `Parser.takes_leaf_append_iff`, `Parser.takes_compound_append_iff`: the pairs of rules.
* `Parser.takes_many_iff`: repetition takes matches until there is none.
* `Parser.takes_spaced_iff`: with blanks between the matches, and after the last one, each match is
  followed by blanks.
-/

namespace ShaderNodes.Text

/-! ## Texts with separators -/

/-- Of texts with a separator between them, each but the first has one before it. -/
theorem intercalate_cons_eq_append (separator : Char) (s : List Char) (l : List (List Char)) :
    [separator].intercalate (s :: l) = s ++ l.flatMap fun t => separator :: t := by
  induction l generalizing s with
  | nil => simp
  | cons t l ih =>
    rw [List.intercalate_cons_cons, ih, List.flatMap_cons, List.append_assoc]
    rfl

theorem mem_of_mem_intercalate {s : List Char} {l : List (List Char)} {c : Char}
    (h : c ∈ List.intercalate s l) : c ∈ s ∨ ∃ a ∈ l, c ∈ a := by
  induction l with
  | nil => simp [List.intercalate] at h
  | cons a l ih =>
    cases l with
    | nil => exact .inr ⟨a, .head _, by simpa [List.intercalate] using h⟩
    | cons a' l =>
      rw [List.intercalate_cons_cons] at h
      rcases List.mem_append.1 h with h | h
      · rcases List.mem_append.1 h with h | h
        · exact .inr ⟨a, .head _, h⟩
        · exact .inl h
      · exact (ih h).imp_right fun ⟨b, hb, hc⟩ => ⟨b, .tail _ hb, hc⟩

end ShaderNodes.Text

namespace ShaderNodes.Grammar

/-! ## Positions -/

/-- The position after the given characters. -/
def Position.after (before : List Char) : Position :=
  ⟨1 + before.count '\n', 1 + (before.reverse.takeWhile (· ≠ '\n')).length⟩

theorem Position.ofLeft_append (before rest : List Char) :
    ofLeft (before ++ rest) rest.length = after before := by
  have hbefore : Position.before (before ++ rest) rest.length = before := by simp [Position.before]
  rw [ofLeft, hbefore]
  rfl

/-- On the first line a column counts all characters. -/
theorem Position.after_of_not_mem {before : List Char} (h : '\n' ∉ before) :
    after before = ⟨1, 1 + before.length⟩ := by
  have hall : ∀ c ∈ before.reverse, decide (c ≠ '\n') = true := by
    intro c hc
    rw [decide_eq_true_eq]
    rintro rfl
    exact h (List.mem_reverse.1 hc)
  rw [after, List.count_eq_zero_of_not_mem h, List.takeWhile_eq_self_iff.2 hall,
    List.length_reverse]

/-- A piece of a text is between the positions before and after it. -/
theorem Location.ofExtent_append (before piece rest : List Char) :
    ofExtent (before ++ (piece ++ rest)) ⟨(piece ++ rest).length, rest.length⟩ =
      .span (.after before) (.after (before ++ piece)) := by
  rw [ofExtent, Position.ofLeft_append, ← List.append_assoc, Position.ofLeft_append]

/-- The text did not match the grammar. -/
def Error.IsMismatch (e : Error) : Prop := ∃ report, e.cause = .mismatch report

theorem Error.IsMismatch.ne_fault {e : Error} {fault : Fault} {part : Part} {place : Location}
    (h : e.IsMismatch) : e ≠ ⟨.fault fault part, place⟩ := by
  rintro rfl
  obtain ⟨report, hreport⟩ := h
  cases hreport

/-- The pair of a rule that matched `text`, in front of `after`. -/
def Pair.cover (rule : Rule) (text after : List Char) (inner : List Pair) : Pair :=
  ⟨rule, String.ofList text, ⟨(text ++ after).length, after.length⟩, inner⟩

theorem Pair.text_cover (rule : Rule) (word : String) (after : List Char) (inner : List Pair) :
    (Pair.cover rule word.toList after inner).text = word :=
  String.ofList_toList

theorem Pair.inner_cover (rule : Rule) (text after : List Char) (inner : List Pair) :
    (Pair.cover rule text after inner).inner = inner := rfl

theorem Pair.mk_eq_cover (rule : Rule) (text after : List Char) (inner : List Pair) :
    Pair.mk rule (String.ofList ((text ++ after).take ((text ++ after).length - after.length)))
      ⟨(text ++ after).length, after.length⟩ inner = .cover rule text after inner := by
  simp [cover]

/-! ## Parsers -/

namespace Parser

variable {α β : Type} {p : Parser α} {s r : List Char}

/-- The parser matches the beginning of `s`, with the value `a`, and leaves `r`. -/
def Takes (p : Parser α) (s : List Char) (a : α) (r : List Char) : Prop :=
  (p s).parsed = some (a, r)

theorem Takes.unique {a a' : α} {r r' : List Char} (h : p.Takes s a r) (h' : p.Takes s a' r') :
    a = a' ∧ r = r' :=
  Prod.mk.inj (Option.some.inj (h.symm.trans h'))

theorem parsed_eq_none_iff : (p s).parsed = none ↔ ∀ a r, ¬ p.Takes s a r := by
  unfold Takes
  rw [Option.eq_none_iff_forall_ne_some, Prod.forall]

/-- Parsing a whole text gives what the parser takes at its beginning. -/
theorem parse_eq_ok_iff {a : α} : p.parse s = .ok a ↔ ∃ r, p.Takes s a r := by
  unfold Takes
  rw [parse, ← run_eq_ok_iff]
  cases p.run s <;> simp [Except.mapError]

/-- A whole text is refused because it does not match. -/
theorem isMismatch_of_parse {e : Error} (h : p.parse s = .error e) : e.IsMismatch := by
  rw [parse] at h
  cases hrun : p.run s with
  | ok a =>
    rw [hrun] at h
    cases h
  | error attempts =>
    rw [hrun] at h
    obtain rfl := Except.error.inj h
    exact ⟨_, rfl⟩

theorem takes_pure_iff {a b : α} : (pure a : Parser α).Takes s b r ↔ b = a ∧ r = s := by
  simp [Takes, eq_comm]

theorem takes_bind_iff {f : α → Parser β} {b : β} :
    (p >>= f).Takes s b r ↔ ∃ a s', p.Takes s a s' ∧ (f a).Takes s' b r := by
  rw [Takes, parsed_bind, Option.bind_eq_some_iff]
  simp [Takes]

theorem takes_rule_iff {name : Rule} {a : α} : (rule name p).Takes s a r ↔ p.Takes s a r := by
  rw [Takes, parsed_rule, Takes]

theorem takes_token_iff {lex : List Char → Option (α × List Char)} {a : α} :
    (token lex).Takes s a r ↔ lex s = some (a, r) := Iff.rfl

theorem takes_char_iff {c : Char} {u : Unit} : (char c).Takes s u r ↔ s = c :: r := by
  rw [char, takes_token_iff]
  cases s with
  | nil => simp
  | cons d s =>
    by_cases h : d = c <;> simp [h]

theorem takes_blanks_iff {u : Unit} : blanks.Takes s u r ↔ r = skip s := by
  rw [blanks, takes_token_iff]
  simp [eq_comm]

theorem takes_endOfInput_iff {u : Unit} : endOfInput.Takes s u r ↔ s = [] ∧ r = [] := by
  rw [endOfInput, takes_rule_iff, takes_token_iff]
  cases s <;> simp [eq_comm]

theorem takes_optional_iff {found : Option α} :
    (optional p).Takes s found r ↔
      (∃ a, found = some a ∧ p.Takes s a r) ∨ found = none ∧ r = s ∧ (p s).parsed = none := by
  simp only [Takes, parsed_optional]
  cases h : (p s).parsed with
  | none => simp [eq_comm]
  | some m =>
    obtain ⟨a, r'⟩ := m
    simp [eq_comm]

/-! ## Repetition -/

/-- Matches one after another. -/
inductive Reads (p : Parser α) : List Char → List α → List Char → Prop where
  | nil {s : List Char} : Reads p s [] s
  | cons {s s' r : List Char} {a : α} {l : List α} (h : p.Takes s a s') (hrest : Reads p s' l r) :
      Reads p s (a :: l) r

/-- Each match takes a character. -/
def Progresses (p : Parser α) : Prop := ∀ s a r, p.Takes s a r → r.length < s.length

theorem takes_manyUpTo_succ_iff {n : Nat} {l : List α} :
    (manyUpTo p (n + 1)).Takes s l r ↔
      (p s).parsed = none ∧ l = [] ∧ r = s ∨
        ∃ a s' l', p.Takes s a s' ∧ (manyUpTo p n).Takes s' l' r ∧ l = a :: l' := by
  rw [manyUpTo, takes_bind_iff]
  constructor
  · rintro ⟨found, s', hfound, h⟩
    rcases takes_optional_iff.1 hfound with ⟨a, rfl, ha⟩ | ⟨rfl, rfl, hnone⟩
    · obtain ⟨l', s'', hmore, h⟩ := takes_bind_iff.1 h
      obtain ⟨rfl, rfl⟩ := takes_pure_iff.1 h
      exact .inr ⟨a, s', l', ha, hmore, rfl⟩
    · exact .inl ⟨hnone, takes_pure_iff.1 h⟩
  · rintro (⟨hnone, rfl, rfl⟩ | ⟨a, s', l', ha, hmore, rfl⟩)
    · exact ⟨none, _, takes_optional_iff.2 (.inr ⟨rfl, rfl, hnone⟩), rfl⟩
    · exact ⟨some a, s', takes_optional_iff.2 (.inl ⟨a, rfl, ha⟩),
        takes_bind_iff.2 ⟨l', r, hmore, rfl⟩⟩

/-- Repetition reads matches until there is none. -/
theorem takes_manyUpTo_iff (hp : p.Progresses) {n : Nat} (hn : s.length < n) {l : List α} :
    (manyUpTo p n).Takes s l r ↔ Reads p s l r ∧ (p r).parsed = none := by
  induction n generalizing s l with
  | zero => omega
  | succ n ih =>
    rw [takes_manyUpTo_succ_iff]
    constructor
    · rintro (⟨hnone, rfl, rfl⟩ | ⟨a, s', l', ha, hmore, rfl⟩)
      · exact ⟨.nil, hnone⟩
      · have hlt := hp s a s' ha
        obtain ⟨hreads, hnone⟩ := (ih (by omega)).1 hmore
        exact ⟨.cons ha hreads, hnone⟩
    · rintro ⟨hreads, hnone⟩
      cases hreads with
      | nil => exact .inl ⟨hnone, rfl, rfl⟩
      | @cons _ s' _ a l' ha hreads =>
        have hlt := hp s a s' ha
        exact .inr ⟨a, s', l', ha, (ih (by omega)).2 ⟨hreads, hnone⟩, rfl⟩

theorem takes_many_iff (hp : p.Progresses) {l : List α} :
    (many p).Takes s l r ↔ Reads p s l r ∧ (p r).parsed = none :=
  takes_manyUpTo_iff hp (Nat.lt_succ_self s.length)

theorem Progresses.after_blanks (hp : p.Progresses) : Progresses (do blanks; p) := by
  intro s a r h
  obtain ⟨_, s', hblanks, h⟩ := takes_bind_iff.1 h
  obtain rfl := takes_blanks_iff.1 hblanks
  exact Nat.lt_of_lt_of_le (hp _ a r h) (length_skip_le s)

theorem parsed_after_blanks : ((do blanks; p : Parser α) s).parsed = (p (skip s)).parsed := by
  rw [parsed_bind, blanks, parsed_token, Option.bind_some]

/-! ## Pairs -/

theorem takes_matched_iff {name : Rule} {p : Parser (List Pair)} {l : List Pair} :
    (matched name p).Takes s l r ↔ ∃ inner, p.Takes s inner r ∧
      l = [⟨name, String.ofList (s.take (s.length - r.length)), ⟨s.length, r.length⟩, inner⟩] := by
  unfold Takes matched
  obtain ⟨_ | ⟨inner, rest⟩, _⟩ := p s
  · simp
  · simp only [Option.some.injEq, Prod.mk.injEq]
    constructor
    · rintro ⟨rfl, rfl⟩
      exact ⟨inner, ⟨rfl, rfl⟩, rfl⟩
    · rintro ⟨_, ⟨rfl, rfl⟩, rfl⟩
      exact ⟨rfl, rfl⟩

/-- A rule made of other rules takes what these take, and gives one pair for the whole of it. -/
theorem takes_compound_iff {name : Rule} {p : Parser (List Pair)} {l : List Pair} :
    (compound name p).Takes s l r ↔ ∃ inner, p.Takes s inner r ∧
      l = [⟨name, String.ofList (s.take (s.length - r.length)), ⟨s.length, r.length⟩, inner⟩] := by
  simp only [compound, takes_matched_iff, takes_rule_iff]

theorem exists_takes_compound_iff {name : Rule} {p : Parser (List Pair)} :
    (∃ l, (compound name p).Takes s l r) ↔ ∃ inner, p.Takes s inner r := by
  simp only [takes_compound_iff]
  constructor
  · rintro ⟨_, inner, hinner, -⟩
    exact ⟨inner, hinner⟩
  · rintro ⟨inner, hinner⟩
    exact ⟨_, inner, hinner, rfl⟩

/-- The same with the text that is taken written out. -/
theorem takes_compound_append_iff {name : Rule} {p : Parser (List Pair)} {text : List Char}
    {l : List Pair} : (compound name p).Takes (text ++ r) l r ↔
      ∃ inner, p.Takes (text ++ r) inner r ∧ l = [.cover name text r inner] := by
  simp only [takes_compound_iff, Pair.mk_eq_cover]

/-- A rule that takes a whole text. -/
theorem takes_compound_nil_iff {name : Rule} {p : Parser (List Pair)} {l : List Pair} :
    (compound name p).Takes s l [] ↔ ∃ inner, p.Takes s inner [] ∧
    l = [.cover name s [] inner] := by
  have happend : (compound name p).Takes (s ++ []) l [] ↔
      ∃ inner, p.Takes (s ++ []) inner [] ∧ l = [.cover name s [] inner] :=
        takes_compound_append_iff
  rwa [List.append_nil] at happend

theorem takes_leaf_iff {name : Rule} {l : List Pair} :
    (leaf name p).Takes s l r ↔ (∃ a, p.Takes s a r) ∧
      l = [⟨name, String.ofList (s.take (s.length - r.length)), ⟨s.length, r.length⟩, []⟩] := by
  simp only [leaf, takes_matched_iff, takes_bind_iff, takes_pure_iff]
  constructor
  · rintro ⟨_, ⟨a, _, ha, rfl, rfl⟩, rfl⟩
    exact ⟨⟨a, ha⟩, rfl⟩
  · rintro ⟨⟨a, ha⟩, rfl⟩
    exact ⟨[], ⟨a, r, ha, rfl, rfl⟩, rfl⟩

theorem exists_takes_leaf_iff {name : Rule} :
    (∃ l, (leaf name p).Takes s l r) ↔ ∃ a, p.Takes s a r := by
  simp only [takes_leaf_iff, exists_eq_right]

theorem takes_leaf_append_iff {name : Rule} {text : List Char} {l : List Pair} :
    (leaf name p).Takes (text ++ r) l r ↔
      (∃ a, p.Takes (text ++ r) a r) ∧ l = [.cover name text r []] := by
  simp only [takes_leaf_iff, Pair.mk_eq_cover]

/-- A rule for words gives one pair, with the word as its text. -/
theorem takes_leaf_word_iff {name : Rule} {p : Parser String}
    (htext : ∀ w, p.Takes s w r → s = w.toList ++ r) {l : List Pair} :
    (leaf name p).Takes s l r ↔ ∃ w, p.Takes s w r ∧ l = [.cover name w.toList r []] := by
  constructor
  · intro h
    obtain ⟨⟨w, hw⟩, -⟩ := takes_leaf_iff.1 h
    obtain rfl := htext w hw
    exact ⟨w, hw, (takes_leaf_append_iff.1 h).2⟩
  · rintro ⟨w, hw, rfl⟩
    obtain rfl := htext w hw
    exact takes_leaf_append_iff.2 ⟨⟨w, hw⟩, rfl⟩

/-! ## Repetition with blanks -/

/-- Matches one after another, each with the blanks after it, and their pairs. -/
inductive Repeats (p : Parser (List Pair)) : List Char → List Pair → List Char → Prop where
  | nil {s : List Char} : Repeats p s [] s
  | cons {s s' r : List Char} {first more : List Pair} (h : p.Takes s first s')
      (hrest : Repeats p (skip s') more r) : Repeats p s (first ++ more) r

variable {p : Parser (List Pair)}

/-- Blanks before each match and after the last one are blanks after each match. -/
theorem exists_reads_iff_repeats {l : List Pair} :
    (∃ all r', Reads (do blanks; p) s all r' ∧ all.flatten = l ∧ skip r' = r) ↔
      Repeats p (skip s) l r := by
  constructor
  · rintro ⟨all, r', h, rfl, rfl⟩
    induction h with
    | nil => exact .nil
    | cons h _ ih =>
      obtain ⟨_, s'', hblanks, h⟩ := takes_bind_iff.1 h
      obtain rfl := takes_blanks_iff.1 hblanks
      exact .cons h ih
  · intro h
    generalize hs : skip s = s' at h
    induction h generalizing s with
    | nil => exact ⟨[], s, .nil, rfl, hs⟩
    | @cons s₁ s₂ r first more h _ ih =>
      obtain ⟨all, r', hreads, rfl, hr⟩ := ih rfl
      exact ⟨first :: all, r',
        .cons (takes_bind_iff.2 ⟨(), _, takes_blanks_iff.2 hs.symm, h⟩) hreads, rfl, hr⟩

/-- Spaced repetition and blanks after it, where no blanks come first. -/
theorem takes_spaced_iff (hp : p.Progresses) (hs : skip s = s) {l : List Pair} :
    (∃ r', (spaced p).Takes s l r' ∧ skip r' = r) ↔ Repeats p s l r ∧ (p r).parsed = none := by
  have hmany := fun s r l => takes_many_iff (s := s) (r := r) (l := l) hp.after_blanks
  simp only [spaced, takes_bind_iff]
  constructor
  · rintro ⟨r', ⟨found, s', hfound, h⟩, hr⟩
    rcases takes_optional_iff.1 hfound with ⟨first, rfl, hfirst⟩ | ⟨rfl, rfl, hnone⟩
    · obtain ⟨more, s'', hmore, h⟩ := takes_bind_iff.1 h
      obtain ⟨rfl, rfl⟩ := takes_pure_iff.1 h
      obtain ⟨hreads, hnone⟩ := (hmany _ _ _).1 hmore
      rw [parsed_after_blanks, hr] at hnone
      exact ⟨.cons hfirst (exists_reads_iff_repeats.1 ⟨more, r', hreads, rfl, hr⟩), hnone⟩
    · obtain ⟨rfl, rfl⟩ := takes_pure_iff.1 h
      rw [← hr, hs]
      exact ⟨.nil, hnone⟩
  · rintro ⟨h, hnone⟩
    cases h with
    | nil => exact ⟨s, ⟨none, s, takes_optional_iff.2 (.inr ⟨rfl, rfl, hnone⟩), rfl⟩, hs⟩
    | @cons _ s' _ first more hfirst hrest =>
      obtain ⟨all, r', hreads, rfl, hr⟩ := exists_reads_iff_repeats.2 hrest
      have hmore := (hmany s' r' all).2 ⟨hreads, by rw [parsed_after_blanks, hr, hnone]⟩
      exact ⟨r', ⟨some first, s', takes_optional_iff.2 (.inl ⟨first, rfl, hfirst⟩),
        takes_bind_iff.2 ⟨all, r', hmore, rfl⟩⟩, hr⟩

end Parser

end ShaderNodes.Grammar
