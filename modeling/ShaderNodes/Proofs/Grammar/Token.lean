import ShaderNodes.Grammar.Rules
import ShaderNodes.Proofs.Text.Identifier

/-!
# What the tokens match

The languages of the tokens, said without the scans that read them.

* `Blanks`: blanks and comments. `skip_append` says that they are skipped, and `exists_blanks` that
  nothing else is.
* `WordEnds`: no word goes on. Words and identifiers are read up to such a place
  (`word_eq_some_iff`, `ident_eq_some_iff`).
* `Balanced`: text with as many closing braces as opening ones, none of them too early. A block is
  such a text in braces (`block_eq_some_iff`).
-/

namespace ShaderNodes.Grammar

open Text

/-! ## Blanks -/

/-- A line comment may end before this text: it begins with a line end, or the whole text is
over. -/
def LineEnds (atEnd : Bool) : List Char → Prop
  | [] => atEnd = true
  | c :: _ => isNewline c = true

/-- A run of blanks, line comments and closed block comments, maybe at the end of the whole text.
A line comment goes up to the end of its line, a block comment up to the first place that closes
it. -/
inductive Blanks (atEnd : Bool) : List Char → Prop where
  | nil : Blanks atEnd []
  | space {c : Char} {g : List Char} (hc : isSpace c = true) (h : Blanks atEnd g) :
      Blanks atEnd (c :: g)
  | line {text g : List Char} (htext : ∀ c ∈ text, isNewline c = false) (hend : LineEnds atEnd g)
      (h : Blanks atEnd g) : Blanks atEnd ('/' :: '/' :: (text ++ g))
  | block {text g : List Char} (htext : ¬ ['*', '/'] <:+: text) (h : Blanks atEnd g) :
      Blanks atEnd ('/' :: '*' :: (text ++ '*' :: '/' :: g))

/-- Blanks that keep the words around them apart. -/
def Separates (g : List Char) : Prop := Blanks false g ∧ g ≠ []

theorem isSpace_of_isNewline {c : Char} (h : isNewline c = true) : isSpace c = true := by
  simp only [isNewline, isSpace, Bool.or_eq_true, decide_eq_true_eq] at h ⊢
  tauto

theorem isWordChar_of_isSpace {c : Char} (h : isSpace c = true) : isWordChar c = false := by
  simp only [isSpace, Bool.or_eq_true, decide_eq_true_eq] at h
  rcases h with ((rfl | rfl) | rfl) | rfl <;> decide

theorem skip_space {c : Char} {s : List Char} (hc : isSpace c = true) : skip (c :: s) = skip s := by
  have hslash : c ≠ '/' := by
    rintro rfl
    exact absurd hc (by decide)
  unfold skip
  rw [skipFrom.eq_3 c s (fun _ h => absurd h hslash) (fun _ h => absurd h hslash), if_pos hc]

/-- Nothing is skipped before a character that begins no blanks. -/
theorem skip_of_solid {c : Char} (s : List Char) (hc : isSpace c = false) (hslash : c ≠ '/') :
    skip (c :: s) = c :: s := by
  unfold skip
  rw [skipFrom.eq_3 c s (fun _ h => absurd h hslash) (fun _ h => absurd h hslash), hc,
    if_neg Bool.false_ne_true]

theorem skip_of_isWordChar {c : Char} (s : List Char) (hc : isWordChar c = true) :
    skip (c :: s) = c :: s := by
  refine skip_of_solid s ?_ ?_
  · by_contra h
    rw [isWordChar_of_isSpace (Bool.not_eq_false _ ▸ h)] at hc
    cases hc
  · rintro rfl
    exact absurd hc (by decide)

theorem skipFrom_line_append {text s : List Char} (h : ∀ c ∈ text, isNewline c = false) :
    skipFrom .line (text ++ s) = skipFrom .line s := by
  induction text with
  | nil => rfl
  | cons c text ih =>
    rw [List.cons_append, skipFrom, h c (.head _), if_neg Bool.false_ne_true]
    exact ih fun d hd => h d (.tail _ hd)

/-- Where a line comment may end, the scan goes on as outside of it. -/
theorem skipFrom_line_of_lineEnds {atEnd : Bool} {g r : List Char} (h : LineEnds atEnd g)
    (hr : atEnd = true → r = []) : skipFrom .line (g ++ r) = skip (g ++ r) := by
  cases g with
  | nil =>
    rw [hr h]
    rfl
  | cons c g =>
    have hc : isNewline c = true := h
    rw [List.cons_append, skip_space (isSpace_of_isNewline hc), skipFrom, if_pos hc]
    rfl

theorem skipFrom_block_append (start : List Char) {text s : List Char}
    (h : ¬ ['*', '/'] <:+: text) : skipFrom (.block start) (text ++ '*' :: '/' :: s) = skip s := by
  induction text with
  | nil => rfl
  | cons c text ih =>
    have hinfix : ¬ ['*', '/'] <:+: text := fun hi => h (hi.trans (List.suffix_cons c text).isInfix)
    rw [List.cons_append, skipFrom.eq_6]
    · exact ih hinfix
    · -- The comment is not closed here, since the text has no place that closes it.
      rintro rest rfl heq
      cases text with
      | nil => simp at heq
      | cons d text =>
        obtain rfl : d = '/' := by simpa using congrArg List.head? heq
        exact h ⟨[], text, rfl⟩

/-- Blanks are skipped, whatever comes after them. -/
theorem skip_append {atEnd : Bool} {g r : List Char} (h : Blanks atEnd g)
    (hr : atEnd = true → r = []) : skip (g ++ r) = skip r := by
  induction h with
  | nil => rfl
  | space hc _ ih => rw [List.cons_append, skip_space hc, ih]
  | line htext hend _ ih =>
    rw [← ih, ← skipFrom_line_of_lineEnds hend hr, ← skipFrom_line_append htext,
      ← List.append_assoc]
    rfl
  | @block text g htext _ ih =>
    have hstart :=
      skipFrom_block_append ('/' :: '*' :: (text ++ '*' :: '/' :: (g ++ r))) (s := g ++ r)
      htext
    rw [← ih, ← hstart]
    simp only [List.cons_append, List.append_assoc]
    rfl

theorem skip_append_of_solid {g r : List Char} (h : Blanks false g) (hr : skip r = r) :
    skip (g ++ r) = r := by
  rw [skip_append h nofun, hr]

/-- What a scan from a place in blanks has passed over when `rest` is left. -/
def Passed (s rest : List Char) : Gap → Prop
  | .plain => ∃ g, s = g ++ rest ∧ Blanks rest.isEmpty g
  | .line => ∃ text g, s = text ++ (g ++ rest) ∧ (∀ c ∈ text, isNewline c = false) ∧
      LineEnds rest.isEmpty g ∧ Blanks rest.isEmpty g
  | .block start => rest = start ∨ ∃ text g, s = text ++ '*' :: '/' :: (g ++ rest) ∧
      ¬ ['*', '/'] <:+: text ∧ Blanks rest.isEmpty g

theorem passed_skipFrom (gap : Gap) (s : List Char) : Passed s (skipFrom gap s) gap := by
  fun_induction skipFrom gap s with
  | case1 rest ih =>
    obtain ⟨text, g, hrest, htext, hend, hg⟩ := ih
    exact ⟨'/' :: '/' :: (text ++ g), by simpa using hrest, .line htext hend hg⟩
  | case2 rest ih =>
    rcases ih with hstart | ⟨text, g, hrest, htext, hg⟩
    · exact ⟨[], hstart.symm, .nil⟩
    · exact ⟨'/' :: '*' :: (text ++ '*' :: '/' :: g), by simpa using hrest, .block htext hg⟩
  | case3 c rest _ _ hc ih =>
    obtain ⟨g, hrest, hg⟩ := ih
    exact ⟨c :: g, by simpa using hrest, .space hc hg⟩
  | case4 c rest => exact ⟨[], rfl, .nil⟩
  | case5 c rest hc ih =>
    obtain ⟨g, hrest, hg⟩ := ih
    exact ⟨[], c :: g, by simpa using hrest, List.forall_mem_nil _, hc,
      .space (isSpace_of_isNewline hc) hg⟩
  | case6 c rest hc ih =>
    obtain ⟨text, g, hrest, htext, hend, hg⟩ := ih
    refine ⟨c :: text, g, by simpa using hrest, ?_, hend, hg⟩
    exact List.forall_mem_cons.2 ⟨Bool.eq_false_iff.2 hc, htext⟩
  | case7 start rest ih =>
    obtain ⟨g, hrest, hg⟩ := ih
    exact .inr ⟨[], g, by simpa using hrest, by simp, hg⟩
  | case8 start c rest hopen ih =>
    rcases ih with hstart | ⟨text, g, hrest, htext, hg⟩
    · exact .inl hstart
    · refine .inr ⟨c :: text, g, by simpa using hrest, ?_, hg⟩
      intro hinfix
      rcases List.infix_cons_iff.1 hinfix with hbegins | hinfix
      · obtain ⟨rfl, t, rfl⟩ := List.cons_prefix_cons.1 hbegins
        exact hopen _ rfl hrest
      · exact htext hinfix
  | case9 start => exact .inl rfl
  | case10 gap hgap =>
    cases gap with
    | plain => exact ⟨[], rfl, .nil⟩
    | line => exact ⟨[], [], rfl, List.forall_mem_nil _, rfl, .nil⟩
    | block start => exact absurd rfl (hgap start)

/-- Only blanks are skipped. -/
theorem exists_blanks (s : List Char) : ∃ g, s = g ++ skip s ∧ Blanks (skip s).isEmpty g :=
  passed_skipFrom .plain s

theorem exists_blanks_of_skip_eq {s t : List Char} (h : skip s = t) (ht : t ≠ []) :
    ∃ g, s = g ++ t ∧ Blanks false g := by
  obtain ⟨g, hs, hg⟩ := exists_blanks s
  rw [h] at hs hg
  rw [List.isEmpty_eq_false_iff.2 ht] at hg
  exact ⟨g, hs, hg⟩

theorem blanks_true_iff {g : List Char} : Blanks true g ↔ skip g = [] := by
  constructor
  · intro h
    have hskip := skip_append h (fun _ => rfl)
    rwa [List.append_nil] at hskip
  · intro h
    obtain ⟨g', hg, hblanks⟩ := exists_blanks g
    rw [h, List.append_nil] at hg
    rw [h] at hblanks
    exact hg ▸ hblanks

/-- Blanks between tokens are what is skipped before a token. -/
theorem blanks_false_iff {g : List Char} : Blanks false g ↔ skip (g ++ [';']) = [';'] := by
  constructor
  · intro h
    exact skip_append_of_solid h rfl
  · intro h
    obtain ⟨g', hg, hblanks⟩ := exists_blanks (g ++ [';'])
    rw [h] at hg hblanks
    exact List.append_cancel_right hg ▸ hblanks

instance (atEnd : Bool) (g : List Char) : Decidable (Blanks atEnd g) :=
  match atEnd with
  | true => decidable_of_iff _ blanks_true_iff.symm
  | false => decidable_of_iff _ blanks_false_iff.symm

instance (g : List Char) : Decidable (Separates g) :=
  inferInstanceAs (Decidable (Blanks false g ∧ g ≠ []))

theorem skip_skip (s : List Char) : skip (skip s) = skip s := by
  obtain ⟨g, hs, hg⟩ := exists_blanks s
  rw [← skip_append hg List.isEmpty_iff.1, ← hs]

theorem length_skip_le (s : List Char) : (skip s).length ≤ s.length := by
  obtain ⟨g, hs, -⟩ := exists_blanks s
  have hlength := congrArg List.length hs
  rw [List.length_append] at hlength
  omega

/-! ## Words -/

/-- No word goes on at the beginning of the text. -/
def WordEnds (s : List Char) : Prop := ∀ c ∈ s.head?, isWordChar c = false

theorem wordEnds_cons {c : Char} {s : List Char} (hc : isWordChar c = false) :
    WordEnds (c :: s) := by
  intro d hd
  obtain rfl : c = d := Option.some.inj hd
  exact hc

theorem Blanks.wordEnds {atEnd : Bool} {g r : List Char} (h : Blanks atEnd g) (hr : WordEnds r) :
    WordEnds (g ++ r) := by
  cases h with
  | nil => exact hr
  | space hc _ => exact wordEnds_cons (isWordChar_of_isSpace hc)
  | line _ _ _ => exact wordEnds_cons (by decide)
  | block _ _ => exact wordEnds_cons (by decide)

theorem Separates.wordEnds {g : List Char} (h : Separates g) (r : List Char) :
    WordEnds (g ++ r) := by
  have hg := h.1.wordEnds (r := []) nofun
  rw [List.append_nil] at hg
  rwa [WordEnds, List.head?_append_of_ne_nil _ h.2]

/-- Between the end of a word and the next word there are blanks. -/
theorem separates_of_wordEnds {g r : List Char} {c : Char} (hg : Blanks false g)
    (h : WordEnds (g ++ c :: r)) (hc : isWordChar c = true) : Separates g := by
  refine ⟨hg, ?_⟩
  rintro rfl
  rw [h c rfl] at hc
  cases hc

/-- A run of characters of one class is cut off where the class ends. -/
theorem span_append {p : Char → Bool} {w r : List Char} (hw : ∀ c ∈ w, p c = true)
    (hr : ∀ c ∈ r.head?, p c = false) : (w ++ r).takeWhile p = w ∧ (w ++ r).dropWhile p = r := by
  have hrest : r.takeWhile p = [] ∧ r.dropWhile p = r := by
    cases r with
    | nil => exact ⟨rfl, rfl⟩
    | cons c r => simp [hr c rfl]
  rw [List.takeWhile_append_of_pos hw, List.dropWhile_append_of_pos hw, hrest.1, hrest.2,
    List.append_nil]
  exact ⟨rfl, rfl⟩

theorem eq_false_of_mem_head?_dropWhile (p : Char → Bool) (s : List Char) :
    ∀ c ∈ (s.dropWhile p).head?, p c = false := by
  intro c hc
  have h := List.head?_dropWhile_not p s
  rw [Option.mem_def.1 hc] at h
  simpa using h

theorem wordEnds_dropWhile (s : List Char) : WordEnds (s.dropWhile isWordChar) :=
  eq_false_of_mem_head?_dropWhile isWordChar s

theorem word_eq_some_iff {words : List String} {s r : List Char} {w : String}
    (hwords : ∀ w ∈ words, isIdentifier w = true) :
    word words s = some (w, r) ↔ w ∈ words ∧ s = w.toList ++ r ∧ WordEnds r := by
  rw [word]
  constructor
  · intro h
    split at h
    · rename_i hmem
      obtain ⟨rfl, rfl⟩ := Prod.mk.inj (Option.some.inj h)
      refine ⟨hmem, ?_, wordEnds_dropWhile s⟩
      rw [String.toList_ofList, List.takeWhile_append_dropWhile]
    · cases h
  · rintro ⟨hmem, rfl, hr⟩
    obtain ⟨htake, hdrop⟩ := span_append (isWordChar_of_isIdentifier (hwords w hmem)) hr
    simp only [htake, hdrop, String.ofList_toList, if_pos hmem]

theorem ident_eq_some_iff {s r : List Char} {name : String} :
    ident s = some (name, r) ↔ isIdentifier name = true ∧ s = name.toList ++ r ∧ WordEnds r := by
  constructor
  · intro h
    cases s with
    | nil => cases h
    | cons c s =>
      rw [ident] at h
      split at h
      · rename_i hc
        obtain ⟨rfl, rfl⟩ := Prod.mk.inj (Option.some.inj h)
        have hword := isWordChar_of_isWordStart hc
        refine ⟨isIdentifier_iff.2 ⟨c, s.takeWhile isWordChar, ?_, hc, fun d hd => ?_⟩, ?_,
          wordEnds_dropWhile _⟩
        · rw [String.toList_ofList, List.takeWhile_cons_of_pos hword]
        · exact List.all_eq_true.1 List.all_takeWhile d hd
        · rw [String.toList_ofList, List.takeWhile_append_dropWhile]
      · cases h
  · rintro ⟨hname, rfl, hr⟩
    obtain ⟨c, rest, hlist, hc, -⟩ := isIdentifier_iff.1 hname
    obtain ⟨htake, hdrop⟩ := span_append (isWordChar_of_isIdentifier hname) hr
    rw [hlist, List.cons_append] at htake hdrop ⊢
    rw [ident, if_pos hc, htake, hdrop, ← hlist, String.ofList_toList]

/-! ## Blocks -/

/-- Text in which each opening brace is closed, and no closing brace stands alone. -/
inductive Balanced : List Char → Prop where
  | nil : Balanced []
  | char {c : Char} {s : List Char} (hopen : c ≠ '\x7b') (hclose : c ≠ '\x7d') (h : Balanced s) :
      Balanced (c :: s)
  | braces {inner s : List Char} (hinner : Balanced inner) (h : Balanced s) :
      Balanced ('\x7b' :: (inner ++ '\x7d' :: s))

theorem blockUpTo_of_items {fuel : Nat} {s r : List Char} (h : itemsUpTo fuel s = '\x7d' :: r) :
    blockUpTo (fuel + 1) ('\x7b' :: s) = some r := by
  rw [blockUpTo, h]
  rfl

theorem itemsUpTo_balanced {b : List Char} (h : Balanced b) {fuel : Nat}
    (hfuel : 2 * b.length ≤ fuel) (r : List Char) :
    itemsUpTo fuel (b ++ '\x7d' :: r) = '\x7d' :: r := by
  induction h generalizing fuel r with
  | nil => cases fuel <;> simp [itemsUpTo]
  | @char c s hopen hclose _ ih =>
    rw [List.length_cons] at hfuel
    obtain ⟨fuel, rfl⟩ : ∃ k, fuel = k + 1 := ⟨fuel - 1, by omega⟩
    rw [List.cons_append, itemsUpTo, if_neg hopen, if_neg hclose]
    exact ih (by omega) r
  | @braces inner s _ _ ihinner ih =>
    rw [List.length_cons, List.length_append, List.length_cons] at hfuel
    obtain ⟨fuel, rfl⟩ : ∃ k, fuel = k + 1 + 1 := ⟨fuel - 2, by omega⟩
    have hblock := blockUpTo_of_items (@ihinner fuel (by omega) (s ++ '\x7d' :: r))
    rw [List.cons_append, List.append_assoc, List.cons_append, itemsUpTo, if_pos rfl, hblock]
    exact ih (by omega) r

/-- What the scans take, with any number of steps, is balanced. -/
theorem balanced_upTo (fuel : Nat) (s : List Char) :
    (∀ r, blockUpTo fuel s = some r →
        ∃ inner, Balanced inner ∧ s = '\x7b' :: (inner ++ '\x7d' :: r)) ∧
      ∃ b, Balanced b ∧ s = b ++ itemsUpTo fuel s := by
  induction fuel generalizing s with
  | zero => exact ⟨fun r h => by simp [blockUpTo] at h, [], .nil, by simp [itemsUpTo]⟩
  | succ fuel ih =>
    constructor
    · intro r h
      unfold blockUpTo at h
      split at h
      · rename_i fuel' rest hfuel
        obtain rfl := Nat.succ.inj hfuel
        obtain ⟨inner, hinner, hrest⟩ := (ih rest).2
        split at h
        · rename_i hitems
          obtain rfl := Option.some.inj h
          exact ⟨inner, hinner, by rw [← hitems, ← hrest]⟩
        · cases h
      · cases h
    · cases s with
      | nil => exact ⟨[], .nil, by simp [itemsUpTo]⟩
      | cons c rest =>
        rw [itemsUpTo]
        split
        · rename_i hc
          subst hc
          cases hblock : blockUpTo fuel ('\x7b' :: rest) with
          | none => exact ⟨[], .nil, rfl⟩
          | some rest' =>
            obtain ⟨inner, hinner, hrest⟩ := (ih _).1 rest' hblock
            obtain ⟨b, hb, hrest'⟩ := (ih rest').2
            refine ⟨'\x7b' :: (inner ++ '\x7d' :: b), .braces hinner hb, ?_⟩
            rw [hrest]
            simpa using hrest'
        · rename_i hopen
          split
          · exact ⟨[], .nil, rfl⟩
          · rename_i hclose
            obtain ⟨b, hb, hrest⟩ := (ih rest).2
            exact ⟨c :: b, .char hopen hclose hb, by rw [List.cons_append, ← hrest]⟩

/-- A block is balanced text in braces. -/
theorem block_eq_some_iff {s r : List Char} :
    block s = some ((), r) ↔ ∃ inner, Balanced inner ∧ s = '\x7b' :: (inner ++ '\x7d' :: r) := by
  rw [block, Option.map_eq_some_iff]
  constructor
  · rintro ⟨rest, h, heq⟩
    obtain rfl := (Prod.mk.inj heq).2
    exact (balanced_upTo _ s).1 rest h
  · rintro ⟨inner, hinner, rfl⟩
    refine ⟨r, ?_, rfl⟩
    refine blockUpTo_of_items (itemsUpTo_balanced hinner ?_ r)
    simp only [List.length_cons, List.length_append]
    omega

instance (s : List Char) : Decidable (Balanced s) :=
  decidable_of_iff (block ('\x7b' :: (s ++ ['\x7d'])) = some ((), [])) <| by
    rw [block_eq_some_iff]
    constructor
    · rintro ⟨inner, hinner, h⟩
      exact List.append_cancel_right (List.cons.inj h).2 ▸ hinner
    · intro h
      exact ⟨s, h, rfl⟩

end ShaderNodes.Grammar
