import ShaderNodes.Proofs.Grammar.Parser
import ShaderNodes.Socket

/-!
# Function definitions as they may be written

A definition is written with tokens in a fixed order and blanks around them. `Written` holds the
tokens and the blanks of one way to write it, and `Written.text` puts them together. The rules of
the grammar read such texts and no others, and their pairs hold what was written, with its places.

* `Written.Parameter`, `Written.Item`, `Written`: parameters, their lists, and definitions.
* `Parser.takes_parameter_iff`, `Parser.takes_parameters_iff`: what the rules for parameters take,
  and the pairs they give.
* `Parser.takes_function`, `Parser.exists_written_of_takes_function`: the same for definitions.
-/

namespace ShaderNodes.Grammar

open Text

/-! ## Texts and their parts -/

namespace Written

/-- A parameter and one way to write it. -/
structure Parameter where
  /-- The qualifiers, each with the blanks after it. -/
  qualifiers : List (String × List Char)
  type : SocketType
  /-- The blanks between the type and the name. -/
  gap : List Char
  name : String
  qualified : ∀ q ∈ qualifiers, q.1 ∈ qualifierWords ∧ Separates q.2
  separates : Separates gap
  name_isIdentifier : isIdentifier name = true

namespace Parameter

/-- The parameter without its qualifiers. -/
def typed (p : Parameter) : List Char := p.type.glsl.toList ++ (p.gap ++ p.name.toList)

def text (p : Parameter) : List Char := (p.qualifiers.flatMap fun q => q.1.toList ++ q.2) ++ p.typed

/-- The pairs of qualifiers in front of `after`. -/
def qualifierPairs : List (String × List Char) → List Char → List Pair
  | [], _ => []
  | q :: rest, after =>
    .cover .qualifier q.1.toList (q.2 ++ ((rest.flatMap fun q => q.1.toList ++ q.2) ++ after)) []
      :: qualifierPairs rest after

/-- The pair of the parameter, in front of `after`. -/
def pair (p : Parameter) (after : List Char) : Pair :=
  .cover .parameter p.text after
    (qualifierPairs p.qualifiers (p.typed ++ after) ++
      [.cover .socketType p.type.glsl.toList (p.gap ++ (p.name.toList ++ after)) [],
        .cover .ident p.name.toList after []])

theorem rule_of_mem_qualifierPairs {qualifiers : List (String × List Char)} {after : List Char}
    {q : Pair} (h : q ∈ qualifierPairs qualifiers after) : q.rule = .qualifier := by
  induction qualifiers with
  | nil => cases h
  | cons _ _ ih =>
    rcases List.mem_cons.1 h with rfl | h
    · rfl
    · exact ih h

end Parameter

/-- A parameter in a list, with the blanks around it. -/
structure Item where
  before : List Char
  parameter : Parameter
  after : List Char
  blanks_before : Blanks false before
  blanks_after : Blanks false after

def Item.text (i : Item) : List Char := i.before ++ (i.parameter.text ++ i.after)

/-- The text of the items that follow another one. -/
def tailText (items : List Item) : List Char := items.flatMap fun i => ',' :: i.text

theorem intercalate_text (i : Item) (items : List Item) :
    [','].intercalate ((i :: items).map Item.text) = i.text ++ tailText items := by
  rw [List.map_cons, intercalate_cons_eq_append, List.flatMap_map, tailText]

/-- The pairs of the parameters of a list, in front of `after`. -/
def pairs : List Item → List Char → List Pair
  | [], _ => []
  | i :: rest, after => i.parameter.pair (i.after ++ (tailText rest ++ after)) :: pairs rest after

end Written

/-- A function definition and one way to write it: the tokens, and the blanks between and around
them. -/
structure Written where
  start : List Char
  returnType : SocketType
  afterType : List Char
  name : String
  afterName : List Char
  afterOpen : List Char
  items : List Written.Item
  afterClose : List Char
  /-- What stands between the outer braces. -/
  body : List Char
  ending : List Char
  blanks_start : Blanks false start
  separates : Separates afterType
  name_isIdentifier : isIdentifier name = true
  blanks_afterName : Blanks false afterName
  blanks_afterOpen : Blanks false afterOpen
  blanks_afterClose : Blanks false afterClose
  balanced : Balanced body
  blanks_ending : Blanks true ending

namespace Written

/-- The text after the closing parenthesis. -/
def tail (w : Written) : List Char := w.afterClose ++ '\x7b' :: (w.body ++ '\x7d' :: w.ending)

/-- The text from the name on. -/
def named (w : Written) : List Char :=
  w.name.toList ++ (w.afterName ++ '(' ::
    (w.afterOpen ++ ([','].intercalate (w.items.map Item.text) ++ ')' :: w.tail)))

def text (w : Written) : List Char :=
  w.start ++ (w.returnType.glsl.toList ++ (w.afterType ++ w.named))

/-- The names and types of the parameters. -/
def parameters (w : Written) : List (Name × SocketType) :=
  w.items.map fun i => (i.parameter.name, i.parameter.type)

/-- The pair of the definition around the pair of its parameters. -/
def pair (w : Written) (parameters : Pair) : Pair :=
  .cover .function w.text []
    [.cover .socketType w.returnType.glsl.toList (w.afterType ++ w.named) [],
      .cover .ident w.name.toList (w.afterName ++ '(' ::
        (w.afterOpen ++ ([','].intercalate (w.items.map Item.text) ++ ')' :: w.tail))) [],
      parameters,
      .cover .body ('\x7b' :: (w.body ++ ['\x7d'])) w.ending [],
      .cover .endOfInput [] [] []]

end Written

/-! ## Words -/

/-- A text that begins with a word character. -/
def BeginsWord (s : List Char) : Prop := ∃ c rest, s = c :: rest ∧ isWordChar c = true

theorem beginsWord_append {name : String} (h : isIdentifier name = true) (r : List Char) :
    BeginsWord (name.toList ++ r) := by
  obtain ⟨c, rest, hname, hc, -⟩ := isIdentifier_iff.1 h
  exact ⟨c, rest ++ r, by rw [hname, List.cons_append], isWordChar_of_isWordStart hc⟩

theorem BeginsWord.skip_eq {s : List Char} (h : BeginsWord s) : skip s = s := by
  obtain ⟨c, rest, rfl, hc⟩ := h
  exact skip_of_isWordChar rest hc

theorem BeginsWord.ne_nil {s : List Char} (h : BeginsWord s) : s ≠ [] := by
  obtain ⟨c, rest, rfl, -⟩ := h
  exact List.cons_ne_nil c rest

/-- Before a word that another word ends in front of, there are blanks that keep them apart. -/
theorem BeginsWord.exists_separates {s t : List Char} (ht : BeginsWord t) (h : skip s = t)
    (hs : WordEnds s) : ∃ g, s = g ++ t ∧ Separates g := by
  obtain ⟨g, rfl, hblanks⟩ := exists_blanks_of_skip_eq h ht.ne_nil
  obtain ⟨c, rest, rfl, hc⟩ := ht
  exact ⟨g, rfl, separates_of_wordEnds hblanks hs hc⟩

theorem isIdentifier_qualifierWords : ∀ w ∈ qualifierWords, isIdentifier w = true := by decide

theorem isIdentifier_typeWords : ∀ w ∈ typeWords, isIdentifier w = true := by decide

theorem mem_typeWords_iff {w : String} : w ∈ typeWords ↔ ∃ t : SocketType, w = t.glsl := by
  constructor
  · intro h
    simp only [typeWords, List.mem_cons, List.not_mem_nil, or_false] at h
    rcases h with rfl | rfl | rfl | rfl
    · exact ⟨.float, rfl⟩
    · exact ⟨.vec2, rfl⟩
    · exact ⟨.vec3, rfl⟩
    · exact ⟨.vec4, rfl⟩
  · rintro ⟨t, rfl⟩
    cases t <;> decide

theorem beginsWord_glsl (t : SocketType) (r : List Char) : BeginsWord (t.glsl.toList ++ r) :=
  beginsWord_append (isIdentifier_typeWords _ (mem_typeWords_iff.2 ⟨t, rfl⟩)) r

theorem glsl_not_mem_qualifierWords (t : SocketType) : t.glsl ∉ qualifierWords := by
  cases t <;> decide

/-- Before a word, qualifiers begin with a word too. -/
theorem beginsWord_qualifiers {r : List Char} {qualifiers : List (String × List Char)}
    (h : ∀ q ∈ qualifiers, q.1 ∈ qualifierWords ∧ Separates q.2) (hr : BeginsWord r) :
    BeginsWord ((qualifiers.flatMap fun q => q.1.toList ++ q.2) ++ r) := by
  cases qualifiers with
  | nil => exact hr
  | cons q qualifiers =>
    rw [List.flatMap_cons, List.append_assoc, List.append_assoc]
    exact beginsWord_append (isIdentifier_qualifierWords _ (h q (.head _)).1) _

/-- A parameter begins with a word. -/
theorem Written.Parameter.beginsWord (p : Parameter) (r : List Char) :
    BeginsWord (p.text ++ r) := by
  rw [text, List.append_assoc]
  refine beginsWord_qualifiers p.qualified ?_
  rw [typed, List.append_assoc]
  exact beginsWord_glsl _ _

/-! ## Rules for words -/

namespace Parser

variable {s r : List Char}

theorem takes_ident_iff {name : String} :
    ident.Takes s name r ↔ isIdentifier name = true ∧ s = name.toList ++ r ∧ WordEnds r := by
  rw [ident, takes_rule_iff, takes_token_iff, ident_eq_some_iff]

theorem takes_qualifier_iff {w : String} :
    qualifier.Takes s w r ↔ w ∈ qualifierWords ∧ s = w.toList ++ r ∧ WordEnds r := by
  rw [qualifier, takes_rule_iff, takes_token_iff, word_eq_some_iff isIdentifier_qualifierWords]

theorem takes_socketType_iff {w : String} :
    socketType.Takes s w r ↔ ∃ t : SocketType, w = t.glsl ∧ s = t.glsl.toList ++ r ∧
    WordEnds r := by
  rw [socketType, takes_rule_iff, takes_token_iff, word_eq_some_iff isIdentifier_typeWords,
    mem_typeWords_iff]
  constructor
  · rintro ⟨⟨t, rfl⟩, hs, hr⟩
    exact ⟨t, rfl, hs, hr⟩
  · rintro ⟨t, rfl, hs, hr⟩
    exact ⟨⟨t, rfl⟩, hs, hr⟩

theorem takes_leaf_ident_iff {l : List Pair} :
    (leaf .ident ident).Takes s l r ↔ ∃ name : String, isIdentifier name = true ∧
      s = name.toList ++ r ∧ WordEnds r ∧ l = [.cover .ident name.toList r []] := by
  simp only [takes_leaf_word_iff (fun _ h => (takes_ident_iff.1 h).2.1), takes_ident_iff, and_assoc]

theorem takes_leaf_qualifier_iff {l : List Pair} :
    (leaf .qualifier qualifier).Takes s l r ↔ ∃ w ∈ qualifierWords, s = w.toList ++ r ∧ WordEnds r ∧
      l = [.cover .qualifier w.toList r []] := by
  simp only [takes_leaf_word_iff (fun _ h => (takes_qualifier_iff.1 h).2.1), takes_qualifier_iff,
    and_assoc]

theorem takes_leaf_socketType_iff {l : List Pair} :
    (leaf .socketType socketType).Takes s l r ↔ ∃ t : SocketType, s = t.glsl.toList ++ r ∧
      WordEnds r ∧ l = [.cover .socketType t.glsl.toList r []] := by
  have htext : ∀ w, socketType.Takes s w r → s = w.toList ++ r := by
    intro w h
    obtain ⟨t, rfl, hs, -⟩ := takes_socketType_iff.1 h
    exact hs
  rw [takes_leaf_word_iff htext]
  constructor
  · rintro ⟨w, h, rfl⟩
    obtain ⟨t, rfl, hs, hr⟩ := takes_socketType_iff.1 h
    exact ⟨t, hs, hr, rfl⟩
  · rintro ⟨t, hs, hr, rfl⟩
    exact ⟨t.glsl, takes_socketType_iff.2 ⟨t, rfl, hs, hr⟩, rfl⟩

theorem progresses_qualifier : (leaf .qualifier qualifier).Progresses := by
  intro s l r h
  obtain ⟨w, hmem, rfl, -, -⟩ := takes_leaf_qualifier_iff.1 h
  obtain ⟨c, rest, hw, -⟩ := isIdentifier_iff.1 (isIdentifier_qualifierWords w hmem)
  rw [hw, List.length_append, List.length_cons]
  omega

/-- No qualifier begins where a type does. -/
theorem parsed_qualifier_glsl (t : SocketType) (hr : WordEnds r) :
    (leaf .qualifier qualifier (t.glsl.toList ++ r)).parsed = none := by
  refine parsed_eq_none_iff.2 fun l r' h => ?_
  obtain ⟨w, hmem, heq, hr', -⟩ := takes_leaf_qualifier_iff.1 h
  have hw := isWordChar_of_isIdentifier (isIdentifier_qualifierWords w hmem)
  have ht := isWordChar_of_isIdentifier (isIdentifier_typeWords _ (mem_typeWords_iff.2 ⟨t, rfl⟩))
  -- Both are the longest word at this place.
  have hsame : w.toList = t.glsl.toList := by
    rw [← (span_append hw hr').1, ← (span_append ht hr).1, heq]
  rw [String.toList_inj.1 hsame] at hmem
  exact absurd hmem (glsl_not_mem_qualifierWords t)

/-- A type and a name, and what is read after them. -/
theorem takes_typed_iff {α : Type} {f : List Pair → List Pair → Parser α} {a : α} :
    (do
        let type ← leaf .socketType socketType
        blanks
        let name ← leaf .ident ident
        f type name : Parser α).Takes s a r ↔
      ∃ (t : SocketType) (gap : List Char) (name : String) (s' : List Char), Separates gap ∧
        isIdentifier name = true ∧ s = t.glsl.toList ++ (gap ++ (name.toList ++ s')) ∧
        WordEnds s' ∧
        (f [.cover .socketType t.glsl.toList (gap ++ (name.toList ++ s')) []]
          [.cover .ident name.toList s' []]).Takes s' a r := by
  constructor
  · intro h
    obtain ⟨type, s₁, htype, h⟩ := takes_bind_iff.1 h
    obtain ⟨_, s₂, hblanks, h⟩ := takes_bind_iff.1 h
    obtain ⟨name, s₃, hname, h⟩ := takes_bind_iff.1 h
    obtain rfl := takes_blanks_iff.1 hblanks
    obtain ⟨t, rfl, hends, rfl⟩ := takes_leaf_socketType_iff.1 htype
    obtain ⟨name, hident, hs₁, hends', rfl⟩ := takes_leaf_ident_iff.1 hname
    obtain ⟨gap, rfl, hseparates⟩ := (beginsWord_append hident s₃).exists_separates hs₁ hends
    exact ⟨t, gap, name, s₃, hseparates, hident, rfl, hends', h⟩
  · rintro ⟨t, gap, name, s', hseparates, hident, rfl, hends, h⟩
    have hskip : skip (gap ++ (name.toList ++ s')) = name.toList ++ s' :=
      skip_append_of_solid hseparates.1 (beginsWord_append hident s').skip_eq
    refine takes_bind_iff.2 ⟨_, _,
      takes_leaf_socketType_iff.2 ⟨t, rfl, hseparates.wordEnds _, rfl⟩, ?_⟩
    refine takes_bind_iff.2 ⟨(), _, takes_blanks_iff.2 hskip.symm, ?_⟩
    exact takes_bind_iff.2 ⟨_, s', takes_leaf_ident_iff.2 ⟨name, hident, rfl, hends, rfl⟩, h⟩

/-! ## Parameters -/

/-- Qualifiers, each with the blanks after it, up to a word that is none. -/
theorem repeats_qualifier_iff (hr : BeginsWord r) {l : List Pair} :
    Repeats (leaf .qualifier qualifier) s l r ↔ ∃ qualifiers : List (String × List Char),
      (∀ q ∈ qualifiers, q.1 ∈ qualifierWords ∧ Separates q.2) ∧
        s = (qualifiers.flatMap fun q => q.1.toList ++ q.2) ++ r ∧
        l = Written.Parameter.qualifierPairs qualifiers r := by
  constructor
  · intro h
    induction h with
    | nil => exact ⟨[], List.forall_mem_nil _, rfl, rfl⟩
    | @cons s s' r first l hw _ ih =>
      obtain ⟨w, hmem, rfl, hends, rfl⟩ := takes_leaf_qualifier_iff.1 hw
      obtain ⟨qualifiers, hqualifiers, hs', rfl⟩ := ih hr
      obtain ⟨g, rfl, hseparates⟩ :=
        (beginsWord_qualifiers hqualifiers hr).exists_separates hs' hends
      refine ⟨(w, g) :: qualifiers, List.forall_mem_cons.2 ⟨⟨hmem, hseparates⟩, hqualifiers⟩, ?_,
        rfl⟩
      rw [List.flatMap_cons, List.append_assoc, List.append_assoc]
  · rintro ⟨qualifiers, hqualifiers, rfl, rfl⟩
    induction qualifiers with
    | nil => exact .nil
    | cons q qualifiers ih =>
      obtain ⟨⟨hmem, hseparates⟩, hrest⟩ := List.forall_mem_cons.1 hqualifiers
      have hnext := beginsWord_qualifiers hrest hr
      rw [List.flatMap_cons, List.append_assoc, List.append_assoc]
      have hfirst := takes_leaf_qualifier_iff.2 ⟨q.1, hmem, rfl, hseparates.wordEnds
        ((qualifiers.flatMap fun q => q.1.toList ++ q.2) ++ r), rfl⟩
      refine .cons hfirst ?_
      rw [skip_append_of_solid hseparates.1 hnext.skip_eq]
      exact ih hrest

theorem takes_parameter_iff (hs : skip s = s) {l : List Pair} :
    parameter.Takes s l r ↔
      ∃ p : Written.Parameter, s = p.text ++ r ∧ WordEnds r ∧ l = [p.pair r] := by
  constructor
  · intro h
    obtain ⟨inner, hinner, rfl⟩ := takes_compound_iff.1 h
    obtain ⟨qualified, s₁, hspaced, hinner⟩ := takes_bind_iff.1 hinner
    obtain ⟨_, s₂, hblanks, hinner⟩ := takes_bind_iff.1 hinner
    obtain ⟨t, gap, name, s₃, hseparates, hident, hs₂, hr, hinner⟩ := takes_typed_iff.1 hinner
    obtain ⟨rfl, rfl⟩ := takes_pure_iff.1 hinner
    obtain rfl := takes_blanks_iff.1 hblanks
    obtain ⟨hrepeats, -⟩ := (takes_spaced_iff progresses_qualifier hs).1 ⟨s₁, hspaced, rfl⟩
    rw [hs₂] at hrepeats
    obtain ⟨qualifiers, hqualifiers, hs, rfl⟩ :=
      (repeats_qualifier_iff (beginsWord_glsl t _)).1 hrepeats
    let p : Written.Parameter := ⟨qualifiers, t, gap, name, hqualifiers, hseparates, hident⟩
    have htext : s = p.text ++ r := by
      rw [hs, Written.Parameter.text, Written.Parameter.typed]
      simp only [List.append_assoc, p]
    refine ⟨p, htext, hr, ?_⟩
    subst htext
    rw [Pair.mk_eq_cover]
    simp only [Written.Parameter.pair, Written.Parameter.typed, List.append_assoc, List.cons_append,
      List.nil_append, p]
  · rintro ⟨p, rfl, hr, rfl⟩
    have hgap := p.separates.wordEnds (p.name.toList ++ r)
    have htyped : p.typed ++ r = p.type.glsl.toList ++ (p.gap ++ (p.name.toList ++ r)) := by
      simp only [Written.Parameter.typed, List.append_assoc]
    have htext : p.text ++ r =
        (p.qualifiers.flatMap fun q => q.1.toList ++ q.2) ++ (p.typed ++ r) := List.append_assoc ..
    have hbegins : BeginsWord (p.typed ++ r) := htyped ▸ beginsWord_glsl p.type _
    have hrepeats := (repeats_qualifier_iff hbegins).2 ⟨_, p.qualified, htext, rfl⟩
    obtain ⟨s', hspaced, hs'⟩ := (takes_spaced_iff progresses_qualifier hs).2
      ⟨hrepeats, htyped ▸ parsed_qualifier_glsl p.type hgap⟩
    refine takes_compound_append_iff.2 ⟨_, ?_, rfl⟩
    refine takes_bind_iff.2 ⟨_, s', hspaced, ?_⟩
    refine takes_bind_iff.2 ⟨(), _, takes_blanks_iff.2 hs'.symm, ?_⟩
    exact takes_typed_iff.2 ⟨p.type, p.gap, p.name, r, p.separates, p.name_isIdentifier, htyped, hr,
      takes_pure_iff.2 ⟨rfl, rfl⟩⟩

/-! ## Lists of parameters -/

/-- A comma and a parameter. -/
def furtherParameter : Parser (List Pair) := do
  char ','
  blanks
  parameter

theorem takes_furtherParameter_iff {l : List Pair} :
    furtherParameter.Takes s l r ↔ ∃ g, ∃ p : Written.Parameter, Blanks false g ∧
      s = ',' :: (g ++ (p.text ++ r)) ∧ WordEnds r ∧ l = [p.pair r] := by
  rw [furtherParameter, takes_bind_iff]
  constructor
  · rintro ⟨_, s₁, hchar, h⟩
    obtain ⟨_, s₂, hblanks, h⟩ := takes_bind_iff.1 h
    obtain rfl := takes_char_iff.1 hchar
    obtain rfl := takes_blanks_iff.1 hblanks
    obtain ⟨p, hp, hr, rfl⟩ := (takes_parameter_iff (skip_skip s₁)).1 h
    obtain ⟨g, rfl, hg⟩ := exists_blanks_of_skip_eq hp (p.beginsWord r).ne_nil
    exact ⟨g, p, hg, rfl, hr, rfl⟩
  · rintro ⟨g, p, hg, rfl, hr, rfl⟩
    have hp := (p.beginsWord r).skip_eq
    exact ⟨(), _, takes_char_iff.2 rfl, takes_bind_iff.2 ⟨(), _,
      takes_blanks_iff.2 (skip_append_of_solid hg hp).symm,
      (takes_parameter_iff hp).2 ⟨p, rfl, hr, rfl⟩⟩⟩

theorem progresses_furtherParameter : furtherParameter.Progresses := by
  intro s l r h
  obtain ⟨g, p, -, rfl, -, -⟩ := takes_furtherParameter_iff.1 h
  simp only [List.length_cons, List.length_append]
  omega

variable {after : List Char}

/-- After one parameter come others, each with a comma before it, or the closing parenthesis. -/
theorem solid_tailText (after : List Char) (items : List Written.Item) :
    ∃ c rest, Written.tailText items ++ ')' :: after = c :: rest ∧ (c = ',' ∨ c = ')') := by
  cases items with
  | nil => exact ⟨')', after, rfl, .inr rfl⟩
  | cons i items => exact ⟨',', _, rfl, .inl rfl⟩

theorem skip_tailText (items : List Written.Item) :
    skip (Written.tailText items ++ ')' :: after) = Written.tailText items ++ ')' :: after := by
  obtain ⟨c, rest, heq, hc⟩ := solid_tailText after items
  rw [heq]
  rcases hc with rfl | rfl <;> exact skip_of_solid rest (by decide) (by decide)

theorem wordEnds_tailText (items : List Written.Item) :
    WordEnds (Written.tailText items ++ ')' :: after) := by
  obtain ⟨c, rest, heq, hc⟩ := solid_tailText after items
  rw [heq]
  rcases hc with rfl | rfl <;> exact wordEnds_cons (by decide)

theorem repeats_furtherParameter_iff {l : List Pair} :
    Repeats furtherParameter s l (')' :: after) ↔ ∃ items : List Written.Item,
      s = Written.tailText items ++ ')' :: after ∧ l = Written.pairs items (')' :: after) := by
  constructor
  · intro h
    generalize hr : ')' :: after = r at h
    induction h with
    | nil => exact ⟨[], rfl, rfl⟩
    | @cons s s' r first l hfirst _ ih =>
      subst hr
      obtain ⟨g, p, hg, rfl, -, rfl⟩ := takes_furtherParameter_iff.1 hfirst
      obtain ⟨items, hs', rfl⟩ := ih rfl
      obtain ⟨g', rfl, hblanks⟩ := exists_blanks_of_skip_eq hs' (by simp)
      refine ⟨⟨g, p, g', hg, hblanks⟩ :: items, ?_, rfl⟩
      simp only [Written.tailText, List.flatMap_cons, Written.Item.text, List.cons_append,
        List.append_assoc]
  · rintro ⟨items, rfl, rfl⟩
    induction items with
    | nil => exact .nil
    | cons i items ih =>
      have htext : Written.tailText (i :: items) ++ ')' :: after = ',' :: (i.before ++
          (i.parameter.text ++ (i.after ++ (Written.tailText items ++ ')' :: after)))) := by
        simp only [Written.tailText, List.flatMap_cons, Written.Item.text, List.cons_append,
          List.append_assoc]
      rw [htext]
      have hends : WordEnds (i.after ++ (Written.tailText items ++ ')' :: after)) :=
        i.blanks_after.wordEnds (wordEnds_tailText items)
      have hfirst := takes_furtherParameter_iff.2 ⟨i.before, i.parameter, i.blanks_before, rfl,
        hends, rfl⟩
      refine .cons hfirst ?_
      rwa [skip_append_of_solid i.blanks_after (skip_tailText items)]

/-- A parameter, and more of them after commas. -/
theorem takes_first_parameter_iff {l : List Pair} (hs : skip s = s) :
    (∃ r, (do
        let first ← parameter
        blanks
        let more ← spaced furtherParameter
        pure (first ++ more) : Parser (List Pair)).Takes s l r ∧ skip r = ')' :: after) ↔
      ∃ i : Written.Item, ∃ items, i.before = [] ∧
        s = i.text ++ (Written.tailText items ++ ')' :: after) ∧
        l = Written.pairs (i :: items) (')' :: after) := by
  constructor
  · rintro ⟨r, h, hr⟩
    obtain ⟨first, s₁, hparameter, h⟩ := takes_bind_iff.1 h
    obtain ⟨_, s₂, hblanks, h⟩ := takes_bind_iff.1 h
    obtain ⟨more, s₃, hmore, h⟩ := takes_bind_iff.1 h
    obtain ⟨rfl, rfl⟩ := takes_pure_iff.1 h
    obtain rfl := takes_blanks_iff.1 hblanks
    obtain ⟨p, rfl, -, rfl⟩ := (takes_parameter_iff hs).1 hparameter
    obtain ⟨hrepeats, -⟩ :=
      (takes_spaced_iff progresses_furtherParameter (skip_skip s₁)).1 ⟨r, hmore, hr⟩
    obtain ⟨items, hs₁, rfl⟩ := repeats_furtherParameter_iff.1 hrepeats
    obtain ⟨g, rfl, hg⟩ := exists_blanks_of_skip_eq hs₁ (by simp)
    refine ⟨⟨[], p, g, .nil, hg⟩, items, rfl, ?_, rfl⟩
    rw [Written.Item.text, List.nil_append, List.append_assoc]
  · rintro ⟨i, items, hbefore, rfl, rfl⟩
    have htext : i.text ++ (Written.tailText items ++ ')' :: after) =
        i.parameter.text ++ (i.after ++ (Written.tailText items ++ ')' :: after)) := by
      rw [Written.Item.text, hbefore, List.nil_append, List.append_assoc]
    have hnone : (furtherParameter (')' :: after)).parsed = none := by
      refine parsed_eq_none_iff.2 fun l r h => ?_
      obtain ⟨g, p, -, heq, -, -⟩ := takes_furtherParameter_iff.1 h
      cases heq
    obtain ⟨r, hmore, hr⟩ := (takes_spaced_iff progresses_furtherParameter (skip_tailText items)).2
      ⟨repeats_furtherParameter_iff.2 ⟨items, rfl, rfl⟩, hnone⟩
    have hends : WordEnds (i.after ++ (Written.tailText items ++ ')' :: after)) :=
      i.blanks_after.wordEnds (wordEnds_tailText items)
    refine ⟨r, takes_bind_iff.2 ⟨_, _, (takes_parameter_iff hs).2 ⟨i.parameter, htext, hends, rfl⟩,
      takes_bind_iff.2 ⟨(), _, takes_blanks_iff.2 rfl, ?_⟩⟩, hr⟩
    rw [skip_append_of_solid i.blanks_after (skip_tailText items)]
    exact takes_bind_iff.2 ⟨_, r, hmore, takes_pure_iff.2 ⟨rfl, rfl⟩⟩

/-- No parameter begins at a closing parenthesis. -/
theorem parsed_parameter_close : (parameter (')' :: after)).parsed = none := by
  have hs : skip (')' :: after) = ')' :: after := skip_of_solid after (by decide) (by decide)
  refine parsed_eq_none_iff.2 fun l r h => ?_
  obtain ⟨p, hp, -⟩ := (takes_parameter_iff hs).1 h
  obtain ⟨c, rest, hc, hword⟩ := p.beginsWord r
  obtain ⟨rfl, -⟩ := List.cons.inj (hp.trans hc)
  exact absurd hword (by decide)

/-- Parameters and the blanks around them, up to the closing parenthesis. -/
theorem takes_parameters_iff {l : List Pair} :
    (∃ pair r, parameters.Takes (skip s) [pair] r ∧ skip r = ')' :: after ∧ pair.inner = l) ↔
      ∃ g, ∃ items : List Written.Item, Blanks false g ∧
        s = g ++ ([','].intercalate (items.map Written.Item.text) ++ ')' :: after) ∧
        l = Written.pairs items (')' :: after) := by
  simp only [parameters, takes_compound_iff, takes_bind_iff]
  constructor
  · rintro ⟨pair, r, ⟨inner, ⟨found, s', hfound, h⟩, hpair⟩, hr, rfl⟩
    obtain ⟨rfl, rfl⟩ := takes_pure_iff.1 h
    obtain ⟨rfl, -⟩ := List.cons.inj hpair
    rcases takes_optional_iff.1 hfound with ⟨found, rfl, htakes⟩ | ⟨rfl, rfl, -⟩
    · obtain ⟨i, items, hbefore, hs, rfl⟩ :=
        (takes_first_parameter_iff (skip_skip s)).1 ⟨r, htakes, hr⟩
      obtain ⟨g, hg, hblanks⟩ := exists_blanks_of_skip_eq hs (by simp)
      exact ⟨g, i :: items, hblanks, by rw [hg, Written.intercalate_text, List.append_assoc], rfl⟩
    · rw [skip_skip] at hr
      obtain ⟨g, hg, hblanks⟩ := exists_blanks_of_skip_eq hr (List.cons_ne_nil _ _)
      exact ⟨g, [], hblanks, hg, rfl⟩
  · rintro ⟨g, items, hg, rfl, rfl⟩
    cases items with
    | nil =>
      have hskip : skip (g ++ ([','].intercalate (([] : List Written.Item).map Written.Item.text) ++
          ')' :: after)) = ')' :: after := skip_append_of_solid hg (skip_tailText [])
      rw [hskip]
      refine ⟨_, ')' :: after, ⟨_, ⟨none, _, takes_optional_iff.2 (.inr ⟨rfl, rfl, ?_⟩), rfl⟩, rfl⟩,
        skip_tailText [], rfl⟩
      rw [parsed_bind, parsed_parameter_close, Option.bind_none]
    | cons i items =>
      have hsolid :=
        (i.parameter.beginsWord (i.after ++ (Written.tailText items ++ ')' :: after))).skip_eq
      have hskip :
          skip (g ++ ([','].intercalate ((i :: items).map Written.Item.text) ++ ')' :: after)) =
          i.parameter.text ++ (i.after ++ (Written.tailText items ++ ')' :: after)) := by
        rw [skip_append hg nofun, Written.intercalate_text, Written.Item.text, List.append_assoc,
          List.append_assoc, List.append_assoc, skip_append_of_solid i.blanks_before hsolid]
      obtain ⟨r, htakes, hr⟩ := (takes_first_parameter_iff hsolid).2
        ⟨⟨[], i.parameter, i.after, .nil, i.blanks_after⟩, items, rfl,
          by rw [Written.Item.text, List.nil_append, List.append_assoc], rfl⟩
      rw [hskip]
      exact ⟨_, r,
        ⟨_, ⟨_, r, takes_optional_iff.2 (.inl ⟨_, rfl, htakes⟩), takes_pure_iff.2 ⟨rfl, rfl⟩⟩,
        rfl⟩, hr, rfl⟩

/-! ## Definitions -/

theorem takes_body_iff {u : Unit} :
    body.Takes s u r ↔ ∃ inner, Balanced inner ∧ s = '\x7b' :: (inner ++ '\x7d' :: r) := by
  rw [body, takes_rule_iff, takes_token_iff, block_eq_some_iff]

theorem takes_leaf_body_iff {l : List Pair} :
    (leaf .body body).Takes s l r ↔ ∃ inner, Balanced inner ∧ s = '\x7b' :: (inner ++ '\x7d' :: r) ∧
      l = [.cover .body ('\x7b' :: (inner ++ ['\x7d'])) r []] := by
  have happend : ∀ inner, '\x7b' :: (inner ++ '\x7d' :: r) =
      '\x7b' :: (inner ++ ['\x7d']) ++ r := by simp
  constructor
  · intro h
    obtain ⟨⟨u, hbody⟩, -⟩ := takes_leaf_iff.1 h
    obtain ⟨inner, hinner, rfl⟩ := takes_body_iff.1 hbody
    rw [happend] at h
    exact ⟨inner, hinner, rfl, (takes_leaf_append_iff.1 h).2⟩
  · rintro ⟨inner, hinner, rfl, rfl⟩
    rw [happend]
    exact takes_leaf_append_iff.2 ⟨⟨(), takes_body_iff.2 ⟨inner, hinner, (happend inner).symm⟩⟩,
      rfl⟩

theorem takes_leaf_endOfInput_iff {l : List Pair} :
    (leaf .endOfInput endOfInput).Takes s l r ↔ s = [] ∧ r = [] ∧
    l = [.cover .endOfInput [] [] []] := by
  simp only [takes_leaf_iff, takes_endOfInput_iff, exists_const, and_assoc]
  constructor
  · rintro ⟨rfl, rfl, rfl⟩
    exact ⟨rfl, rfl, rfl⟩
  · rintro ⟨rfl, rfl, rfl⟩
    exact ⟨rfl, rfl, rfl⟩

/-- From the closing parenthesis on: blanks, the body, blanks. -/
theorem takes_tail_iff {α : Type} {f : List Pair → List Pair → α} {a : α} :
    (do
        char ')'
        blanks
        let body ← leaf .body body
        blanks
        let ending ← leaf .endOfInput endOfInput
        pure (f body ending) : Parser α).Takes s a r ↔
      r = [] ∧ ∃ g inner ending, Blanks false g ∧ Balanced inner ∧ Blanks true ending ∧
        s = ')' :: (g ++ '\x7b' :: (inner ++ '\x7d' :: ending)) ∧
        a = f [.cover .body ('\x7b' :: (inner ++ ['\x7d'])) ending []]
          [.cover .endOfInput [] [] []] := by
  simp only [takes_bind_iff, takes_pure_iff, takes_char_iff, takes_blanks_iff, takes_leaf_body_iff,
    takes_leaf_endOfInput_iff]
  constructor
  · rintro ⟨_, s₁, rfl, _, s₂, rfl, _, s₃, ⟨inner, hinner, hs₁, rfl⟩, _, s₄, rfl, _, s₅,
      ⟨hs₃, rfl, rfl⟩, rfl, rfl⟩
    obtain ⟨g, rfl, hblanks⟩ := exists_blanks_of_skip_eq hs₁ (List.cons_ne_nil _ _)
    exact ⟨rfl, g, inner, s₃, hblanks, hinner, blanks_true_iff.2 hs₃, rfl, rfl⟩
  · rintro ⟨rfl, g, inner, ending, hg, hinner, hending, rfl, rfl⟩
    have hskip : skip (g ++ '\x7b' :: (inner ++ '\x7d' :: ending)) =
        '\x7b' :: (inner ++ '\x7d' :: ending) :=
      skip_append_of_solid hg (skip_of_solid _ (by decide) (by decide))
    have hskip' : skip ending = [] := blanks_true_iff.1 hending
    exact ⟨(), _, rfl, (), _, hskip.symm, _, _, ⟨inner, hinner, rfl, rfl⟩, (), _, hskip'.symm, _,
      [], ⟨rfl, rfl, rfl⟩, rfl, rfl⟩

/-- What the rule for definitions takes is written as a definition. -/
theorem exists_written_of_takes_function {l : List Pair} (h : function.Takes s l r) :
    ∃ w : Written, s = w.text := by
  obtain ⟨inner, h, -⟩ := takes_compound_iff.1 h
  obtain ⟨_, _, hblanks, h⟩ := takes_bind_iff.1 h
  obtain ⟨t, g₁, name, s₃, hseparates, hident, hs, -, h⟩ := takes_typed_iff.1 h
  obtain ⟨_, s₄, hblanks₃, h⟩ := takes_bind_iff.1 h
  obtain ⟨_, s₅, hopen, h⟩ := takes_bind_iff.1 h
  obtain ⟨_, s₆, hblanks₅, h⟩ := takes_bind_iff.1 h
  obtain ⟨parameters, s₇, hparameters, h⟩ := takes_bind_iff.1 h
  obtain ⟨_, s₈, hblanks₇, h⟩ := takes_bind_iff.1 h
  obtain rfl := takes_blanks_iff.1 hblanks
  obtain rfl := takes_blanks_iff.1 hblanks₃
  obtain rfl := takes_blanks_iff.1 hblanks₅
  obtain rfl := takes_blanks_iff.1 hblanks₇
  have hs₃ := takes_char_iff.1 hopen
  obtain ⟨-, g₇, body, ending, hg₇, hbody, hending, hs₇, -⟩ := takes_tail_iff.1 h
  obtain ⟨_, -, rfl⟩ := takes_compound_iff.1 hparameters
  obtain ⟨g₅, items, hg₅, rfl, -⟩ := takes_parameters_iff.1 ⟨_, s₇, hparameters, hs₇, rfl⟩
  obtain ⟨g, hs, hg⟩ := exists_blanks_of_skip_eq hs (beginsWord_glsl t _).ne_nil
  obtain ⟨g₃, rfl, hg₃⟩ := exists_blanks_of_skip_eq hs₃ (List.cons_ne_nil _ _)
  exact ⟨⟨g, t, g₁, name, g₃, g₅, items, g₇, body, ending, hg, hseparates, hident, hg₃, hg₅, hg₇,
    hbody, hending⟩, hs⟩

/-- The rule for definitions takes the whole of a written one, and gives all of its pairs. -/
theorem takes_function (w : Written) :
    ∃ parameters : Pair, parameters.inner = Written.pairs w.items (')' :: w.tail) ∧
      function.Takes w.text [w.pair parameters] [] := by
  have hskip : skip w.text = w.returnType.glsl.toList ++ (w.afterType ++ w.named) :=
    skip_append_of_solid w.blanks_start (beginsWord_glsl _ _).skip_eq
  have hskip₃ := skip_append_of_solid w.blanks_afterName
    (skip_of_solid (w.afterOpen ++ ([','].intercalate (w.items.map Written.Item.text) ++ ')' ::
      w.tail)) (c := '(') (by decide) (by decide))
  have hends := w.blanks_afterName.wordEnds (wordEnds_cons (s := w.afterOpen ++
    ([','].intercalate (w.items.map Written.Item.text) ++ ')' :: w.tail)) (c := '(') (by decide))
  obtain ⟨parameters, r, hparameters, hr, hinner⟩ :=
    takes_parameters_iff.2 ⟨_, w.items, w.blanks_afterOpen, rfl, rfl⟩
  refine ⟨parameters, hinner, ?_⟩
  refine takes_compound_nil_iff.2 ⟨_, ?_, rfl⟩
  refine takes_bind_iff.2 ⟨(), _, takes_blanks_iff.2 hskip.symm, ?_⟩
  refine takes_typed_iff.2 ⟨w.returnType, w.afterType, w.name, _, w.separates, w.name_isIdentifier,
    rfl, hends, ?_⟩
  refine takes_bind_iff.2 ⟨(), _, takes_blanks_iff.2 hskip₃.symm, ?_⟩
  refine takes_bind_iff.2 ⟨(), _, takes_char_iff.2 rfl, ?_⟩
  refine takes_bind_iff.2 ⟨(), _, takes_blanks_iff.2 rfl, ?_⟩
  refine takes_bind_iff.2 ⟨_, r, hparameters, ?_⟩
  refine takes_bind_iff.2 ⟨(), _, takes_blanks_iff.2 hr.symm, ?_⟩
  exact takes_tail_iff.2 ⟨rfl, w.afterClose, w.body, w.ending, w.blanks_afterClose, w.balanced,
    w.blanks_ending, rfl, rfl⟩

end Parser

end ShaderNodes.Grammar
