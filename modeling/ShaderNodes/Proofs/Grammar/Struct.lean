import ShaderNodes.Proofs.Grammar.Signature

/-!
# Structs in a text

The code that the library brings along declares structs in its texts. `readStruct` reads the one
that a text begins with.

* `Parser.takes_field_iff`: what a field is.
* `readStruct_eq_some`: a struct with its fields on lines of their own is read as it was written.
-/

namespace ShaderNodes.Grammar

open Text

namespace Parser

/-- A field of a struct: its name and the word for its type. -/
def field : Parser (Name × String) := do
  blanks
  let type ← token (word typeWords)
  blanks
  let name ← ident
  blanks
  char ';'
  pure (name, type)

/-- A struct with its name and its fields. -/
def struct : Parser (String × List (Name × String)) := do
  let _ ← token (word ["struct"])
  blanks
  let name ← ident
  blanks
  char '\x7b'
  let fields ← many field
  blanks
  char '\x7d'
  blanks
  char ';'
  pure (name, fields)

end Parser

/-- The struct that a text begins with: its name, and the names and types of its fields in order. -/
def readStruct (source : String) : Option (String × List (Name × SocketType)) := do
  let ((name, fields), _) ← (Parser.struct source.toList).parsed
  let fields ← fields.mapM fun f => (SocketType.ofGlsl? f.2).map (f.1, ·)
  pure (name, fields)

namespace Parser

variable {s r : List Char}

/-- A field is a type, a name and a semicolon, with blanks before each of them. -/
theorem takes_field_iff {e : Name × String} :
    field.Takes s e r ↔ ∃ g, ∃ t : SocketType, ∃ g' name g'', Blanks false g ∧ Separates g' ∧
      isIdentifier name = true ∧ Blanks false g'' ∧ e = (name, t.glsl) ∧
      s = g ++ (t.glsl.toList ++ (g' ++ (name.toList ++ (g'' ++ ';' :: r)))) := by
  rw [field]
  constructor
  · intro h
    obtain ⟨_, _, hblanks, h⟩ := takes_bind_iff.1 h
    obtain ⟨type, s₁, htype, h⟩ := takes_bind_iff.1 h
    obtain ⟨_, s₂, hblanks₁, h⟩ := takes_bind_iff.1 h
    obtain ⟨name, s₃, hname, h⟩ := takes_bind_iff.1 h
    obtain ⟨_, s₄, hblanks₃, h⟩ := takes_bind_iff.1 h
    obtain ⟨_, s₅, hchar, h⟩ := takes_bind_iff.1 h
    obtain ⟨rfl, rfl⟩ := takes_pure_iff.1 h
    obtain rfl := takes_blanks_iff.1 hblanks
    obtain rfl := takes_blanks_iff.1 hblanks₁
    obtain rfl := takes_blanks_iff.1 hblanks₃
    rw [takes_token_iff, word_eq_some_iff isIdentifier_typeWords, mem_typeWords_iff] at htype
    obtain ⟨⟨t, rfl⟩, hs, hs₁⟩ := htype
    obtain ⟨hident, hs₁', -⟩ := takes_ident_iff.1 hname
    have hs₃ := takes_char_iff.1 hchar
    obtain ⟨g, hg, hblanks⟩ := exists_blanks_of_skip_eq hs (beginsWord_glsl t _).ne_nil
    obtain ⟨g', rfl, hseparates⟩ := (beginsWord_append hident s₃).exists_separates hs₁' hs₁
    obtain ⟨g'', rfl, hblanks''⟩ := exists_blanks_of_skip_eq hs₃ (List.cons_ne_nil _ _)
    exact ⟨g, t, g', name, g'', hblanks, hseparates, hident, hblanks'', rfl, hg⟩
  · rintro ⟨g, t, g', name, g'', hg, hg', hident, hg'', rfl, rfl⟩
    have hskip := skip_append_of_solid hg
      (beginsWord_glsl t (g' ++ (name.toList ++ (g'' ++ ';' :: r)))).skip_eq
    have hskip₁ := skip_append_of_solid hg'.1 (beginsWord_append hident (g'' ++ ';' :: r)).skip_eq
    have hskip₃ := skip_append_of_solid hg'' (skip_of_solid r (c := ';') (by decide) (by decide))
    have hends : WordEnds (g'' ++ ';' :: r) := hg''.wordEnds (wordEnds_cons (by decide))
    refine takes_bind_iff.2 ⟨(), _, takes_blanks_iff.2 hskip.symm, ?_⟩
    refine takes_bind_iff.2 ⟨_, _, takes_token_iff.2 ((word_eq_some_iff isIdentifier_typeWords).2
      ⟨mem_typeWords_iff.2 ⟨t, rfl⟩, rfl, hg'.wordEnds _⟩), ?_⟩
    refine takes_bind_iff.2 ⟨(), _, takes_blanks_iff.2 hskip₁.symm, ?_⟩
    refine takes_bind_iff.2 ⟨_, _, takes_ident_iff.2 ⟨hident, rfl, hends⟩, ?_⟩
    refine takes_bind_iff.2 ⟨(), _, takes_blanks_iff.2 hskip₃.symm, ?_⟩
    refine takes_bind_iff.2 ⟨(), _, takes_char_iff.2 rfl, ?_⟩
    exact takes_pure_iff.2 ⟨rfl, rfl⟩

theorem progresses_field : field.Progresses := by
  intro s e r h
  obtain ⟨g, t, g', name, g'', -, -, -, -, -, rfl⟩ := takes_field_iff.1 h
  simp only [List.length_append, List.length_cons]
  omega

/-- No field begins at a closing brace. -/
theorem parsed_field_close : (field ('\n' :: '\x7d' :: r)).parsed = none := by
  refine parsed_eq_none_iff.2 fun e r' h => ?_
  obtain ⟨g, t, g', name, g'', hg, -, -, -, -, heq⟩ := takes_field_iff.1 h
  have hword := beginsWord_glsl t (g' ++ (name.toList ++ (g'' ++ ';' :: r')))
  have hskip := congrArg skip heq
  rw [skip_space (by decide), skip_of_solid r (by decide) (by decide),
    skip_append_of_solid hg hword.skip_eq] at hskip
  obtain ⟨c, rest, hc, hwordChar⟩ := hword
  obtain ⟨rfl, -⟩ := List.cons.inj (hskip.trans hc)
  exact absurd hwordChar (by decide)

end Parser

/-- Fields on lines of their own. -/
def fieldLines (fields : List (Name × SocketType)) : List Char :=
  fields.flatMap fun f => '\t' :: (f.2.glsl.toList ++ ' ' :: (f.1.toList ++ [';', '\n']))

theorem Parser.reads_field_lines {fields : List (Name × SocketType)}
    (hfields : ∀ f ∈ fields, isIdentifier f.1 = true) (r : List Char) :
    Reads field ('\n' :: (fieldLines fields ++ r)) (fields.map fun f => (f.1, f.2.glsl))
      ('\n' :: r) := by
  induction fields with
  | nil => exact .nil
  | cons f fields ih =>
    obtain ⟨hf, hrest⟩ := List.forall_mem_cons.1 hfields
    refine .cons (takes_field_iff.2 ⟨['\n', '\t'], f.2, [' '], f.1, [], ?_, ?_, hf, .nil, rfl, ?_⟩)
      (ih hrest)
    · decide
    · decide
    · simp [fieldLines]

theorem Parser.takes_struct {name : String} {fields : List (Name × SocketType)}
    (hname : isIdentifier name = true) (hfields : ∀ f ∈ fields, isIdentifier f.1 = true)
    (r : List Char) :
      struct.Takes ("struct".toList ++ ' ' :: (name.toList ++ ' ' :: '\x7b' :: '\n' ::
      (fieldLines fields ++ '\x7d' :: ';' :: r))) (name, fields.map fun f =>
        (f.1, f.2.glsl)) r := by
  have hword : ∀ w ∈ ["struct"], isIdentifier w = true := by decide
  have hskip : ∀ s, skip (' ' :: (name.toList ++ s)) = name.toList ++ s := fun s => by
    rw [skip_space (by decide), (beginsWord_append hname s).skip_eq]
  refine takes_bind_iff.2 ⟨_, _, takes_token_iff.2 ((word_eq_some_iff hword).2
    ⟨.head _, rfl, wordEnds_cons (by decide)⟩), ?_⟩
  refine takes_bind_iff.2 ⟨(), _, takes_blanks_iff.2 (hskip _).symm, ?_⟩
  refine takes_bind_iff.2 ⟨_, _, takes_ident_iff.2 ⟨hname, rfl, wordEnds_cons (by decide)⟩, ?_⟩
  refine takes_bind_iff.2 ⟨(), _, takes_blanks_iff.2 rfl, ?_⟩
  refine takes_bind_iff.2 ⟨(), _, takes_char_iff.2 rfl, ?_⟩
  refine takes_bind_iff.2 ⟨_, _, (takes_many_iff progresses_field).2
    ⟨reads_field_lines hfields _, parsed_field_close⟩, ?_⟩
  refine takes_bind_iff.2 ⟨(), _, takes_blanks_iff.2 rfl, ?_⟩
  refine takes_bind_iff.2 ⟨(), _, takes_char_iff.2 rfl, ?_⟩
  refine takes_bind_iff.2 ⟨(), _, takes_blanks_iff.2 rfl, ?_⟩
  refine takes_bind_iff.2 ⟨(), _, takes_char_iff.2 rfl, ?_⟩
  exact takes_pure_iff.2 ⟨rfl, rfl⟩

/-- A struct with its fields on lines of their own is read, whatever comes after it. -/
theorem readStruct_eq_some {name source : String} {fields : List (Name × SocketType)}
    {r : List Char} (hname : isIdentifier name = true)
    (hfields : ∀ f ∈ fields, isIdentifier f.1 = true)
      (hsource : source.toList = "struct".toList ++ ' ' :: (name.toList ++ ' ' :: '\x7b' :: '\n' ::
      (fieldLines fields ++ '\x7d' :: ';' :: r))) :
    readStruct source = some (name, fields) := by
  have htakes : (Parser.struct source.toList).parsed =
      some ((name, fields.map fun f => (f.1, f.2.glsl)), r) := by
    rw [hsource]
    exact Parser.takes_struct hname hfields r
  have htypes : (fields.map fun f => (f.1, f.2.glsl)).mapM
      (fun f => (SocketType.ofGlsl? f.2).map (f.1, ·)) = some fields := by
    clear hfields hsource htakes
    induction fields with
    | nil => rfl
    | cons f fields ih =>
      rw [List.map_cons, List.mapM_cons, SocketType.ofGlsl?_glsl, ih]
      rfl
  simp only [readStruct, htakes, htypes, Option.bind_eq_bind, Option.bind_some, Option.pure_def]

end ShaderNodes.Grammar
