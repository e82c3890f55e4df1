import Mathlib.Data.List.DropRight
import Mathlib.Data.List.Nodup
import ShaderNodes.Definition
import ShaderNodes.Proofs.Grammar.Signature

/-!
# Reading definitions

A text is read as a definition if and only if it is one way to write it, with parameters of
different names. If a name is repeated, the error is about the first parameter whose name came
before. The blanks around the text do not matter, so the text that is kept reads as the same
definition.

* `Written.FirstRepeat`: the first parameter that has the name of an earlier one.
* `Definition.parse_eq_ok_iff`, `Definition.parse_iff_written`: the texts that are read, and as
  what.
* `Definition.parse_eq_error_iff`, `Definition.parse_error_iff`: the texts that are refused, and
  where.
* `Definition.parse_source`, `Definition.parse_append_newline`: a definition is read again from its
  own text, with or without a line break after it.
-/

namespace ShaderNodes

open Grammar Text

/-! ## Repeated names -/

/-- If some keys in a list are the same, there is a first one that came before. -/
theorem exists_first_repeat {α β : Type} (key : α → β) {l : List α} (h : ¬ (l.map key).Nodup) :
    ∃ before a after, l = before ++ a :: after ∧ (before.map key).Nodup ∧
    key a ∈ before.map key := by
  induction l using List.reverseRecOn with
  | nil => exact absurd List.nodup_nil h
  | append_singleton l a ih =>
    by_cases hl : (l.map key).Nodup
    · refine ⟨l, a, [], rfl, hl, by_contra fun ha => h ?_⟩
      rw [List.map_append]
      exact hl.append (List.nodup_singleton _) (List.disjoint_singleton.2 ha)
    · obtain ⟨before, b, after, rfl, hnodup, hmem⟩ := ih hl
      exact ⟨before, b, after ++ [a], by simp, hnodup, hmem⟩

namespace Grammar.Written

/-- The parameter of `i` is the first one that has the name of an earlier one. -/
structure FirstRepeat (w : Written) (before : List Item) (i : Item) (rest : List Item) : Prop where
  items_eq : w.items = before ++ i :: rest
  nodup : (before.map (·.parameter.name)).Nodup
  name_mem : i.parameter.name ∈ before.map (·.parameter.name)

theorem exists_firstRepeat {w : Written} (h : ¬ (w.parameters.map (·.1)).Nodup) :
    ∃ before i rest, w.FirstRepeat before i rest := by
  rw [parameters, List.map_map] at h
  obtain ⟨before, i, rest, hitems, hnodup, hmem⟩ := exists_first_repeat _ h
  exact ⟨before, i, rest, hitems, hnodup, hmem⟩

theorem intercalate_text_append (before : List Item) (i : Item) (rest : List Item) :
    [','].intercalate ((before ++ i :: rest).map Item.text) =
      (before.flatMap fun j => j.text ++ [',']) ++ (i.text ++ tailText rest) := by
  induction before with
  | nil => exact intercalate_text i rest
  | cons j before ih =>
    have hne : (before ++ i :: rest).map Item.text ≠ [] := by simp
    rw [List.cons_append, List.map_cons, List.intercalate_cons_of_ne_nil hne, ih, List.flatMap_cons]
    simp only [List.append_assoc]

/-- The text in front of the parameter of `i`, which comes after the items `before`. -/
def upTo (w : Written) (before : List Item) (i : Item) : List Char :=
  w.start ++ (w.returnType.glsl.toList ++ (w.afterType ++ (w.name.toList ++ (w.afterName ++ '(' ::
    (w.afterOpen ++ ((before.flatMap fun j => j.text ++ [',']) ++ i.before))))))

theorem text_eq_upTo {w : Written} {before rest : List Item} {i : Item}
    (h : w.items = before ++ i :: rest) :
    w.text =
      w.upTo before i ++ (i.parameter.text ++ (i.after ++ (tailText rest ++ ')' :: w.tail))) := by
  simp only [text, named, h, intercalate_text_append, upTo, Item.text, List.append_assoc,
    List.cons_append]

end Grammar.Written

namespace Definition

/-! ## Signatures -/

theorem readType_cover (text : List Char) (part : Part) (t : SocketType) (after : List Char) :
    readType text part (.cover .socketType t.glsl.toList after []) = .ok t := by
  simp only [readType, Pair.text_cover, SocketType.ofGlsl?_glsl]

section Parameters

variable (text after : List Char) (earlier : List (Name × SocketType))

/-- Without its qualifiers, the pair of a parameter holds those of the type and the name. -/
theorem filter_inner_pair (p : Written.Parameter) :
    (p.pair after).inner.filter (·.rule ≠ .qualifier) =
      [.cover .socketType p.type.glsl.toList (p.gap ++ (p.name.toList ++ after)) [],
        .cover .ident p.name.toList after []] := by
  have hqualifiers : (Written.Parameter.qualifierPairs p.qualifiers (p.typed ++ after)).filter
      (·.rule ≠ .qualifier) = [] := by
    rw [List.filter_eq_nil_iff]
    intro q hq
    simp [Written.Parameter.rule_of_mem_qualifierPairs hq]
  rw [Written.Parameter.pair, Pair.inner_cover, List.filter_append, hqualifiers]
  rfl

/-- A parameter is refused if its name came before. Its pairs are always there, and its type is
known. -/
theorem readParameters_cons (i : Written.Item) (items : List Written.Item) :
    readParameters text earlier (Written.pairs (i :: items) after) =
      if i.parameter.name ∈ earlier.map (·.1) then
        .error ⟨.fault (.redefinition i.parameter.name) .parameters,
          .ofExtent text (i.parameter.pair (i.after ++ (Written.tailText items ++ after))).extent⟩
      else
        readParameters text (earlier ++ [(i.parameter.name, i.parameter.type)])
          (Written.pairs items after) := by
  have hany : earlier.any (·.1 == i.parameter.name) = true ↔
      i.parameter.name ∈ earlier.map (·.1) := by
    simp
  rw [Written.pairs, readParameters]
  simp only [filter_inner_pair, readType_cover, Pair.text_cover, hany]

/-- Parameters are read if their names differ from each other and from those before them. -/
theorem readParameters_append (before rest : List Written.Item)
    (h : ((earlier ++ before.map fun i => (i.parameter.name, i.parameter.type)).map (·.1)).Nodup) :
    readParameters text earlier (Written.pairs (before ++ rest) after) =
      readParameters text (earlier ++ before.map fun i => (i.parameter.name, i.parameter.type))
        (Written.pairs rest after) := by
  induction before generalizing earlier with
  | nil => rw [List.map_nil, List.append_nil, List.nil_append]
  | cons i before ih =>
    rw [List.map_cons, List.append_cons] at h ⊢
    have hnew : i.parameter.name ∉ earlier.map (·.1) := by
      intro hmem
      rw [List.append_assoc, List.map_append] at h
      exact (List.nodup_append.1 h).2.2 _ hmem _ (.head _) rfl
    rw [List.cons_append, readParameters_cons, if_neg hnew, ih _ h]

end Parameters

/-! ## Definitions -/

section Written

variable {source : String} {w : Written} (hw : source.toList = w.text)

include hw

/-- Of a text that is written, only the parameters are left to check. -/
theorem parse_eq_of_written :
    parse source = (readParameters source.toList [] (Written.pairs w.items (')' :: w.tail))).map
      fun parameters => ⟨w.returnType, w.name, parameters, trim source⟩ := by
  obtain ⟨parameters, hinner, htakes⟩ := Parser.takes_function w
  have hpairs : Parser.function.parse source.toList = .ok [w.pair parameters] :=
    Parser.parse_eq_ok_iff.2 ⟨[], hw ▸ htakes⟩
  simp only [parse, hpairs, Written.pair, Pair.inner_cover, Pair.text_cover, readType_cover, hinner,
    bind, Except.bind]
  rfl

theorem parse_of_nodup (h : (w.parameters.map (·.1)).Nodup) :
    parse source = .ok ⟨w.returnType, w.name, w.parameters, trim source⟩ := by
  have hread := readParameters_append source.toList (')' :: w.tail) [] w.items [] h
  rw [List.append_nil] at hread
  rw [parse_eq_of_written hw, hread]
  rfl

/-- A repeated name is refused where its parameter is written. -/
theorem parse_of_firstRepeat {before rest : List Written.Item} {i : Written.Item}
    (h : w.FirstRepeat before i rest) :
    parse source = .error ⟨.fault (.redefinition i.parameter.name) .parameters,
      .span (.after (w.upTo before i)) (.after (w.upTo before i ++ i.parameter.text))⟩ := by
  have hplace := Location.ofExtent_append (w.upTo before i) i.parameter.text
    (i.after ++ (Written.tailText rest ++ ')' :: w.tail))
  rw [← Written.text_eq_upTo h.items_eq, ← hw] at hplace
  let entries : List (Name × SocketType) := before.map fun i => (i.parameter.name, i.parameter.type)
  have hentries : entries.map (·.1) = before.map (·.parameter.name) := List.map_map
  have hread := readParameters_append source.toList (')' :: w.tail) [] before (i :: rest)
    (hentries ▸ h.nodup)
  have hrefused := readParameters_cons source.toList (')' :: w.tail) entries i rest
  rw [if_pos (hentries ▸ h.name_mem)] at hrefused
  rw [parse_eq_of_written hw, h.items_eq, hread, List.nil_append, hrefused, ← hplace]
  rfl

/-- The definition read from a text that is written. -/
theorem parse_of_written {f : Definition} :
    parse source = .ok f ↔ (w.parameters.map (·.1)).Nodup ∧
      f = ⟨w.returnType, w.name, w.parameters, trim source⟩ := by
  by_cases hnodup : (w.parameters.map (·.1)).Nodup
  · rw [parse_of_nodup hw hnodup, Except.ok.injEq, eq_comm]
    exact (and_iff_right hnodup).symm
  · obtain ⟨before, i, rest, hrepeat⟩ := Written.exists_firstRepeat hnodup
    rw [parse_of_firstRepeat hw hrepeat]
    constructor
    · intro h
      cases h
    · intro h
      exact absurd h.1 hnodup

theorem parse_eq_error_iff {e : Grammar.Error} :
    parse source = .error e ↔ ∃ before i rest, w.FirstRepeat before i rest ∧
      e = ⟨.fault (.redefinition i.parameter.name) .parameters,
        .span (.after (w.upTo before i)) (.after (w.upTo before i ++ i.parameter.text))⟩ := by
  constructor
  · intro h
    by_cases hnodup : (w.parameters.map (·.1)).Nodup
    · rw [parse_of_nodup hw hnodup] at h
      cases h
    · obtain ⟨before, i, rest, hrepeat⟩ := Written.exists_firstRepeat hnodup
      rw [parse_of_firstRepeat hw hrepeat] at h
      exact ⟨before, i, rest, hrepeat, (Except.error.inj h).symm⟩
  · rintro ⟨before, i, rest, hrepeat, rfl⟩
    exact parse_of_firstRepeat hw hrepeat

end Written

theorem parse_of_not_written {source : String} (h : ¬ ∃ w : Written, source.toList = w.text) :
    ∃ e, parse source = .error e ∧ e.IsMismatch := by
  cases hpairs : Parser.function.parse source.toList with
  | error e => exact ⟨e, by rw [parse, hpairs]; rfl, Parser.isMismatch_of_parse hpairs⟩
  | ok pairs =>
    obtain ⟨r, htakes⟩ := Parser.parse_eq_ok_iff.1 hpairs
    exact absurd (Parser.exists_written_of_takes_function htakes) h

theorem parse_eq_ok_iff {source : String} {f : Definition} :
    parse source = .ok f ↔ ∃ w : Written, source.toList = w.text ∧ (w.parameters.map (·.1)).Nodup ∧
      f = ⟨w.returnType, w.name, w.parameters, trim source⟩ := by
  constructor
  · intro h
    by_cases hwritten : ∃ w : Written, source.toList = w.text
    · obtain ⟨w, hw⟩ := hwritten
      exact ⟨w, hw, (parse_of_written hw).1 h⟩
    · obtain ⟨e, he, -⟩ := parse_of_not_written hwritten
      rw [he] at h
      cases h
  · rintro ⟨w, hw, h⟩
    exact (parse_of_written hw).2 h

/-- A text is a definition if and only if it is written as one, with parameters of different names,
and what is read is what was written. So each signature is read back from each way to write it. -/
theorem parse_iff_written :
    (∀ source f, parse source = .ok f ↔
      ∃ w : Written, source.toList = w.text ∧ (w.parameters.map (·.1)).Nodup ∧
        f = ⟨w.returnType, w.name, w.parameters, trim source⟩) ∧
    ∀ w : Written, (w.parameters.map (·.1)).Nodup →
      parse (String.ofList w.text) =
        .ok ⟨w.returnType, w.name, w.parameters, trim (String.ofList w.text)⟩ :=
  ⟨fun _ _ => parse_eq_ok_iff, fun w hw => parse_eq_ok_iff.2 ⟨w, String.toList_ofList, hw, rfl⟩⟩

/-- A layout with comments and qualifiers, and with keywords as names. -/
def scattered : Written where
  start := "// result\n".toList
  returnType := .vec3
  afterType := "/* ( */".toList
  name := "vec2"
  afterName := []
  afterOpen := " ".toList
  items :=
    [⟨[], ⟨[("const", "\n".toList), ("highp", "/**/".toList)], .vec3, "\t".toList, "const",
        by decide, by decide, by decide⟩, [], by decide, by decide⟩,
      ⟨" ".toList, ⟨[], .float, "//,\r".toList, "in", by decide, by decide, by decide⟩, " ".toList,
        by decide, by decide⟩]
  afterClose := []
  body := "\x7b\x7d".toList
  ending := " // end".toList
  blanks_start := by decide
  separates := by decide
  name_isIdentifier := by decide
  blanks_afterName := by decide
  blanks_afterOpen := by decide
  blanks_afterClose := by decide
  balanced := by decide
  blanks_ending := by decide

theorem parse_iff_written_scattered :
    (scattered.parameters.map (·.1)).Nodup ∧
      parse "// result\nvec3/* ( */vec2( const\nhighp/**/vec3\tconst, float//,\rin )\x7b\x7b\x7d\x7d // end" =
        .ok ⟨.vec3, "vec2", [("const", .vec3), ("in", .float)],
          "// result\nvec3/* ( */vec2( const\nhighp/**/vec3\tconst, float//,\rin )\x7b\x7b\x7d\x7d // end"⟩ := by
  have hnodup : (scattered.parameters.map (·.1)).Nodup := by decide
  exact ⟨hnodup, parse_iff_written.2 scattered hnodup⟩

/-- A text is refused for its form if and only if it is not written as a definition. If it is, it is
refused if and only if two parameters have the same name, and the error is about the first one whose
name came before, from its first qualifier, or its type, to the end of its name. No text that is
written as a definition lacks a pair that is read, or gives a type that is not known. -/
theorem parse_error_iff (source : String) :
    ((∃ e, parse source = .error e ∧ e.IsMismatch) ↔ ¬ ∃ w : Written, source.toList = w.text) ∧
      (∀ w : Written, source.toList = w.text →
        ((∃ e, parse source = .error e) ↔ ¬ (w.parameters.map (·.1)).Nodup) ∧
          ∀ e, parse source = .error e ↔ ∃ before i rest, w.FirstRepeat before i rest ∧
            e = ⟨.fault (.redefinition i.parameter.name) .parameters,
              .span (.after (w.upTo before i)) (.after (w.upTo before i ++ i.parameter.text))⟩) ∧
      ∀ reason part place, parse source ≠ .error ⟨.fault (.malformed reason) part, place⟩ := by
  refine ⟨⟨?_, parse_of_not_written⟩, fun w hw => ⟨⟨?_, ?_⟩, fun e => parse_eq_error_iff hw⟩, ?_⟩
  · rintro ⟨e, he, hmismatch⟩ ⟨w, hw⟩
    obtain ⟨before, i, rest, -, hfault⟩ := (parse_eq_error_iff hw).1 he
    exact hmismatch.ne_fault hfault
  · rintro ⟨e, he⟩ hnodup
    rw [parse_of_nodup hw hnodup] at he
    cases he
  · intro hnodup
    obtain ⟨before, i, rest, hrepeat⟩ := Written.exists_firstRepeat hnodup
    exact ⟨_, parse_of_firstRepeat hw hrepeat⟩
  · intro reason part place h
    by_cases hwritten : ∃ w : Written, source.toList = w.text
    · obtain ⟨w, hw⟩ := hwritten
      obtain ⟨before, i, rest, -, hfault⟩ := (parse_eq_error_iff hw).1 h
      cases hfault
    · obtain ⟨e, he, hmismatch⟩ := parse_of_not_written hwritten
      exact hmismatch.ne_fault (Except.error.inj (he.symm.trans h))

/-- A parameter with a qualifier, on a line of its own. -/
def laterConst : Written.Item :=
  ⟨"\n ".toList,
    ⟨[("in", " ".toList)], .vec2, " ".toList, "const", by decide, by decide, by decide⟩, [],
    by decide, by decide⟩

/-- The same layout with a third parameter, which has the name of the first one. -/
def repeating : Written := { scattered with items := scattered.items ++ [laterConst] }

theorem parse_error_iff_repeating :
    repeating.FirstRepeat scattered.items laterConst [] ∧
      parse ("// result\nvec3/* ( */vec2( const\nhighp/**/vec3\tconst, float//,\rin ,\n in vec2 const)"
          ++ "\x7b\x7b\x7d\x7d // end") =
        .error ⟨.fault (.redefinition "const") .parameters, .span ⟨4, 2⟩ ⟨4, 15⟩⟩ := by
  have hrepeat : repeating.FirstRepeat scattered.items laterConst [] := ⟨rfl, by decide, by decide⟩
  exact ⟨hrepeat, (((parse_error_iff _).2.1 repeating (by decide)).2 _).2 ⟨_, _, _,
    hrepeat, by decide⟩⟩

end Definition

/-! ## Blanks around the text -/

theorem Text.dropBlankEnd_eq (l : List Char) : dropBlankEnd l = l.rdropWhile isBlank := rfl

theorem Text.dropBlankEnd_dropBlankEnd (l : List Char) :
    dropBlankEnd (dropBlankEnd l) = dropBlankEnd l :=
  List.rdropWhile_idempotent isBlank l

theorem Text.dropBlankEnd_append_cons (l e : List Char) {c : Char} (hc : isBlank c = false) :
    dropBlankEnd (l ++ c :: e) = l ++ c :: dropBlankEnd e := by
  induction e using List.reverseRecOn with
  | nil => exact List.rdropWhile_concat_neg isBlank l c (by simp [hc])
  | append_singleton e d ih =>
    rw [dropBlankEnd_eq, dropBlankEnd_eq] at ih ⊢
    rw [← List.cons_append, ← List.append_assoc]
    by_cases hd : isBlank d = true
    · rw [List.rdropWhile_concat_pos _ _ _ hd, ih, List.rdropWhile_concat_pos _ _ _ hd]
    · rw [List.rdropWhile_concat_neg _ _ _ hd, List.rdropWhile_concat_neg _ _ _ hd,
        List.append_assoc, List.cons_append]

theorem Text.dropWhile_isBlank_append_cons (l r : List Char) {c : Char} (hc : isBlank c = false) :
    (l ++ c :: r).dropWhile isBlank = l.dropWhile isBlank ++ c :: r := by
  induction l with
  | nil => simp [hc]
  | cons d l ih => by_cases hd : isBlank d = true <;> simp [hd, ih]

/-- Trimming twice is trimming once. -/
theorem Text.trim_trim (s : String) : trim (trim s) = trim s := by
  have hsolid := List.head?_dropWhile_not isBlank s.toList
  rw [trim, trim, String.toList_ofList]
  cases hs : s.toList.dropWhile isBlank with
  | nil => rfl
  | cons c l =>
    have hc : isBlank c = false := by simpa [hs] using hsolid
    have hend (e : List Char) : dropBlankEnd (c :: e) = c :: dropBlankEnd e :=
      dropBlankEnd_append_cons [] e hc
    rw [hend, List.dropWhile_cons_of_neg (by simp [hc]), hend, dropBlankEnd_dropBlankEnd]

theorem Text.trimEnd_trim (s : String) : trimEnd (trim s) = trim s := by
  rw [trimEnd, trim, String.toList_ofList, dropBlankEnd_dropBlankEnd]

/-- A line break at the end does not matter. -/
theorem Text.trim_append_newline (s : String) : trim (s ++ "\n") = trim s := by
  have hblank : isBlank '\n' = true := by decide
  have hlist : (s ++ "\n").toList = s.toList ++ ['\n'] := String.toList_append
  rw [trim, trim, hlist, List.dropWhile_append]
  split
  · rename_i hempty
    rw [List.isEmpty_iff.1 hempty, List.dropWhile_cons_of_pos hblank, List.dropWhile_nil]
  · rw [dropBlankEnd_eq, List.rdropWhile_concat_pos _ _ _ hblank, ← dropBlankEnd_eq]

namespace Grammar

theorem isBlank_of_isSpace {c : Char} (h : isSpace c = true) : isBlank c = true := by
  simp only [isSpace, Bool.or_eq_true, decide_eq_true_eq] at h
  rcases h with ((rfl | rfl) | rfl) | rfl <;> decide

/-- Blanks without those at their start are blanks: a comment stays. -/
theorem Blanks.dropWhile {atEnd : Bool} {g : List Char} (h : Blanks atEnd g) :
    Blanks atEnd (g.dropWhile isBlank) := by
  induction h with
  | nil => exact .nil
  | space hc _ ih => rwa [List.dropWhile_cons_of_pos (isBlank_of_isSpace hc)]
  | line htext hend h _ => exact .line htext hend h
  | block htext h _ => exact .block htext h

/-- The last of two parts that ends a text with one more character is empty or ends with it. -/
theorem concat_eq_append {g l e : List Char} {c : Char} (h : g ++ [c] = l ++ e) :
    e = [] ∧ g ++ [c] = l ∨ ∃ e', e = e' ++ [c] ∧ g = l ++ e' := by
  rcases List.append_eq_append_iff.1 h with ⟨m, hl, hm⟩ | ⟨m, hg, he⟩
  · cases m with
    | nil => exact .inr ⟨[], hm.symm, by rw [hl, List.append_nil, List.append_nil]⟩
    | cons d m =>
      obtain ⟨rfl, hm'⟩ := List.cons.inj hm
      obtain ⟨rfl, rfl⟩ := List.append_eq_nil_iff.1 (Eq.symm hm')
      exact .inl ⟨rfl, hl.symm⟩
  · exact .inr ⟨m, he, hg⟩

/-- A blank can be dropped at the end of a text: the last line comment may lose a part, or the end
of its line. -/
theorem Blanks.of_concat {g : List Char} {c : Char} (hc : isBlank c = true)
    (h : Blanks true (g ++ [c])) : Blanks true g := by
  have hslash : ∀ g l, g ++ [c] ≠ l ++ ['/'] := by
    intro g l h
    have hlast := congrArg List.getLast? h
    rw [List.getLast?_concat, List.getLast?_concat] at hlast
    rw [Option.some.inj hlast] at hc
    exact absurd hc (by decide)
  generalize heq : g ++ [c] = e at h
  induction h generalizing g with
  | nil => simp at heq
  | @space d e hd _ ih =>
    cases g with
    | nil => exact .nil
    | cons d' g =>
      obtain rfl : d' = d := (List.cons.inj heq).1
      exact .space hd (ih (List.cons.inj heq).2)
  | @line text e htext hend h ih =>
    rcases concat_eq_append (l := '/' :: '/' :: text) heq with ⟨he, hg⟩ | ⟨e', rfl, rfl⟩
    · rcases concat_eq_append (l := ['/', '/']) hg with ⟨-, hg'⟩ | ⟨text', rfl, rfl⟩
      · exact absurd hg' (hslash g ['/'])
      · have hend : LineEnds true [] := rfl
        have h := Blanks.line (fun c hc => htext c (List.mem_append_left _ hc)) hend .nil
        rwa [List.append_nil] at h
    · refine .line htext ?_ (ih rfl)
      cases e' with
      | nil => rfl
      | cons d e => exact hend
  | @block text e htext h ih =>
    have hsplit : '/' :: '*' :: (text ++ '*' :: '/' :: e) =
        '/' :: '*' :: (text ++ ['*']) ++ ['/'] ++ e := by simp
    rcases concat_eq_append (heq.trans hsplit) with ⟨-, hg⟩ | ⟨e', rfl, rfl⟩
    · exact absurd hg (hslash g _)
    · have h := Blanks.block htext (ih rfl)
      simpa using h

theorem Blanks.dropBlankEnd {g : List Char} (h : Blanks true g) :
    Blanks true (Text.dropBlankEnd g) := by
  induction g using List.reverseRecOn with
  | nil => exact h
  | append_singleton g c ih =>
    rw [dropBlankEnd_eq] at ih ⊢
    by_cases hc : isBlank c = true
    · rw [List.rdropWhile_concat_pos _ _ _ hc]
      exact ih (h.of_concat hc)
    · rwa [List.rdropWhile_concat_neg _ _ _ hc]

/-- A line break can be added at the end of a text: it ends the last line comment. -/
theorem Blanks.append_newline {g : List Char} (h : Blanks true g) : Blanks true (g ++ ['\n']) := by
  induction h with
  | nil => exact .space (by decide) .nil
  | space hc _ ih => exact .space hc ih
  | @line text g htext hend _ ih =>
    have hends : LineEnds true (g ++ ['\n']) := by
      cases g with
      | nil => exact (by decide : isNewline '\n' = true)
      | cons c g => exact hend
    rw [List.cons_append, List.cons_append, List.append_assoc]
    exact .line htext hends ih
  | @block text g htext _ ih =>
    rw [List.cons_append, List.cons_append, List.append_assoc]
    exact .block htext ih

theorem isBlank_of_isWordChar {c : Char} (h : isWordChar c = true) : isBlank c = false :=
  ascii_forall (P := fun c => isWordChar c = true → isBlank c = false) (by decide)
    (lt_of_isWordChar h) h

/-- The same definition without the blanks around it. -/
def Written.trimmed (w : Written) : Written :=
  { w with
    start := w.start.dropWhile isBlank
    ending := Text.dropBlankEnd w.ending
    blanks_start := w.blanks_start.dropWhile
    blanks_ending := w.blanks_ending.dropBlankEnd }

/-- The same definition with a line break after it. -/
def Written.terminated (w : Written) : Written :=
  { w with
    ending := w.ending ++ ['\n']
    blanks_ending := w.blanks_ending.append_newline }

theorem Written.text_terminated (w : Written) : w.terminated.text = w.text ++ ['\n'] := by
  simp only [terminated, text, named, tail, List.append_assoc, List.cons_append]

/-- The text from the type to the last character of the body. -/
def Written.middle (w : Written) : List Char :=
  w.returnType.glsl.toList ++ (w.afterType ++ (w.name.toList ++ (w.afterName ++ '(' ::
    (w.afterOpen ++ ([','].intercalate (w.items.map Item.text) ++ ')' ::
      (w.afterClose ++ '\x7b' :: w.body))))))

theorem Written.text_eq_middle (w : Written) :
    w.text = w.start ++ (w.middle ++ '\x7d' :: w.ending) := by
  simp only [text, named, tail, middle, List.append_assoc, List.cons_append]

theorem Written.text_trimmed (w : Written) :
    w.trimmed.text = Text.dropBlankEnd (w.text.dropWhile isBlank) := by
  obtain ⟨c, rest, hrest, hc⟩ : BeginsWord (w.middle ++ '\x7d' :: w.ending) := by
    rw [middle, List.append_assoc]
    exact beginsWord_glsl _ _
  calc w.trimmed.text
    _ = w.start.dropWhile isBlank ++ (w.middle ++ '\x7d' :: Text.dropBlankEnd w.ending) :=
      w.trimmed.text_eq_middle
    _ = Text.dropBlankEnd (w.start.dropWhile isBlank ++ (w.middle ++ '\x7d' :: w.ending)) := by
      rw [← List.append_assoc, ← List.append_assoc, dropBlankEnd_append_cons _ _ (by decide)]
    _ = Text.dropBlankEnd (w.text.dropWhile isBlank) := by
      rw [text_eq_middle, hrest, dropWhile_isBlank_append_cons _ _ (isBlank_of_isWordChar hc)]

end Grammar

namespace Definition

/-- The text that is kept reads as the same definition. -/
theorem parse_source {source : String} {f : Definition} (h : parse source = .ok f) :
    parse f.source = .ok f := by
  obtain ⟨w, hw, hnodup, rfl⟩ := parse_eq_ok_iff.1 h
  refine parse_eq_ok_iff.2 ⟨w.trimmed, ?_, hnodup, ?_⟩
  · rw [Written.text_trimmed, trim, String.toList_ofList, hw]
  · rw [trim_trim]
    rfl

theorem parse_append_newline {source : String} {f : Definition} (h : parse source = .ok f) :
    parse (source ++ "\n") = .ok f := by
  obtain ⟨w, hw, hnodup, rfl⟩ := parse_eq_ok_iff.1 h
  refine parse_eq_ok_iff.2 ⟨w.terminated, ?_, hnodup, ?_⟩
  · rw [Written.text_terminated, String.toList_append, hw]
    rfl
  · rw [trim_append_newline]
    rfl

end Definition

end ShaderNodes
