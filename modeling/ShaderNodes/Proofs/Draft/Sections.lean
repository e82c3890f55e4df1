import ShaderNodes.Proofs.Draft.Scope
import ShaderNodes.Proofs.Text.Lines

/-!
# Reading the programs of a draft

The programs of a draft are texts. What they declare is read off their lines before the main
function, and which blocks are in them off the lines that these begin with. Both come from the
features alone, if the sections made by the nodes have no lines that read like those
(`Draft.Legible`).

* `Program.varyings`, `Program.assigned?`: the varyings of a program, and what a statement gives a
  value.
* `Draft.varyings_fragment`, `Draft.varyings_vertex`: both programs declare the varyings of the
  features.
* `Draft.assigned_vertexStatements`: the main function of the vertex program gives a value to just
  these.
* `Draft.linesOf_block_infix_iff`, `Draft.block_infix_iff`: a block is there if and only if its
  feature is on.
-/

namespace ShaderNodes

open Text

/-! ## Programs -/

namespace Program

/-- The line that opens a main function. -/
def mainLine : List Char := "void main() \x7b".toList

/-- The lines of a program before its main function. -/
def declarations (program : String) : List (List Char) :=
  (linesOf program).takeWhile (· != mainLine)

/-- The variable that a line declares as a varying. -/
def varying? (line : List Char) : Option String :=
  match line.splitOn ' ' with
  | [qualifier, _, x] =>
    if qualifier = "varying".toList then some (String.ofList (x.takeWhile (· ≠ ';'))) else none
  | _ => none

/-- The varyings that a program declares, in order. -/
def varyings (program : String) : List String := (declarations program).filterMap varying?

/-- The variable that a statement gives a new value. A declaration gives none. -/
def assigned? (statement : String) : Option String :=
  match statement.toList.splitOn ' ' with
  | x :: sign :: _ => if sign = ['='] then some (String.ofList x) else none
  | _ => none

theorem varying?_eq_none {line : List Char} (h : ¬ "varying".toList <+: line) :
    varying? line = none := by
  unfold varying?
  split
  · rename_i qualifier type x hwords
    refine if_neg ?_
    rintro rfl
    have hline : [' '].intercalate (line.splitOn ' ') = line := List.intercalate_splitOn ' '
    rw [hwords, List.intercalate_cons_cons, List.append_assoc] at hline
    exact h ⟨_, hline⟩
  · rfl

/-- The features with a block of code, each with the line that its block begins with. -/
def marks : List (Feature × List Char) :=
  [(.light, "#ifndef NUM_DIR_LIGHTS".toList),
    (.normalMap,
      "vec3 perturbNormal2Arb(vec3 eyePos, vec3 surfNorm, vec3 mapN, vec2 uv, float normalScale) \x7b".toList),
    (.fresnel, "vec3 F_Schlick(const in vec3 specularColor, const in float dotLH) \x7b".toList)]

/-- How these lines end. No line outside of the blocks ends so. -/
def tails : List (Feature × List Char) :=
  [(.light, "IGHTS".toList), (.normalMap, "le) \x7b".toList), (.fresnel, "LH) \x7b".toList)]

theorem exists_tail : ∀ m ∈ marks, ∃ t ∈ tails, t.1 = m.1 ∧ t.2 <:+ m.2 := by
  simp only [← List.isSuffixOf_iff_suffix]
  decide

/-- A line that opens no main function and declares no varying, and does not end like the first line
of a block, but for blocks of the given features. -/
def isQuiet (on : Feature → Bool) (line : List Char) : Bool :=
  line != mainLine && !"varying".toList.isPrefixOf line
    && tails.all fun t => on t.1 || !t.2.isSuffixOf line

theorem isQuiet_iff {on : Feature → Bool} {line : List Char} : isQuiet on line = true ↔
    line ≠ mainLine ∧ ¬ "varying".toList <+: line ∧ ∀ t ∈ tails, t.2 <:+ line → on t.1 = true := by
  simp only [isQuiet, Bool.and_eq_true, bne_iff_ne, List.all_eq_true, ← List.isPrefixOf_iff_prefix,
    ← List.isSuffixOf_iff_suffix, and_assoc, Bool.or_eq_true, Bool.not_eq_true', Bool.not_eq_true,
    or_iff_not_imp_right, Bool.not_eq_false]

theorem isQuiet_mono {on on' : Feature → Bool} {line : List Char} (h : isQuiet on line = true)
    (hle : ∀ f, on f = true → on' f = true) : isQuiet on' line = true := by
  rw [isQuiet_iff] at h ⊢
  exact ⟨h.1, h.2.1, fun t ht hsuffix => hle _ (h.2.2 t ht hsuffix)⟩

/-- The line ends neither like a tail nor like the line that opens a main function. -/
abbrev EndsPlain (line : List Char) : Prop := line.getLast? ≠ some 'S' ∧ line.getLast? ≠ some '\x7b'

theorem EndsPlain.not_tail {line : List Char} (h : EndsPlain line) :
    line ≠ mainLine ∧ ∀ t ∈ tails, ¬ t.2 <:+ line := by
  have hends : ∀ tail : List Char, (tail.getLast? = some 'S' ∨ tail.getLast? = some '\x7b') →
      ¬ tail <:+ line := by
    rintro tail htail ⟨before, rfl⟩
    rw [EndsPlain, List.getLast?_append] at h
    rcases htail with htail | htail <;> rw [htail] at h
    · exact h.1 rfl
    · exact h.2 rfl
  refine ⟨?_, fun t ht => hends _ ?_⟩
  · rintro rfl
    exact hends mainLine (by decide) List.suffix_rfl
  · revert t
    decide

theorem EndsPlain.isQuiet {line : List Char} (h : EndsPlain line)
    (hvarying : ¬ "varying".toList <+: line) (on : Feature → Bool) : isQuiet on line = true := by
  obtain ⟨hmain, htails⟩ := h.not_tail
  exact isQuiet_iff.2 ⟨hmain, hvarying, fun t ht hsuffix => absurd hsuffix (htails t ht)⟩

/-- All lines of the text are quiet. -/
def QuietText (on : Feature → Bool) (s : String) : Prop :=
  ∀ line ∈ linesOf s, isQuiet on line = true

theorem QuietText.mono {on on' : Feature → Bool} {s : String} (h : QuietText on s)
    (hle : ∀ f, on f = true → on' f = true) : QuietText on' s := fun line hline =>
  isQuiet_mono (h line hline) hle

/-- A text of one line that is quiet. -/
def QuietLine (on : Feature → Bool) (x : String) : Prop := '\n' ∉ x.toList ∧
    isQuiet on x.toList = true

instance (on : Feature → Bool) (x : String) : Decidable (QuietLine on x) :=
  inferInstanceAs (Decidable (_ ∧ _))

/-- For a long text this is checked faster on its characters than by `decide`, which has to decode
it. -/
theorem quietLine_ofList {on : Feature → Bool} {line : List Char}
    (h : (!line.contains '\n' && isQuiet on line) = true) : QuietLine on (String.ofList line) := by
  rw [Bool.and_eq_true, Bool.not_eq_true', ← Bool.not_eq_true, List.contains_iff_mem] at h
  rwa [QuietLine, String.toList_ofList]

theorem quietText_lines {on : Feature → Bool} {l : List String} (h : ∀ x ∈ l, QuietLine on x) :
    QuietText on (lines l) := by
  intro line hline
  rw [linesOf_lines fun x hx => (h x hx).1] at hline
  rcases List.mem_append.1 hline with hline | hline
  · obtain ⟨x, hx, rfl⟩ := List.mem_map.1 hline
    exact (h x hx).2
  · obtain rfl := List.mem_singleton.1 hline
    have hempty : isQuiet (fun _ => false) [] = true := by decide
    exact isQuiet_mono hempty (by simp)

end Program

open Program

namespace Draft

/-! ## Sections -/

theorem linesOf_mainFunction (body : String) :
    linesOf (mainFunction body) = mainLine :: linesOf (body ++ "\x7d\n") := by
  have hopen : "void main() \x7b\n" = "void main() \x7b" ++ "\n" := by decide
  rw [mainFunction, hopen, String.append_assoc, linesOf_append_lf, linesOf_of_not_mem (by decide)]
  rfl

theorem mainFunction_ne_empty (body : String) : mainFunction body ≠ "" := by
  intro h
  have hlines := congrArg linesOf h
  rw [linesOf_mainFunction] at hlines
  exact absurd (List.cons.inj hlines).1 (by decide)

theorem linesOf_joinSections (sections : List String) (body : String) :
    linesOf (joinSections (sections ++ [mainFunction body])) =
      (sections.filter (· ≠ "")).flatMap linesOf ++ linesOf (mainFunction body) := by
  have hmain : [mainFunction body].filter (· ≠ "") = [mainFunction body] := by
    simp [mainFunction_ne_empty]
  rw [joinSections, List.filter_append, hmain, linesOf_intercalate (by simp), List.flatMap_append,
    List.flatMap_singleton]

/-- What stands before the main function is what the sections before it hold. -/
theorem declarations_joinSections {sections : List String}
    (h : ∀ s ∈ sections, mainLine ∉ linesOf s) (body : String) :
      declarations (joinSections (sections ++ [mainFunction body])) =
      (sections.filter (· ≠ "")).flatMap linesOf := by
  have hbefore : ∀ line ∈ (sections.filter (· ≠ "")).flatMap linesOf, (line != mainLine) =
      true := by
    intro line hline
    obtain ⟨s, hs, hline⟩ := List.mem_flatMap.1 hline
    rw [bne_iff_ne]
    rintro rfl
    exact h s (List.mem_filter.1 hs).1 hline
  rw [declarations, linesOf_joinSections, List.takeWhile_append_of_pos hbefore,
    linesOf_mainFunction]
  simp

theorem varyings_joinSections {sections : List String} (h : ∀ s ∈ sections, mainLine ∉ linesOf s)
    (body : String) : Program.varyings (joinSections (sections ++ [mainFunction body])) =
      sections.flatMap fun s => (linesOf s).filterMap varying? := by
  rw [Program.varyings, declarations_joinSections h, List.filterMap_flatMap]
  clear h
  induction sections with
  | nil => rfl
  | cons s sections ih =>
    by_cases hs : s = ""
    · subst hs
      exact ih
    · rw [List.filter_cons_of_pos (by simpa using hs), List.flatMap_cons, List.flatMap_cons, ih]

/-- There is one line break between the sections that are not empty. -/
theorem joinSections_append {l r : List String} (hl : ∃ s ∈ l, s ≠ "") (hr : ∃ s ∈ r, s ≠ "") :
    joinSections (l ++ r) = joinSections l ++ "\n" ++ joinSections r := by
  have hfilter : ∀ sections : List String, (∃ s ∈ sections, s ≠ "") →
      sections.filter (· ≠ "") ≠ [] := by
    rintro sections ⟨s, hs, hne⟩
    exact List.ne_nil_of_mem (List.mem_filter.2 ⟨hs, by simpa using hne⟩)
  rw [joinSections, joinSections, joinSections, List.filter_append,
    String.intercalate_append_of_ne_nil (hfilter l hl) (hfilter r hr)]

theorem joinSections_cons {s : String} {sections : List String} (hs : s ≠ "")
    (h : ∃ t ∈ sections, t ≠ "") : joinSections (s :: sections) =
      s ++ "\n" ++ joinSections sections := by
  have hsingle : joinSections [s] = s := by simp [joinSections, hs]
  have happend := joinSections_append ⟨s, List.mem_singleton_self s, hs⟩ h
  rwa [hsingle] at happend

/-- A section that is not empty is there as it stands. -/
theorem infix_joinSections {sections : List String} {s : String} (hs : s ∈ sections)
    (hne : s ≠ "") : s.toList <:+: (joinSections sections).toList := by
  have hmem : s ∈ sections.filter (· ≠ "") := List.mem_filter.2 ⟨hs, by simpa using hne⟩
  rw [joinSections, String.toList_intercalate]
  generalize sections.filter (· ≠ "") = l at hmem
  induction l with
  | nil => cases hmem
  | cons t l ih =>
    cases l with
    | nil =>
      obtain rfl := List.mem_singleton.1 hmem
      simp
    | cons t' l =>
      rw [List.map_cons, List.map_cons, List.intercalate_cons_cons]
      rcases List.mem_cons.1 hmem with rfl | hmem
      · rw [List.append_assoc]
        exact (List.prefix_append _ _).isInfix
      · exact (ih hmem).trans (List.suffix_append _ _).isInfix

theorem infix_flatMap {α β : Type} {l : List α} {a : α} (h : a ∈ l) (F : α → List β) :
    F a <:+: l.flatMap F := by
  obtain ⟨before, after, rfl⟩ := List.append_of_mem h
  exact ⟨before.flatMap F, after.flatMap F, by simp⟩

variable {d : Draft}

/-! ## Varyings -/

/-- The varyings of features: their names and the lines that declare them, in order. -/
def varyingTable : List (Feature × String × String) :=
  [(.uv, "vUv", "varying vec2 vUv;"), (.normal, "vNormal", "varying vec3 vNormal;"),
    (.position, "vViewPosition", "varying vec3 vViewPosition;")]

/-- The part of the table that the draft needs. -/
def needed (d : Draft) : List (Feature × String × String) :=
  varyingTable.filter fun v => d.features.isEnabled v.1

/-- The varyings of the features that are on. -/
def varyingNames (d : Draft) : List String := d.needed.map (·.2.1)

theorem varying?_of_mem_needed {v : Feature × String × String} (h : v ∈ d.needed) :
    varying? v.2.2.toList = some v.2.1 ∧ '\n' ∉ v.2.2.toList ∧
    v.2.2.toList.getLast? = some ';' := by
  have htable : ∀ v ∈ varyingTable,
      varying? v.2.2.toList = some v.2.1 ∧ '\n' ∉ v.2.2.toList ∧
      v.2.2.toList.getLast? = some ';' := by decide
  exact htable v (List.mem_filter.1 h).1

theorem linesOf_varyings : linesOf d.varyings = d.needed.map (·.2.2.toList) ++ [[]] := by
  have hlines : d.varyings = lines (d.needed.map (·.2.2)) := by
    unfold varyings needed varyingTable whenOn
    simp only [List.filter_cons, List.filter_nil]
    cases d.features.isEnabled .uv <;> cases d.features.isEnabled .normal <;>
      cases d.features.isEnabled .position <;> rfl
  have hlf : ∀ x ∈ d.needed.map (·.2.2), '\n' ∉ x.toList := by
    intro x hx
    obtain ⟨v, hv, rfl⟩ := List.mem_map.1 hx
    exact (varying?_of_mem_needed hv).2.1
  rw [hlines, linesOf_lines hlf, List.map_map]
  rfl

theorem filterMap_varying?_varyings : (linesOf d.varyings).filterMap varying? = d.varyingNames := by
  have hsome : ∀ v ∈ d.needed, (varying? ∘ fun v => v.2.2.toList) v = some v.2.1 := fun v hv =>
    (varying?_of_mem_needed hv).1
  have hempty : [[]].filterMap varying? = [] := by decide
  rw [linesOf_varyings, List.filterMap_append, hempty, List.append_nil, List.filterMap_map,
    List.filterMap_congr hsome, List.filterMap_eq_map', varyingNames]

/-- A line that declares a varying begins nothing else. -/
theorem endsPlain_of_mem_varyings {line : List Char} (h : line ∈ linesOf d.varyings) :
    EndsPlain line := by
  rw [linesOf_varyings] at h
  rcases List.mem_append.1 h with h | h
  · obtain ⟨v, hv, rfl⟩ := List.mem_map.1 h
    rw [EndsPlain, (varying?_of_mem_needed hv).2.2]
    decide
  · obtain rfl := List.mem_singleton.1 h
    decide

theorem mainLine_not_mem_varyings : mainLine ∉ linesOf d.varyings := fun h =>
  (endsPlain_of_mem_varyings h).not_tail.1 rfl

theorem varyings_vertex : Program.varyings d.vertex = d.varyingNames := by
  have hmain : ∀ s ∈ [d.varyings], mainLine ∉ linesOf s := by
    simpa using mainLine_not_mem_varyings
  rw [vertex, vertexMain, ← List.singleton_append, varyings_joinSections hmain,
    List.flatMap_singleton, filterMap_varying?_varyings]

/-! ## The main function of the vertex program -/

/-- The statements of the main function of the vertex program. -/
def vertexStatements (d : Draft) : List String :=
  (if d.features.isEnabled .uv then [Chunks.assignUv] else [])
    ++ (if d.features.isEnabled .normal then [Chunks.assignNormal]
      else []) ++ [Chunks.modelViewPosition]
    ++ (if d.features.isEnabled .position then [Chunks.assignPosition]
      else []) ++ [Chunks.glPosition]

theorem vertexMain_eq :
    d.vertexMain = mainFunction (String.join (d.vertexStatements.map d.line)) := by
  unfold vertexMain vertexStatements whenOn
  cases d.features.isEnabled .uv <;> cases d.features.isEnabled .normal <;>
    cases d.features.isEnabled .position <;> simp [String.append_assoc]

/-- Besides the varyings, only the position of the vertex is given a value. -/
theorem assigned_vertexStatements :
    d.vertexStatements.filterMap assigned? = d.varyingNames ++ ["gl_Position"] := by
  have huv : assigned? Chunks.assignUv = some "vUv" := by decide
  have hnormal : assigned? Chunks.assignNormal = some "vNormal" := by decide
  have hview : assigned? Chunks.modelViewPosition = none := by decide
  have hposition : assigned? Chunks.assignPosition = some "vViewPosition" := by decide
  have hgl : assigned? Chunks.glPosition = some "gl_Position" := by decide
  unfold vertexStatements varyingNames needed varyingTable
  simp only [List.filter_cons, List.filter_nil]
  cases d.features.isEnabled .uv <;> cases d.features.isEnabled .normal <;>
    cases d.features.isEnabled .position <;> simp [huv, hnormal, hview, hposition, hgl]

theorem vertexMain_suffix : d.vertexMain.toList <:+ d.vertex.toList := by
  have hmain : d.vertexMain ≠ "" := mainFunction_ne_empty _
  by_cases hvaryings : d.varyings = ""
  · simp [vertex, joinSections, hvaryings, hmain]
  · have hvertex : d.vertex = d.varyings ++ "\n" ++ d.vertexMain := by
      simp [vertex, joinSections, hvaryings, hmain]
    rw [hvertex, String.toList_append]
    exact List.suffix_append _ _

/-! ## The sections of the fragment program -/

/-- The sections made by nodes have no lines that read like a block or a main function. -/
structure Legible (d : Draft) : Prop where
  uniforms : ∀ u ∈ d.uniforms, '\n' ∉ u.1.toList ∧ '\n' ∉ u.2.type.toList
  functions : ∀ f ∈ d.functions, QuietText (fun _ => false) (functionSection f)
  statements : ∀ s ∈ d.statements, '\n' ∉ s.text.toList

/-- The sections of the fragment program before its main function. -/
def preamble (d : Draft) : List String :=
  [Chunks.constants, d.uniformSection, d.varyings, d.whenOn .light (d.block .light),
    d.whenOn .normalMap (d.block .normalMap), d.whenOn .fresnel (d.block .fresnel)]
  ++ d.functions.map functionSection

theorem fragment_eq : d.fragment = joinSections (d.preamble ++ [d.fragmentMain]) := rfl

theorem endsPlain_semicolon (s : String) : EndsPlain (s ++ ";").toList := by
  have hlast : (s ++ ";").toList.getLast? = some ';' := by
    rw [String.toList_append]
    exact List.getLast?_concat
  rw [EndsPlain, hlast]
  decide

/-- The line that declares a uniform, without its line feed. -/
def uniformDeclaration (u : Name × Binding) : String := "uniform " ++ u.2.type ++ " " ++ u.1 ++ ";"

theorem uniformSection_eq_lines (d : Draft) :
    d.uniformSection = lines (d.uniforms.map uniformDeclaration) := by
  have hline : ∀ u, uniformLine u = uniformDeclaration u ++ "\n" := by
    simp [uniformLine, uniformDeclaration, String.append_assoc]
  rw [uniformSection, lines, List.map_map]
  exact congrArg String.join (List.map_congr_left fun u _ => hline u)

theorem quietText_uniformSection (hd : d.Legible) :
    QuietText (fun _ => false) d.uniformSection := by
  rw [uniformSection_eq_lines]
  refine quietText_lines fun x hx => ?_
  obtain ⟨u, hu, rfl⟩ := List.mem_map.1 hx
  obtain ⟨hname, htype⟩ := hd.uniforms u hu
  exact ⟨by simp [uniformDeclaration, hname, htype], (endsPlain_semicolon _).isQuiet (by simp) _⟩

/-- The number of lights is on the one line of the block that is not fixed. -/
theorem quietLine_count (n : Nat) (on : Feature → Bool) :
    QuietLine on ("#define NUM_DIR_LIGHTS " ++ toString n) := by
  have hdigits : ∀ c ∈ Nat.toDigits 10 n, c.isDigit = true := fun c hc =>
    Nat.isDigit_of_mem_toDigits (by decide) (by decide) hc
  have hnot : ∀ {c : Char}, c.isDigit = false → c ∉ Nat.toDigits 10 n := by
    intro c hc h
    rw [hdigits c h] at hc
    cases hc
  have hlast : ∀ {c : Char}, c.isDigit = false → c ≠ ' ' →
      ("#define NUM_DIR_LIGHTS " ++ toString n).toList.getLast? ≠ some c := by
    intro c hc hne h
    rw [String.toList_append, List.getLast?_append, Option.or_eq_some_iff] at h
    rcases h with h | ⟨-, h⟩
    · exact hnot hc (List.mem_of_getLast? (by simpa using h))
    · exact hne (Eq.symm (by simpa using h))
  have hends : EndsPlain _ := ⟨hlast rfl (by decide), hlast rfl (by decide)⟩
  exact ⟨by simp [hnot], hends.isQuiet (by simp) _⟩

theorem quietText_block {m : Feature × List Char} (hm : m ∈ marks) :
    QuietText (· == m.1) (d.block m.1) := by
  simp only [marks, List.mem_cons, List.not_mem_nil, or_false] at hm
  rcases hm with rfl | rfl | rfl <;> apply quietText_lines
  · refine List.forall_mem_cons.2 ⟨quietLine_ofList rfl,
      List.forall_mem_cons.2 ⟨quietLine_count _ _, ?_⟩⟩
    repeat refine List.forall_mem_cons.2 ⟨quietLine_ofList rfl, ?_⟩
    exact List.forall_mem_nil _
  all_goals
    repeat refine List.forall_mem_cons.2 ⟨quietLine_ofList rfl, ?_⟩
    exact List.forall_mem_nil _

/-- Before the main function varyings are declared in one section, and a block begins only if its
feature is on. -/
theorem exists_preamble_eq (hd : d.Legible) :
    ∃ before after, d.preamble = before ++ d.varyings :: after ∧
    ∀ s ∈ before ++ after, QuietText d.features.isEnabled s := by
  have hfixed : ∀ {s : String}, QuietText (fun _ => false) s → QuietText d.features.isEnabled s :=
    fun h => h.mono (by simp)
  have hempty : QuietText (fun _ => false) "" := quietText_lines (List.forall_mem_nil _)
  have hblock : ∀ m ∈ marks, QuietText d.features.isEnabled (d.whenOn m.1 (d.block m.1)) := by
    intro m hm
    rw [whenOn]
    split
    · rename_i hon
      refine (quietText_block hm).mono fun f hf => ?_
      rwa [beq_iff_eq.1 hf]
    · exact hfixed hempty
  refine ⟨[Chunks.constants, d.uniformSection],
    [d.whenOn .light (d.block .light), d.whenOn .normalMap (d.block .normalMap),
      d.whenOn .fresnel (d.block .fresnel)] ++ d.functions.map functionSection, rfl, fun s hs => ?_⟩
  simp only [List.mem_append, List.mem_cons, List.not_mem_nil, or_false, List.mem_map] at hs
  rcases hs with (rfl | rfl) | (rfl | rfl | rfl) | ⟨f, hf, rfl⟩
  · exact hfixed (quietText_lines (by decide))
  · exact hfixed (quietText_uniformSection hd)
  · exact hblock (.light, _) (.head _)
  · exact hblock (.normalMap, _) (.tail _ (.head _))
  · exact hblock (.fresnel, _) (.tail _ (.tail _ (.head _)))
  · exact hfixed (hd.functions f hf)

theorem quietText_of_mem_preamble (hd : d.Legible) {s : String} (hs : s ∈ d.preamble) :
    s = d.varyings ∨ QuietText d.features.isEnabled s := by
  obtain ⟨before, after, heq, hquiet⟩ := exists_preamble_eq hd
  rw [heq, List.mem_append, List.mem_cons] at hs
  rcases hs with hs | rfl | hs
  · exact .inr (hquiet s (List.mem_append_left _ hs))
  · exact .inl rfl
  · exact .inr (hquiet s (List.mem_append_right _ hs))

theorem mainLine_not_mem_preamble (hd : d.Legible) : ∀ s ∈ d.preamble, mainLine ∉ linesOf s := by
  intro s hs hmain
  rcases quietText_of_mem_preamble hd hs with rfl | hquiet
  · exact mainLine_not_mem_varyings hmain
  · exact (isQuiet_iff.1 (hquiet _ hmain)).1 rfl

theorem isEnabled_of_mark (hd : d.Legible) {s : String} (hs : s ∈ d.preamble)
    {m : Feature × List Char} (hm : m ∈ marks) {line : List Char} (hline : line ∈ linesOf s)
    (hsuffix : m.2 <:+ line) : d.features.isEnabled m.1 = true := by
  obtain ⟨t, ht, hfeature, htail⟩ := exists_tail m hm
  rw [← hfeature]
  rcases quietText_of_mem_preamble hd hs with rfl | hquiet
  · exact absurd (htail.trans hsuffix) ((endsPlain_of_mem_varyings hline).not_tail.2 t ht)
  · exact (isQuiet_iff.1 (hquiet _ hline)).2.2 t ht (htail.trans hsuffix)

/-! ## What the fragment program holds -/

theorem varyings_fragment (hd : d.Legible) : Program.varyings d.fragment = d.varyingNames := by
  obtain ⟨before, after, heq, hquiet⟩ := exists_preamble_eq hd
  have hnone : ∀ s ∈ before ++ after, (linesOf s).filterMap varying? = [] := fun s hs =>
    List.filterMap_eq_nil_iff.2 fun line hline =>
      varying?_eq_none (isQuiet_iff.1 (hquiet s hs line hline)).2.1
  have hbefore := List.flatMap_eq_nil_iff.2 fun s hs => hnone s (List.mem_append_left _ hs)
  have hafter := List.flatMap_eq_nil_iff.2 fun s hs => hnone s (List.mem_append_right _ hs)
  rw [fragment_eq, fragmentMain, varyings_joinSections (mainLine_not_mem_preamble hd), heq,
    List.flatMap_append, List.flatMap_cons, hbefore, hafter, filterMap_varying?_varyings]
  simp

theorem declarations_fragment (hd : d.Legible) :
    declarations d.fragment = (d.preamble.filter (· ≠ "")).flatMap linesOf :=
  declarations_joinSections (mainLine_not_mem_preamble hd) _

/-- A block begins with its mark. -/
theorem toList_block {m : Feature × List Char} (hm : m ∈ marks) :
    '\n' ∉ m.2 ∧ ∃ rest, (d.block m.1).toList = m.2 ++ '\n' :: rest := by
  have hlines : ∀ (x : String) (l : List String), ∃ rest, (lines (x :: l)).toList =
      x.toList ++ '\n' :: rest := by
    intro x l
    exact ⟨(lines l).toList, by simp [lines_cons]⟩
  simp only [marks, List.mem_cons, List.not_mem_nil, or_false] at hm
  rcases hm with rfl | rfl | rfl
  · exact ⟨by decide, hlines _ _⟩
  · exact ⟨by decide, hlines _ _⟩
  · exact ⟨by decide, hlines _ _⟩

theorem mark_mem_linesOf_block {m : Feature × List Char} (hm : m ∈ marks) :
    m.2 ∈ linesOf (d.block m.1) := by
  obtain ⟨hlf, rest, hblock⟩ := toList_block (d := d) hm
  rw [linesOf, hblock, List.splitOn_append_cons_self, List.splitOn_eq_singleton hlf]
  exact .head _

theorem block_ne_empty {m : Feature × List Char} (hm : m ∈ marks) : d.block m.1 ≠ "" := by
  obtain ⟨-, rest, hblock⟩ := toList_block (d := d) hm
  intro h
  rw [h] at hblock
  exact absurd hblock.symm (by simp)

theorem block_mem_preamble {m : Feature × List Char} (hm : m ∈ marks)
    (hon : d.features.isEnabled m.1 = true) : d.block m.1 ∈ d.preamble := by
  have hsection : d.whenOn m.1 (d.block m.1) = d.block m.1 := if_pos hon
  rw [← hsection]
  simp only [marks, List.mem_cons, List.not_mem_nil, or_false] at hm
  rcases hm with rfl | rfl | rfl <;> simp [preamble]

/-- A block stands before the main function if and only if its feature is on. -/
theorem linesOf_block_infix_iff (hd : d.Legible) {m : Feature × List Char} (hm : m ∈ marks) :
    linesOf (d.block m.1) <:+: declarations d.fragment ↔ d.features.isEnabled m.1 = true := by
  rw [declarations_fragment hd]
  constructor
  · intro hheld
    obtain ⟨s, hs, hline⟩ := List.mem_flatMap.1 (hheld.subset (mark_mem_linesOf_block hm))
    exact isEnabled_of_mark hd (List.mem_filter.1 hs).1 hm hline List.suffix_rfl
  · intro hon
    refine infix_flatMap (List.mem_filter.2 ⟨block_mem_preamble hm hon, ?_⟩) linesOf
    simpa using block_ne_empty hm

theorem fragmentMain_eq : ∃ statements : List String,
    (∀ s ∈ statements, s = Chunks.normalPrelude ∨ s ∈ d.statements.map Statement.text) ∧
      d.fragmentMain = mainFunction (lines (statements.map (d.config.indent ++ · ++ ";"))) := by
  have hline : ∀ s, d.line s = d.config.indent ++ s ++ ";" ++ "\n" := by
    simp [line, String.append_assoc]
  refine ⟨(if d.features.isEnabled .normal then [Chunks.normalPrelude]
    else []) ++ d.statements.map Statement.text, ?_, ?_⟩
  · intro s hs
    rcases List.mem_append.1 hs with hs | hs
    · exact .inl (List.mem_singleton.1 (List.mem_ite_nil_right.1 hs).2)
    · exact .inr hs
  · rw [fragmentMain, whenOn, List.map_append, lines_append]
    congr 2
    · split <;> simp [lines, hline]
    · simp [lines, hline, Function.comp_def]

/-- The indentation is in the text of the program as it stands, where there is a statement. -/
theorem indent_infix_fragment {s : Statement} (hs : s ∈ d.statements) :
    d.config.indent.toList <:+: d.fragment.toList := by
  have hmain : d.fragmentMain.toList <:+: d.fragment.toList :=
    infix_joinSections (List.mem_append_right _ (List.mem_singleton_self _))
      (mainFunction_ne_empty _)
  have hline : (d.line s.text).toList <:+: d.fragmentMain.toList := by
    obtain ⟨before, after, hsplit⟩ := List.append_of_mem hs
    refine ⟨("void main() \x7b\n" ++ (d.whenOn .normal (d.line Chunks.normalPrelude) ++
      String.join (before.map fun s => d.line s.text))).toList,
      (String.join (after.map fun s => d.line s.text) ++ "\x7d\n").toList, ?_⟩
    simp [fragmentMain, mainFunction, hsplit]
  have hindent : d.config.indent.toList <:+: (d.line s.text).toList := by
    rw [line, String.append_assoc, String.toList_append]
    exact (List.prefix_append _ _).isInfix
  exact hindent.trans (hline.trans hmain)

/-- No block begins in the main function, if the indentation is within lines. -/
theorem not_suffix_of_mem_fragmentMain (hd : d.Legible) (hindent : '\n' ∉ d.config.indent.toList)
    {m : Feature × List Char} (hm : m ∈ marks) {line : List Char}
    (hline : line ∈ linesOf d.fragmentMain) : ¬ m.2 <:+ line := by
  obtain ⟨statements, hstatements, heq⟩ := fragmentMain_eq (d := d)
  have hbody : lines (statements.map (d.config.indent ++ · ++ ";")) ++ "\x7d\n" =
      lines (statements.map (d.config.indent ++ · ++ ";") ++ ["\x7d"]) := by
    rw [lines_append]
    rfl
  have hlf : ∀ x ∈ statements.map (d.config.indent ++ · ++ ";") ++ ["\x7d"], '\n' ∉ x.toList := by
    have hstatement : ∀ s ∈ statements, '\n' ∉ s.toList := by
      intro s hs
      rcases hstatements s hs with rfl | hs
      · decide
      · obtain ⟨statement, hstatement, rfl⟩ := List.mem_map.1 hs
        exact hd.statements statement hstatement
    intro x hx
    rcases List.mem_append.1 hx with hx | hx
    · obtain ⟨s, hs, rfl⟩ := List.mem_map.1 hx
      simp [hindent, hstatement s hs]
    · obtain rfl := List.mem_singleton.1 hx
      decide
  rw [heq, linesOf_mainFunction, hbody, linesOf_lines hlf] at hline
  simp only [List.map_append, List.map_map, List.map_cons, List.map_nil, List.mem_cons,
    List.mem_append, List.mem_map, List.not_mem_nil, or_false] at hline
  obtain ⟨t, ht, -, htail⟩ := exists_tail m hm
  refine mt htail.trans ?_
  rcases hline with rfl | (⟨s, -, rfl⟩ | rfl) | rfl
  · have hmain : ∀ t ∈ tails, t.2.isSuffixOf mainLine = false := by decide
    rw [← List.isSuffixOf_iff_suffix, hmain t ht]
    exact Bool.false_ne_true
  · exact (endsPlain_semicolon _).not_tail.2 t ht
  · have hbrace : EndsPlain "\x7d".toList := by decide
    exact hbrace.not_tail.2 t ht
  · have hempty : EndsPlain [] := by decide
    exact hempty.not_tail.2 t ht

/-- A block is in the text of the program if and only if its feature is on. -/
theorem block_infix_iff (hd : d.Legible) (hindent : '\n' ∉ d.config.indent.toList)
    {m : Feature × List Char} (hm : m ∈ marks) :
    (d.block m.1).toList <:+: d.fragment.toList ↔ d.features.isEnabled m.1 = true := by
  constructor
  · intro hheld
    obtain ⟨hlf, rest, hblock⟩ := toList_block (d := d) hm
    rw [hblock] at hheld
    obtain ⟨line, hline, hsuffix⟩ := exists_line_of_isInfix hlf hheld
    rw [fragment_eq, fragmentMain, linesOf_joinSections, List.mem_append, List.mem_flatMap] at hline
    rcases hline with ⟨s, hs, hline⟩ | hline
    · exact isEnabled_of_mark hd (List.mem_filter.1 hs).1 hm hline hsuffix
    · exact absurd hsuffix (not_suffix_of_mem_fragmentMain hd hindent hm hline)
  · intro hon
    exact infix_joinSections (List.mem_append_left _ (block_mem_preamble hm hon))
      (block_ne_empty hm)

end Draft

end ShaderNodes
