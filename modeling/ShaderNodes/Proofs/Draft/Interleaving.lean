import ShaderNodes.Proofs.Draft.Edits
import ShaderNodes.Proofs.Draft.Sections
import ShaderNodes.Proofs.SortedMap

/-!
# The order of edits

A shader is made from the parts of its draft. Edits that are about different parts may change
places, and of statements only their texts are read. So what a draft becomes is told by its
settings, the statements, uniforms and functions that were given, each in their order, and the
features that were turned on.

* `KeepsFirst`: a list that has taken over the first of the entries of each name.
* `Draft.exists_fragment_eq`: what the uniforms add to the fragment program.
* `Draft.finish_congr`: what a shader is made from.
* `Draft.finish_ignores_interleaving`: a new draft after any edits, and the shader that it gives.
-/

namespace ShaderNodes

open Text

/-! ## First entries -/

/-- Of the entries that were given, `kept` has the first of each name, in the order in which they
came. -/
structure KeepsFirst {α : Type} (given kept : List (Name × α)) : Prop where
  nodup : (kept.map (·.1)).Nodup
  names : kept.map (·.1) = (given.map (·.1)).eraseDups
  mem_iff (e : Name × α) : e ∈ kept ↔ given.find? (·.1 == e.1) = some e

theorem keepsFirst_foldl_joinNew {α : Type} (given : List (Name × α)) :
    KeepsFirst given (given.foldl joinNew []) where
  nodup := nodup_foldl_joinNew given List.nodup_nil
  names := by simp [map_fst_foldl_joinNew]
  mem_iff e := by simp [mem_foldl_joinNew_iff]

/-! ## Sections -/

namespace Draft

variable {d d' : Draft}

theorem lines_ne_empty {l : List String} (h : l ≠ []) : lines l ≠ "" := by
  cases l with
  | nil => exact absurd rfl h
  | cons x l =>
    intro hempty
    have hchars := congrArg String.toList hempty
    simp [lines_cons] at hchars

/-- The uniforms have a section of their own after the constants, with a line for each; the rest of
the program does not show them. -/
theorem exists_fragment_eq (d : Draft) : ∃ rest,
    ({ d with uniforms := [] } : Draft).fragment = Chunks.constants ++ "\n" ++ rest ∧
      d.fragment = Chunks.constants ++ "\n" ++
        (if d.uniforms = [] then ""
          else lines (d.uniforms.map uniformDeclaration) ++ "\n") ++ rest := by
  let sections := [d.varyings, d.whenOn .light (Chunks.lights d.config.directionalLights),
    d.whenOn .normalMap Chunks.normalMap, d.whenOn .fresnel Chunks.fresnel]
    ++ d.functions.map functionSection ++ [d.fragmentMain]
  have hmem : d.fragmentMain ∈ sections := List.mem_append_right _ (.head _)
  have hmain : d.fragmentMain ≠ "" := mainFunction_ne_empty _
  have hconstants : ∀ s, joinSections (Chunks.constants :: s :: sections) =
      Chunks.constants ++ "\n" ++ joinSections (s :: sections) := fun s =>
    joinSections_cons (by decide) ⟨_, .tail _ hmem, hmain⟩
  have hwithout : ({ d with uniforms := [] } : Draft).fragment =
      Chunks.constants ++ "\n" ++ joinSections sections := hconstants ""
  have hwith : d.fragment =
      Chunks.constants ++ "\n" ++ joinSections (d.uniformSection :: sections) :=
    hconstants d.uniformSection
  refine ⟨joinSections sections, hwithout, ?_⟩
  rw [hwith, uniformSection_eq_lines]
  by_cases hnone : d.uniforms = []
  · rw [if_pos hnone, hnone, String.append_empty]
    rfl
  · have hsection : lines (d.uniforms.map uniformDeclaration) ≠ "" :=
      lines_ne_empty (by simpa using hnone)
    rw [if_neg hnone, joinSections_cons hsection ⟨_, hmem, hmain⟩]
    simp only [String.append_assoc]

/-! ## What a shader is made from -/

/-- The vertex program is made from the settings and the features only. -/
theorem vertex_congr (hconfig : d.config = d'.config) (hfeatures : d.features = d'.features) :
    d.vertex = d'.vertex := by
  simp only [vertex, vertexMain, varyings, whenOn, line, hconfig, hfeatures]

theorem fragment_congr (hconfig : d.config = d'.config) (hfeatures : d.features = d'.features)
    (hstatements : d.statements.map Statement.text = d'.statements.map Statement.text)
    (huniforms : d.uniforms = d'.uniforms) (hfunctions : d.functions = d'.functions) :
    d.fragment = d'.fragment := by
  have hlines : (d.statements.map fun s => d.line s.text) = d'.statements.map fun s =>
      d'.line s.text := by
    have hline : d.line = d'.line := by
      funext s
      rw [line, line, hconfig]
    have h := congrArg (List.map d.line) hstatements
    rw [List.map_map, List.map_map] at h
    rw [← hline]
    exact h
  simp only [fragment, fragmentMain, varyings, uniformSection, whenOn, line, hconfig, hfeatures,
    huniforms, hfunctions] at hlines ⊢
  rw [hlines]

/-- A shader is made from the settings, the texts of the statements, and the other parts of the
draft. -/
theorem finish_congr (hconfig : d.config = d'.config) (hfeatures : d.features = d'.features)
    (hstatements : d.statements.map Statement.text = d'.statements.map Statement.text)
    (huniforms : d.uniforms = d'.uniforms) (hfunctions : d.functions = d'.functions) :
    d.finish = d'.finish := by
  simp only [finish, vertex_congr hconfig hfeatures,
    fragment_congr hconfig hfeatures hstatements huniforms hfunctions, huniforms, hfeatures]

end Draft

/-! ## Interleaved edits -/

/-- Edits that add the same texts, uniforms and functions, each in the same order, and turn on the
same features. -/
structure Edit.Interleaved (edits edits' : List Edit) : Prop where
  statements : (edits.filterMap statement?).map Statement.text =
    (edits'.filterMap statement?).map Statement.text
  uniforms : edits.filterMap uniform? = edits'.filterMap uniform?
  functions : edits.filterMap function? = edits'.filterMap function?
  features (f : Feature) : .enable f ∈ edits ↔ .enable f ∈ edits'

namespace Draft

/-- Interleaved edits of one draft lead to the same shader. -/
theorem finish_of_interleaved (d : Draft) {edits edits' : List Edit}
    (h : Edit.Interleaved edits edits') : (d.run edits).finish = (d.run edits').finish := by
  refine finish_congr ?_ ?_ ?_ ?_ ?_
  · rw [config_run, config_run]
  · refine Features.ext_isEnabled fun f => Bool.eq_iff_iff.2 ?_
    rw [isEnabled_run_iff, isEnabled_run_iff, h.features]
  · rw [statements_run, statements_run, List.map_append, List.map_append, h.statements]
  · rw [uniforms_run_eq, uniforms_run_eq, h.uniforms]
  · rw [functions_run_eq, functions_run_eq, h.functions]

/-- A new draft keeps, after any edits, the first of the uniforms and of the functions of each name.
Its shader binds all of these uniforms, and declares them on a line each. How the edits were
interleaved is not seen in the shader. -/
theorem finish_ignores_interleaving (config : Config) :
    (∀ edits, let d := ({ config } : Draft).run edits
      KeepsFirst (edits.filterMap Edit.uniform?) d.uniforms ∧
        KeepsFirst (edits.filterMap Edit.function?) d.functions ∧
        d.finish.uniforms.entries.Perm d.uniforms ∧
        ∃ rest, ({ d with uniforms := [] } : Draft).fragment = Chunks.constants ++ "\n" ++ rest ∧
          d.finish.fragment = Chunks.constants ++ "\n" ++
            (if d.uniforms = [] then ""
              else lines (d.uniforms.map uniformDeclaration) ++ "\n") ++ rest) ∧
      ∀ edits edits', Edit.Interleaved edits edits' →
        (({ config } : Draft).run edits).finish = (({ config } : Draft).run edits').finish := by
  refine ⟨fun edits => ?_, fun edits edits' => finish_of_interleaved _⟩
  intro d
  have huniforms : KeepsFirst (edits.filterMap Edit.uniform?) d.uniforms := by
    rw [uniforms_run_eq]
    exact keepsFirst_foldl_joinNew _
  have hfunctions : KeepsFirst (edits.filterMap Edit.function?) d.functions := by
    rw [functions_run_eq]
    exact keepsFirst_foldl_joinNew _
  exact ⟨huniforms, hfunctions, SortedMap.entries_ofList_perm huniforms.nodup, d.exists_fragment_eq⟩

/-- A sampler that is declared twice, a feature that is turned on twice, and a variable that is
declared by its text or by its parts. -/
theorem finish_ignores_interleaving_shuffled :
    let edits : List Edit :=
      [.enable .light, .uniform "map" ⟨"sampler2D", "a.png"⟩,
        .function "f" "float f() \x7b return 1.0; \x7d",
        .statement (.declare "float" "x" (.call "f" [])), .uniform "map" ⟨"samplerCube", "b.png"⟩,
        .enable .light]
    let edits' : List Edit :=
      [.statement (.verbatim "float x = f()"), .uniform "map" ⟨"sampler2D", "a.png"⟩,
        .uniform "map" ⟨"samplerCube", "b.png"⟩, .function "f" "float f() \x7b return 1.0; \x7d",
        .enable .light]
    Edit.Interleaved edits edits' ∧
      (({ config := {} } : Draft).run edits).uniforms = [("map", ⟨"sampler2D", "a.png"⟩)] ∧
      (({ config := {} } : Draft).run edits).finish =
        (({ config := {} } : Draft).run edits').finish := by
  intro edits edits'
  have h : Edit.Interleaved edits edits' := ⟨by decide, rfl, rfl, by simp [edits, edits']⟩
  exact ⟨h, by decide, (finish_ignores_interleaving {}).2 edits edits' h⟩

end Draft

end ShaderNodes
