import ShaderNodes.Proofs.Compiler.Scope
import ShaderNodes.Proofs.Definition
import ShaderNodes.Proofs.Draft.Sections

/-!
# The functions of the library, line by line

The functions that nodes of the standard palette share are sections of the fragment program. None of
their lines declares a varying or is the first line of a block or of a main function.

* `Draft.functionSection_eq_lines`: the section of a function, as lines.
* `Palette.quietText_shared`: all lines of the functions are quiet.
-/

namespace ShaderNodes

open Text Program

/-- A function that ends with a brace on a line of its own is a section as it stands. -/
theorem Draft.functionSection_eq_lines {name : Name} {source blanks : String} {l : List String}
    (hsource : source = lines l ++ "\x7d" ++ blanks) (hblanks : dropBlankEnd blanks.toList = []) :
    functionSection (name, source) = lines (l ++ ["\x7d"]) := by
  have htrim : trimEnd source = lines l ++ "\x7d" := by
    have hlist : source.toList = (lines l).toList ++ '\x7d' :: blanks.toList := by simp [hsource]
    rw [trimEnd, hlist, dropBlankEnd_append_cons _ _ (by decide), hblanks, ← String.toList_inj]
    simp
  rw [functionSection, htrim, lines_append]
  simp [lines, String.append_assoc]

theorem ToneMapping.quietText_curve {name : Name} {body : List String}
    (hheader : QuietLine (fun _ => false) ("vec3 " ++ name ++ "(vec3 color, float exposure) \x7b"))
    (hbody : ∀ x ∈ body, QuietLine (fun _ => false) x) :
    QuietText (fun _ => false) (Draft.functionSection (name, (curve name body).source)) := by
  have hsource : (curve name body).source =
      lines (("vec3 " ++ name ++ "(vec3 color, float exposure) \x7b") :: body) ++ "\x7d" ++ "" := by
    simp [curve, lines_cons, String.append_assoc]
  rw [Draft.functionSection_eq_lines hsource rfl]
  apply quietText_lines
  rw [List.forall_mem_append, List.forall_mem_cons]
  exact ⟨⟨hheader, hbody⟩, by decide⟩

namespace Lighting

variable (model : Lighting)

/-- The line of a field in the material struct. -/
def fieldText (f : Name × SocketType) : String := "\t" ++ f.2.glsl ++ " " ++ f.1 ++ ";"

/-- The line on which the lighting function begins. -/
def header : String :=
  "vec3 " ++ model.name ++ "(const in " ++ model.material
    ++ " material, const in vec3 normal, const in vec3 viewDir) \x7b"

/-- The text of a lighting function, line by line. -/
theorem source_eq_lines {helpers body : List String} (hhelpers : model.helpers = lines helpers)
    (hbody : model.body = lines body) : model.source =
      lines (["struct " ++ model.material ++ " \x7b"] ++ model.fields.map fieldText ++ ["\x7d;",
        ""] ++ helpers ++ [header model] ++ body) ++ "\x7d" ++ "\n" := by
  have hfields : String.join (model.fields.map fieldLine) = lines (model.fields.map fieldText) := by
    rw [lines, List.map_map]
    refine congrArg String.join (List.map_congr_left fun f _ => ?_)
    simp [fieldLine, fieldText, String.append_assoc]
  have hbrace : " \x7b\n" = " \x7b" ++ "\n" := by decide
  have hclose : "\x7d;\n\n" = "\x7d;" ++ "\n" ++ "\n" := by decide
  have hheader : " material, const in vec3 normal, const in vec3 viewDir) \x7b\n" =
      " material, const in vec3 normal, const in vec3 viewDir) \x7b" ++ "\n" := by decide
  have hend : "\x7d\n" = "\x7d" ++ "\n" := by decide
  have hnil : lines [] = "" := rfl
  unfold source
  simp only [hfields, hhelpers, hbody, hbrace, hclose, hheader, hend, hnil, header, lines_append,
    lines_cons, String.append_assoc, String.append_empty, String.empty_append]

theorem exists_helpers : ∃ l, model.helpers = lines l ∧ ∀ x ∈ l, QuietLine (fun _ => false) x := by
  cases model <;> refine ⟨_, rfl, ?_⟩
  all_goals
    repeat refine List.forall_mem_cons.2 ⟨quietLine_ofList rfl, ?_⟩
    exact List.forall_mem_nil _

theorem exists_body : ∃ l, model.body = lines l ∧ ∀ x ∈ l, QuietLine (fun _ => false) x := by
  cases model <;> refine ⟨_, rfl, ?_⟩
  all_goals
    repeat refine List.forall_mem_cons.2 ⟨quietLine_ofList rfl, ?_⟩
    exact List.forall_mem_nil _

theorem quietText_source :
    QuietText (fun _ => false) (Draft.functionSection (model.name, model.source)) := by
  obtain ⟨helpers, hhelpers, hquietHelpers⟩ := exists_helpers model
  obtain ⟨body, hbody, hquietBody⟩ := exists_body model
  have hmaterial :
      ∀ x ∈ ["struct " ++ model.material ++ " \x7b"] ++ model.fields.map fieldText ++ ["\x7d;", ""],
      QuietLine (fun _ => false) x := by
    cases model <;> decide +kernel
  have hheader : ∀ x ∈ [header model], QuietLine (fun _ => false) x := by
    cases model <;> decide +kernel
  rw [Draft.functionSection_eq_lines (source_eq_lines model hhelpers hbody) (by decide)]
  apply quietText_lines
  simp only [List.forall_mem_append] at hmaterial ⊢
  exact ⟨⟨⟨⟨hmaterial, hquietHelpers⟩, hheader⟩, hquietBody⟩, by decide⟩

end Lighting

/-- No function of the library has a line that reads like a block or a main function. -/
theorem Palette.quietText_shared {key : Name} {kind : Kind} (hkind : standard.get? key = some kind)
    {f : Name × String} (hf : kind.shared? = some f) :
    QuietText (fun _ => false) (Draft.functionSection f) := by
  cases kind with
  | lighting model =>
    obtain rfl := Option.some.inj hf
    exact Lighting.quietText_source model
  | function definition =>
    have hcurves : ∀ key kind, standard.get? key = some kind → ∀ d, kind = .function d →
        d ∈ ToneMapping.all := by
      refine forall_standard (fun k hk d hd => ?_) (fun d hd d' heq => Kind.function.inj heq ▸ hd)
      have hbuiltins : ∀ k ∈ builtins, ∀ d, k.2 ≠ .function d := by
        simp [builtins]
      exact absurd hd (hbuiltins k hk d)
    obtain rfl := Option.some.inj hf
    have hmem := hcurves key _ hkind definition rfl
    simp only [ToneMapping.all, List.mem_cons, List.not_mem_nil, or_false] at hmem
    rcases hmem with rfl | rfl | rfl | rfl
    all_goals
      refine ToneMapping.quietText_curve (by decide +kernel) ?_
      repeat refine List.forall_mem_cons.2 ⟨quietLine_ofList rfl, ?_⟩
      exact List.forall_mem_nil _
  | operator _ | constant _ | geometry | fragColor | texture | normalMap => cases hf

end ShaderNodes
