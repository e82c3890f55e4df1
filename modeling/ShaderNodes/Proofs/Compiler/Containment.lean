import ShaderNodes.Proofs.Compiler.Lifecycle
import ShaderNodes.Proofs.Kind.Confined
import ShaderNodes.Proofs.Kind.Effect

/-!
# What users can write

Ids, data and the names of sockets come from users. Whatever they are, and whatever a compiler is
called to do, no statement of a draft gets out of its place, and all names are identifiers.

* `Pass.IsConfined`: confined values and statements, and identifiers as names.
* `Pass.IsConfined.visit`, `Compiler.Confines.step`: a visit and a step keep this.
* `Compiler.statements_contained`: so it holds after any calls.
-/

namespace ShaderNodes

open Text

/-- Confined values and statements, and identifiers as names. -/
structure Pass.IsConfined (pass : Pass) : Prop where
  values : ∀ p v, pass.values.get? p = some v → v.IsConfined
  statements : ∀ s ∈ pass.draft.statements, Confined s.text.toList
  locals : ∀ x ∈ pass.draft.locals, isIdentifier x = true
  uniforms : ∀ u ∈ pass.draft.uniforms, isIdentifier u.1 = true

namespace Pass

theorem isConfined_start (number : UInt64) (g : CheckedGraph) (config : Config) :
    (start number g config).IsConfined where
  values p v hv := by cases hv
  statements := List.forall_mem_nil _
  locals := List.forall_mem_nil _
  uniforms := List.forall_mem_nil _

theorem IsConfined.withCursor {pass : Pass} (h : pass.IsConfined) (cursor : Nat) :
    IsConfined { pass with cursor } :=
  ⟨h.values, h.statements, h.locals, h.uniforms⟩

/-- What a node is handed is among the values of the pass. -/
theorem IsConfined.inputs {pass : Pass} (h : pass.IsConfined) {n : NodeId} {kind : Kind} {s : Name}
    {v : Value} (hv : (pass.inputs n kind).get? s = some v) : v.IsConfined := by
  rw [get?_inputs] at hv
  split at hv
  · obtain ⟨source, -, hsource⟩ := Option.bind_eq_some_iff.1 hv
    exact h.values source v hsource
  · cases hv

theorem IsConfined.absorb {pass : Pass} (h : pass.IsConfined) (n : NodeId) {c : Contribution}
    (hc : c.IsConfined) : (pass.absorb n c).IsConfined where
  values := by
    rintro ⟨m, s⟩ v hv
    rw [get?_absorb, Option.or_eq_some_iff] at hv
    rcases hv with hv | ⟨-, hv⟩
    · exact hc.outputs s v (Option.ite_none_right_eq_some.1 hv).2
    · exact h.values _ v hv
  statements s hs := by
    change s ∈ (pass.draft.run c.edits).statements at hs
    rw [Draft.statements_run] at hs
    exact (List.mem_append.1 hs).elim (h.statements s) (hc.statements s)
  locals x hx := by
    change x ∈ (pass.draft.run c.edits).locals at hx
    rw [Draft.locals, Draft.statements_run, List.filterMap_append] at hx
    exact (List.mem_append.1 hx).elim (h.locals x) (hc.locals x)
  uniforms u hu := by
    change u ∈ (pass.draft.run c.edits).uniforms at hu
    rw [Draft.uniforms_run_eq] at hu
    exact (mem_of_mem_foldl_joinNew hu).elim (h.uniforms u) (hc.uniforms u)

/-- A visit keeps a pass confined, whatever the node. -/
theorem IsConfined.visit {pass : Pass} (h : pass.IsConfined) (n : NodeId) (node : Node)
    {kind : Kind} (hkind : kind.Parsed) : (pass.visit n node kind).IsConfined := by
  rw [Pass.visit]
  cases heval : pass.evaluate n node kind with
  | error skip => exact h
  | ok c => exact h.absorb n (Kind.confined_of_evaluate hkind (fun s v => h.inputs) heval)

end Pass

namespace Compiler

/-- The kinds of the palette are built in or were read, and the pass, if there is one, is
confined. -/
structure Confines (c : Compiler) : Prop where
  kinds : ∀ key kind, c.palette.get? key = some kind → kind.Parsed
  pass : ∀ pass, c.stage.pass? = some pass → pass.IsConfined

variable {c : Compiler}

theorem Confines.step (h : c.Confines) : c.step.compiler.Confines := by
  have hstepped := c.stepped
  generalize c.step.compiler = next, c.step.result = result at hstepped ⊢
  cases hstepped with
  | inactive _ => exact h
  | completed _ => exact h
  | @exhausted pass hstage _ =>
    refine ⟨h.kinds, ?_⟩
    rintro _ ⟨⟩
    exact h.pass pass (by rw [hstage]; rfl)
  | @vanished pass n hstage _ _ | @unknown pass n _ hstage _ _ _ =>
    refine ⟨h.kinds, ?_⟩
    rintro _ ⟨⟩
    exact (h.pass pass (by rw [hstage]; rfl)).withCursor _
  | @visited pass n node kind hstage _ _ hkind =>
    refine ⟨h.kinds, ?_⟩
    rintro _ ⟨⟩
    exact ((h.pass pass (by rw [hstage]; rfl)).withCursor _).visit n node (h.kinds _ kind hkind)

theorem Confines.abort (h : c.Confines) : c.abort.compiler.Confines := by
  rw [Compiler.abort]
  cases hstage : c.stage with
  | running pass =>
    refine ⟨h.kinds, ?_⟩
    rintro _ ⟨⟩
  | idle | completed _ | aborted => exact ⟨h.kinds, h.pass⟩

theorem Confines.start (g : CheckedGraph) (h : c.Confines) : (c.start g).compiler.Confines := by
  cases hobjection : objection? c.palette g.toGraph with
  | some e =>
    rw [(start_of_objection hobjection).1]
    exact h.abort
  | none =>
    rw [(start_of_no_objection hobjection).1]
    refine ⟨h.kinds, ?_⟩
    rintro _ ⟨⟩
    exact Pass.isConfined_start ..

theorem Confines.performAll (h : c.Confines) (calls : List Call) :
    (c.performAll calls).Confines := by
  induction calls generalizing c with
  | nil => exact h
  | cons call calls ih =>
    refine ih (perform_keeps (Q := fun _ => True) (fun _ g _ => Confines.start g)
      (fun _ => Confines.step) (fun _ => Confines.abort) ?_ h)
    cases call <;> trivial

/-- Whatever the ids and the data of the graphs that a compiler is called on, and in every state of
a pass, no statement of the draft holds a line break, a semicolon, a brace or a number sign, nor the
beginning of a comment. The names of the uniforms and of the variables are identifiers. -/
theorem statements_contained {kinds : List (String × Kind)} {config : Config} {calls : List Call}
    {pass : Pass} (hkinds : ∀ k ∈ kinds, k.2.Parsed)
    (hpass : (performAll { palette := Palette.empty.registerAll kinds, config } calls).stage.pass? =
      some pass) :
    (∀ s ∈ pass.draft.statements,
      (∀ c ∈ ['\n', '\r', '\x0b', '\x0c', '\u0085', '\u2028', '\u2029', ';', '\x7b', '\x7d', '#'],
        c ∉ s.text.toList) ∧
        ¬ "//".toList <:+: s.text.toList ∧ ¬ "/*".toList <:+: s.text.toList) ∧
      (∀ u ∈ pass.draft.uniforms, isIdentifier u.1 = true) ∧
      ∀ x ∈ pass.draft.locals, isIdentifier x = true := by
  have hbegin : Confines { palette := Palette.empty.registerAll kinds, config } :=
    ⟨Palette.forall_registerAll nofun hkinds, nofun⟩
  have hconfined := (hbegin.performAll calls).pass pass hpass
  have hbreaks : ∀ c ∈ ['\n', '\r', '\x0b', '\x0c', '\u0085', '\u2028', '\u2029', ';', '\x7b',
      '\x7d', '#'], isInert c = false ∧ c ≠ '/' := by
    simp only [List.forall_mem_cons, List.not_mem_nil, false_implies, implies_true]
    decide
  refine ⟨fun s hs => ⟨fun c hc => ?_, ?_, ?_⟩, hconfined.uniforms, hconfined.locals⟩
  · exact (hconfined.statements s hs).not_mem (hbreaks c hc).1 (hbreaks c hc).2
  · exact (hconfined.statements s hs).not_isInfix (by decide)
  · exact (hconfined.statements s hs).not_isInfix (by decide)

/-- Ids and data that would end a statement or begin a comment. -/
def hostile : Graph where
  nodes :=
    .ofList [("//", ⟨"Divide", .empty⟩), ("a/*", ⟨"ConstantFloat", .ofList [("value", "2.5")]⟩),
    ("t;\n", ⟨"Texture", .ofList [("#", "\x7d"), ("texture", "*/ #\n")]⟩),
    ("é", ⟨"Geometry", .empty⟩)]
  links :=
    .ofList [(⟨"a/*", "value"⟩, [⟨"//", "a"⟩, ⟨"//", "b"⟩]), (⟨"é", "uv0"⟩, [⟨"t;\n", "uv"⟩])]

def hostileChecked : CheckedGraph where
  toGraph := hostile
  order := ["a/*", "//", "é", "t;\n"]
  producers := .ofList [(⟨"//", "a"⟩, ⟨"a/*", "value"⟩), (⟨"//", "b"⟩, ⟨"a/*", "value"⟩),
    (⟨"t;\n", "uv"⟩, ⟨"é", "uv0"⟩)]

theorem statements_contained_hostile :
    let kinds := Palette.builtins ++ ToneMapping.all.map fun f => ("ToneMapping", Kind.function f)
    let c : Compiler := { palette := Palette.empty.registerAll kinds, config := {} }
    (∀ k ∈ kinds, k.2.Parsed) ∧ hostile.check = .ok hostileChecked ∧
      ∃ pass, (c.performAll [.start hostileChecked, .step, .step, .step, .step]).stage.pass? =
        some pass ∧ pass.draft.statements.map Statement.text =
          ["float constantfloat_a_x2f_x2a = 2.5",
            "float divide__x2f_x2f = constantfloat_a_x2f_x2a / constantfloat_a_x2f_x2a",
            "vec4 texture_t_x3b_x0a = texture2D(texture_t_x3b_x0a_map, vUv)"] ∧
        (∀ s ∈ pass.draft.statements, ¬ "/*".toList <:+: s.text.toList) ∧
        ∀ u ∈ pass.draft.uniforms, isIdentifier u.1 = true := by
  intro kinds c
  have htexts : (c.performAll [.start hostileChecked, .step, .step, .step, .step]).stage.pass?.map
      (·.draft.statements.map Statement.text) =
        some ["float constantfloat_a_x2f_x2a = 2.5",
          "float divide__x2f_x2f = constantfloat_a_x2f_x2a / constantfloat_a_x2f_x2a",
          "vec4 texture_t_x3b_x0a = texture2D(texture_t_x3b_x0a_map, vUv)"] := by decide +kernel
  obtain ⟨pass, hpass, htexts⟩ := Option.map_eq_some_iff.1 htexts
  obtain ⟨hstatements, huniforms, -⟩ := statements_contained Palette.parsed_standard hpass
  exact ⟨Palette.parsed_standard, rfl, pass, hpass, htexts, fun s hs => (hstatements s hs).2.2,
    huniforms⟩

end Compiler

end ShaderNodes
