import ShaderNodes.Proofs.Compiler.Scope
import ShaderNodes.Proofs.Kind.Perform

/-!
# What an evaluation does to a draft

The steps of a node are taken on a draft that others have written to. A node that is skipped leaves
the draft as it was; any other adds to its end, the same statements and the same features whatever
was there. Only whether a uniform or a function is added depends on the draft: it is not where its
name is taken.

* `Kind.uniform?`, `Kind.features`: what nodes of a kind bind and turn on.
* `Kind.edits_of_evaluate`, `Kind.run_of_evaluate`: the edits of a node, and what they add to a
  draft.
* `Kind.perform_appends`: a draft after the steps of a node.
-/

namespace ShaderNodes

open Text

/-! ## The lists of a pass -/

/-- The draft of a pass has one text for each function. -/
theorem Pass.Settled.functions_nodup {palette : Palette} {g : CheckedGraph} {placed : List NodeId}
    {pass : Pass} (h : pass.Settled palette g placed) : (pass.draft.functions.map (·.1)).Nodup := by
  rw [h.draft, Draft.functions_run_eq]
  exact nodup_foldl_joinNew _ List.nodup_nil

/-- The draft of a pass has one binding for each uniform. -/
theorem Pass.Settled.uniforms_nodup {palette : Palette} {g : CheckedGraph} {placed : List NodeId}
    {pass : Pass} (h : pass.Settled palette g placed) : (pass.draft.uniforms.map (·.1)).Nodup := by
  rw [h.draft, Draft.uniforms_run_eq]
  exact nodup_foldl_joinNew _ List.nodup_nil

/-! ## The edits of a node -/

namespace Kind

/-- The uniform that a node of a kind binds to its texture. -/
def uniform? (kind : Kind) (node : Context) : Option (Name × Binding) :=
  match kind with
  | .texture | .normalMap => (node.setting Sampler.key).toOption.map fun texture =>
      (Sampler.uniformName (node.variableName kind.name), ⟨"sampler2D", texture⟩)
  | _ => none

/-- A node binds the text of its data as it stands. -/
theorem uniform?_eq_some {kind : Kind} {node : Context} {u : Name × Binding}
    (h : kind.uniform? node = some u) :
    (kind = .texture ∨ kind = .normalMap) ∧
      u.1 = Role.sampler.name (node.variableName kind.name) ∧ u.2.type = "sampler2D" ∧
      node.data.get? Sampler.key = some u.2.texture := by
  have hsetting : ∀ {kind : Kind}, (node.setting Sampler.key).toOption.map (fun texture =>
      (Sampler.uniformName (node.variableName kind.name), Binding.mk "sampler2D" texture)) =
        some u →
      u.1 = Role.sampler.name (node.variableName kind.name) ∧ u.2.type = "sampler2D" ∧
        node.data.get? Sampler.key = some u.2.texture := by
    intro kind h
    obtain ⟨texture, htexture, rfl⟩ := Option.map_eq_some_iff.1 h
    refine ⟨rfl, rfl, ?_⟩
    cases hsetting : node.setting Sampler.key with
    | error skip =>
      rw [hsetting] at htexture
      cases htexture
    | ok value =>
      rw [hsetting] at htexture
      rw [(Context.setting_ok_iff.1 hsetting).1, Option.some.inj htexture]
  cases kind with
  | texture => exact ⟨.inl rfl, hsetting h⟩
  | normalMap => exact ⟨.inr rfl, hsetting h⟩
  | _ => cases h

/-- The features that a node of a kind turns on. -/
def features (kind : Kind) (node : Context) : List Feature :=
  match kind with
  | .geometry => (Geometry.attributes.filter fun a => node.isConnected a.output).map (·.feature)
  | .normalMap => [.normal, .position, .normalMap]
  | .lighting model => [.light, .position] ++ if model.usesFresnel then [.fresnel] else []
  | _ => []

variable {kind : Kind} {node : Context} {inputs : Inputs} {c : Contribution}

theorem edits_of_evaluate (h : kind.evaluate node inputs = .ok c) :
    c.edits.filterMap Edit.uniform? = (kind.uniform? node).toList ∧
      c.edits.filterMap Edit.function? = kind.shared?.toList ∧
      ∀ f, .enable f ∈ c.edits ↔ f ∈ kind.features node := by
  cases kind with
  | operator op =>
    obtain ⟨values, type, -, -, rfl⟩ := Operator.evaluate_ok h
    simp [Value.declare, Edit.uniform?, Edit.function?, uniform?, shared?, features]
  | constant type =>
    obtain ⟨literal, components, -, -, rfl⟩ := Constant.evaluate_ok h
    simp [Value.declare, Edit.uniform?, Edit.function?, uniform?, shared?, features]
  | geometry =>
    obtain rfl := Except.ok.inj h
    simp [Geometry.evaluate, Edit.uniform?, Edit.function?, uniform?, shared?, features]
  | fragColor =>
    obtain rfl := Except.ok.inj h
    simp [FragColor.evaluate, Edit.uniform?, Edit.function?, uniform?, shared?, features]
  | texture =>
    obtain ⟨uv, texture, -, htexture, rfl⟩ := Texture.evaluate_ok h
    simp [Sampler.bind, Value.declare, Edit.uniform?, Edit.function?, uniform?, shared?, features,
      htexture, Except.toOption, Kind.name]
  | normalMap =>
    obtain ⟨uv, strength, texture, -, -, htexture, rfl⟩ := NormalMap.evaluate_ok h
    simp [Sampler.bind, Value.declare, Edit.uniform?, Edit.function?, uniform?, shared?, features,
      htexture, Except.toOption, Kind.name]
  | lighting model =>
    obtain ⟨values, -, rfl⟩ := Lighting.evaluate_ok h
    cases hfresnel : model.usesFresnel <;>
      simp [Value.declare, Edit.uniform?, Edit.function?, uniform?, shared?, features, hfresnel]
  | function definition =>
    obtain ⟨values, -, rfl⟩ := Definition.evaluate_ok h
    simp [Value.declare, Edit.uniform?, Edit.function?, uniform?, shared?, features]

/-- What a node that is not skipped adds to a draft, beside its statements. -/
theorem run_of_evaluate (h : kind.evaluate node inputs = .ok c) (draft : Draft) :
    (draft.run c.edits).uniforms =
        draft.uniforms ++ ((kind.uniform? node).filter fun u => !draft.hasUniform u.1).toList ∧
      (draft.run c.edits).functions =
        draft.functions ++ (kind.shared?.filter fun f => !draft.hasFunction f.1).toList ∧
      ∀ f, (draft.run c.edits).features.isEnabled f = true ↔
        draft.features.isEnabled f = true ∨ f ∈ kind.features node := by
  obtain ⟨huniform, hfunction, hfeatures⟩ := edits_of_evaluate h
  refine ⟨?_, ?_, fun f => ?_⟩
  · rw [Draft.uniforms_run_eq, huniform, foldl_joinNew_toList]
    rfl
  · rw [Draft.functions_run_eq, hfunction, foldl_joinNew_toList]
    rfl
  · rw [Draft.isEnabled_run_iff, hfeatures]

end Kind

/-- A uniform has the name of its node, and the data of the node as its texture. -/
theorem Pass.Settled.exists_of_mem_uniforms {palette : Palette} {g : CheckedGraph}
    {placed : List NodeId} {pass : Pass} (h : pass.Settled palette g placed) {u : Name × Binding}
    (hu : u ∈ pass.draft.uniforms) :
      ∃ n node kind, g.nodes.get? n = some node ∧ palette.get? node.kind = some kind ∧
      (kind = .texture ∨ kind = .normalMap) ∧
      u.1 = Role.sampler.name (lowercase kind.name ++ "_" ++ mangle n) ∧ u.2.type = "sampler2D" ∧
      node.data.get? Sampler.key = some u.2.texture := by
  rw [h.draft, Draft.uniforms_run_eq] at hu
  obtain ⟨e, he, heu⟩ :=
    List.mem_filterMap.1 ((mem_of_mem_foldl_joinNew hu).resolve_left List.not_mem_nil)
  obtain ⟨n, -, he⟩ := List.mem_flatMap.1 he
  obtain ⟨c, hc, he⟩ := Graph.exists_of_mem_edits he
  obtain ⟨node, kind, hnode, hkind, heval⟩ := Graph.exists_of_contribution hc
  have hmem : u ∈ c.edits.filterMap Edit.uniform? := List.mem_filterMap.2 ⟨e, he, heu⟩
  rw [(Kind.edits_of_evaluate heval).1, Option.mem_toList] at hmem
  obtain ⟨hsampler, hname, hdata⟩ := Kind.uniform?_eq_some hmem
  rw [Context.variableName] at hname
  exact ⟨n, node, kind, hnode, hkind, hsampler, hname, hdata⟩

/-! ## Main result -/

namespace Kind

/-- The steps of a node of any kind give the same result and the same draft as its evaluation. It is
skipped, or gives its outputs, on the same grounds whatever was written and reported before. A skip
leaves the writer as it was. Otherwise the steps add given statements at the end of any draft, and
the uniform and the function of the node where their names are not taken, and turn on given
features. The turn of a node in a pass takes its steps on the draft of the pass. -/
theorem perform_appends (kind : Kind) (node : Context) (inputs : Inputs) :
    let on (w : Writer) := (kind.perform node inputs).runOn w
    (∀ w, ((on w).1, (on w).2.draft) = kind.evaluateOn node inputs w.draft) ∧
      (∀ w skip, (on w).1 = .error skip → (on w).2 = w) ∧
      (∀ w w', (on w).1 = (on w').1) ∧
      (∃ statements, ∀ w outputs, (on w).1 = .ok outputs →
        let after := (on w).2.draft
        after.config = w.draft.config ∧
          after.statements = w.draft.statements ++ statements ∧
          after.uniforms = w.draft.uniforms ++
            ((kind.uniform? node).filter fun u => !w.draft.hasUniform u.1).toList ∧
          after.functions = w.draft.functions ++
            (kind.shared?.filter fun f => !w.draft.hasFunction f.1).toList ∧
          ∀ f, after.features.isEnabled f = true ↔
            w.draft.features.isEnabled f = true ∨ f ∈ kind.features node) ∧
      ∀ (pass : Pass) (n : NodeId) (data : Node), pass.context n data = node →
        pass.inputs n kind = inputs →
        pass.turn n data kind = (pass.visit n data kind, pass.visitEvents n data kind) ∧
          (pass.visit n data kind).draft = (on { draft := pass.draft }).2.draft := by
  intro on
  have hon : ∀ w, on w = w.receive (kind.evaluate node inputs) := kind.runOn_perform node inputs
  have hturn : ∀ (pass : Pass) (n : NodeId) (data : Node), pass.context n data = node →
      pass.inputs n kind = inputs →
      pass.turn n data kind = (pass.visit n data kind, pass.visitEvents n data kind) ∧
        (pass.visit n data kind).draft = (on { draft := pass.draft }).2.draft := by
    rintro pass n data rfl rfl
    rw [hon, Pass.visit, Pass.evaluate]
    refine ⟨pass.turn_eq n data kind, ?_⟩
    cases kind.evaluate (pass.context n data) (pass.inputs n kind) with
    | error skip => rfl
    | ok c =>
      rw [Writer.receive, Writer.run_eq]
      rfl
  unfold evaluateOn
  simp only [hon] at hturn ⊢
  cases heval : kind.evaluate node inputs with
  | error skip =>
    rw [heval] at hturn
    refine ⟨fun _ => rfl, fun _ _ _ => rfl, fun _ _ => rfl, ⟨[], fun w outputs hok => ?_⟩, hturn⟩
    rw [Writer.receive] at hok
    cases hok
  | ok c =>
    rw [heval] at hturn
    refine ⟨fun w => ?_, fun w skip hskip => ?_, fun _ _ => rfl,
      ⟨c.statements, fun w outputs _ => ?_⟩, hturn⟩
    · rw [Writer.receive, Writer.run_eq]
    · rw [Writer.receive] at hskip
      cases hskip
    · rw [Writer.receive, Writer.run_eq]
      exact ⟨w.draft.config_run c.edits, w.draft.statements_run c.edits,
        run_of_evaluate heval w.draft⟩

end Kind

end ShaderNodes
