import ShaderNodes.Compiler.Pass

/-!
# Evaluation step by step

`Kind.perform` takes the checks and the additions of a node one after another, on a writer that
holds whatever came before. No kind adds anything before its last check, and none looks at what it
adds to. So the steps end as `Kind.evaluate` says: with a skip and the writer as it was, or with all
edits made.

* `Writing.runOn_bind`, `Writing.runOn_edit`: what steps do to a writer.
* `Kind.runOn_perform`: the steps of a node are its evaluation.
* `Pass.turn_eq`: the turn of a node in a pass is its visit.
-/

namespace ShaderNodes

variable {α β : Type} {w : Writer} {node : Context} {inputs : Inputs}

/-! ## Writers -/

namespace Writer

/-- Makes additions one after another. -/
def run (w : Writer) (edits : List Edit) : Writer := edits.foldl apply w

theorem run_eq (w : Writer) (edits : List Edit) :
    w.run edits = ⟨w.draft.run edits, w.log ++ w.draft.runEvents edits⟩ := by
  induction edits generalizing w with
  | nil => simp [run, Draft.run, Draft.runEvents]
  | cons e edits ih =>
    rw [run, List.foldl_cons, ← run, ih, apply, Draft.runEvents, List.append_assoc]
    rfl

/-- The result of an evaluation, and the writer with its edits. -/
def receive (w : Writer) : Except Skip Contribution → Except Skip Outputs × Writer
  | .error skip => (.error skip, w)
  | .ok c => (.ok c.outputs, w.run c.edits)

end Writer

namespace Writing

theorem runOn_pure (a : α) : (pure a : Writing α).runOn w = (.ok a, w) := rfl

/-- A check gives its result and writes nothing. -/
theorem runOn_check (result : Except Skip α) :
    (liftM result : Writing α).runOn w = (result, w) := rfl

/-- The steps after a check that fails are not taken. -/
theorem runOn_bind (steps : Writing α) (rest : α → Writing β) :
    (steps >>= rest).runOn w =
      match steps.runOn w with
      | (.ok a, w) => (rest a).runOn w
      | (.error skip, w) => (.error skip, w) := by
  unfold runOn
  rw [ExceptT.run_bind, StateT.run_bind]
  rcases StateT.run steps.run w with ⟨_ | a, w'⟩ <;> rfl

theorem runOn_edit (e : Edit) : (edit e).runOn w = (.ok (), w.apply e) := rfl

theorem runOn_declare (name : String) (type : SocketType) (value : Expr) :
    (declare name type value).runOn w =
      (.ok ⟨name, type⟩, w.apply (Value.declare ⟨name, type⟩ value)) := rfl

/-- The function is there afterwards, whether or not its name was free. -/
theorem runOn_function (name : Name) (source : String) :
    (function name source).runOn w =
      (.ok !w.draft.hasFunction name, w.apply (.function name source)) := rfl

/-- Edits that are made while a list is walked are made in its order. -/
theorem runOn_mapM_edit (e : α → Edit) (f : α → β) (l : List α) (w : Writer) :
    (l.mapM fun a => do edit (e a); pure (f a) : Writing (List β)).runOn w =
      (.ok (l.map f), w.run (l.map e)) := by
  induction l generalizing w with
  | nil => rfl
  | cons a l ih =>
    simp only [List.mapM_cons, runOn_bind, runOn_edit, runOn_pure, ih]
    rfl

end Writing

/-! ## The kinds -/

open Writing

theorem Operator.runOn_perform {n : Nat} (op : Operator (n + 1)) :
    (op.perform node inputs).runOn w = w.receive (op.evaluate node inputs) := by
  simp only [perform, evaluate, runOn_bind, runOn_check]
  cases op.template.resolve inputs with
  | error skip => rfl
  | ok values =>
    dsimp only [bind, Except.bind]
    cases op.resultType (values.map (·.type)) <;> rfl

theorem Constant.runOn_perform (type : SocketType) :
    (perform type node).runOn w = w.receive (evaluate type node) := by
  simp only [perform, evaluate, runOn_bind, runOn_check]
  cases node.setting key with
  | error skip => rfl
  | ok literal =>
    dsimp only [bind, Except.bind]
    cases Literal.parse literal type.dimension <;> rfl

theorem Geometry.runOn_perform : (perform node).runOn w = w.receive (.ok (evaluate node)) := by
  simp only [perform, runOn_bind, enable, runOn_mapM_edit]
  rfl

theorem FragColor.runOn_perform : (perform inputs).runOn w = w.receive (.ok (evaluate inputs)) :=
  rfl

/-- The texture is looked up a second time, and found again. -/
theorem Sampler.runOn_perform {texture : String} (h : node.setting key = .ok texture)
    (variableName : String) :
    (perform node variableName).runOn w =
      (.ok (uniformName variableName), w.apply (bind variableName texture)) := by
  simp only [perform, runOn_bind, runOn_check, h]
  rfl

theorem Texture.runOn_perform : (perform node inputs).runOn w =
    w.receive (evaluate node inputs) := by
  simp only [perform, evaluate, runOn_bind, runOn_check]
  cases Sampler.coordinates inputs with
  | error skip => rfl
  | ok uv =>
    cases htexture : node.setting Sampler.key with
    | error skip => rfl
    | ok texture => simp only [Sampler.runOn_perform htexture]; rfl

theorem NormalMap.runOn_perform : (perform node inputs).runOn w =
    w.receive (evaluate node inputs) := by
  simp only [perform, evaluate, runOn_bind, runOn_check]
  cases Sampler.coordinates inputs with
  | error skip => rfl
  | ok uv =>
    cases scale inputs with
    | error skip => rfl
    | ok strength =>
      cases htexture : node.setting Sampler.key with
      | error skip => rfl
      | ok texture => simp only [Sampler.runOn_perform htexture]; rfl

theorem Lighting.runOn_perform (model : Lighting) :
    (model.perform node inputs).runOn w = w.receive (model.evaluate node inputs) := by
  simp only [perform, evaluate, runOn_bind, runOn_check]
  cases inputs.require model.inputs with
  | error skip => rfl
  | ok values =>
    simp only [List.splitAt_eq, runOn_function, runOn_declare, statement, runOn_edit]
    cases model.usesFresnel <;> rfl

theorem Definition.runOn_perform (f : Definition) :
    (f.perform node inputs).runOn w = w.receive (f.evaluate node inputs) := by
  simp only [perform, evaluate, runOn_bind, runOn_check, runOn_function, runOn_declare]
  cases inputs.require f.parameters <;> rfl

/-- The steps of a node of any kind come to what its evaluation gives. -/
theorem Kind.runOn_perform (kind : Kind) (node : Context) (inputs : Inputs) (w : Writer) :
    (kind.perform node inputs).runOn w = w.receive (kind.evaluate node inputs) := by
  cases kind with
  | operator op => exact op.runOn_perform
  | constant type => exact Constant.runOn_perform type
  | geometry => exact Geometry.runOn_perform
  | fragColor => exact FragColor.runOn_perform
  | texture => exact Texture.runOn_perform
  | normalMap => exact NormalMap.runOn_perform
  | lighting model => exact model.runOn_perform
  | function f => exact f.runOn_perform

/-! ## In a pass -/

/-- A node has its turn on the draft of the pass: its steps leave the pass as a visit does, and
report the same. -/
theorem Pass.turn_eq (pass : Pass) (n : NodeId) (node : Node) (kind : Kind) :
    pass.turn n node kind = (pass.visit n node kind, pass.visitEvents n node kind) := by
  simp only [turn, visit, visitEvents, evaluate, kind.runOn_perform]
  cases kind.evaluate (pass.context n node) (pass.inputs n kind) with
  | error skip => rfl
  | ok c =>
    simp only [Writer.receive, Writer.run_eq, List.nil_append]
    rfl

end ShaderNodes
