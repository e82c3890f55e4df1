import ShaderNodes.Proofs.Kind.Effect

/-!
# What an evaluation does not show

Two evaluations by one kind agree, up to some view of what they give, where they agree in what the
view shows of what they are given.

* `Kind.types_evaluate`: whether a node is skipped, and the types at its outputs, depend on the
  types at its inputs, its data and its connected outputs. The id of the node and the texts of the
  values do not show.
* `Kind.length_statements_of_evaluate`: how many statements a node emits depends on its kind.
* `Kind.unbound_evaluate`: of its data a node shows the literal of a constant, and whether a texture
  is set. Which texture it is shows in the binding only.
-/

namespace ShaderNodes

open Text

/-- Computations that agree up to a view, when what follows them does so on values of one view. -/
theorem map_bind_congr {ε α β γ δ : Type} {v : α → γ} {w : β → δ} {x y : Except ε α}
    {f g : α → Except ε β} (h : x.map v = y.map v)
    (hfg : ∀ a b, v a = v b → (f a).map w = (g b).map w) : (x >>= f).map w = (y >>= g).map w := by
  cases x with
  | error e =>
    cases y with
    | error e' =>
      obtain rfl := Except.error.inj h
      rfl
    | ok b => cases h
  | ok a =>
    cases y with
    | error e' => cases h
    | ok b => exact hfg a b (Except.ok.inj h)

/-! ## Types -/

/-- The type at an output. -/
def Contribution.typeAt (c : Contribution) (s : Name) : Option SocketType :=
  (c.outputs.get? s).map Value.type

/-- The same sockets have a value, and of the same type. -/
def Inputs.SameTypes (inputs inputs' : Inputs) : Prop :=
  ∀ s, (inputs.get? s).map Value.type = (inputs'.get? s).map Value.type

theorem Contribution.typeAt_congr {l l' : List (Name × Value)} {edits edits' : List Edit}
    (h : l.map (fun e => (e.1, e.2.type)) = l'.map fun e => (e.1, e.2.type)) :
    typeAt ⟨.ofList l, edits⟩ = typeAt ⟨.ofList l', edits'⟩ := by
  funext s
  rw [typeAt, typeAt, SortedMap.map_get?_ofList, SortedMap.map_get?_ofList, h]

section Types

variable {node node' : Context} {inputs inputs' : Inputs} (h : inputs.SameTypes inputs')

include h

theorem Inputs.types_gather (slots : List Name) :
    (inputs.gather slots).map (List.map Value.type) =
      (inputs'.gather slots).map (List.map Value.type) := by
  induction slots with
  | nil => rfl
  | cons slot rest ih =>
    have hslot := h slot
    rw [gather, gather]
    revert hslot ih
    cases inputs.get? slot <;> cases inputs'.get? slot <;> cases inputs.gather rest <;>
      cases inputs'.gather rest <;> simp +contextual [Except.map]

theorem Inputs.types_value (name : Name) :
    (inputs.value name).map Value.type = (inputs'.value name).map Value.type := by
  have hname := h name
  rw [value, value]
  revert hname
  cases inputs.get? name <;> cases inputs'.get? name <;> simp +contextual [Except.map]

omit h in
theorem Value.types_expect {v v' : Value} (h : v.type = v'.type) (name : Name) (type : SocketType) :
    (v.expect name type).map Value.type = (v'.expect name type).map Value.type := by
  rw [expect, expect, h]
  split
  · exact congrArg Except.ok h
  · rfl

theorem Inputs.types_typed (sockets : List (Name × SocketType))
    (hfed : ∀ s ∈ sockets, inputs.contains s.1 = true)
    (hfed' : ∀ s ∈ sockets, inputs'.contains s.1 = true) :
    (inputs.typed sockets hfed).map (List.map Value.type) =
      (inputs'.typed sockets hfed').map (List.map Value.type) := by
  induction sockets with
  | nil => rfl
  | cons socket rest ih =>
    have hfirst := h socket.1
    rw [get?_eq_some_get (hfed _ (.head _)), get?_eq_some_get (hfed' _ (.head _))] at hfirst
    refine map_bind_congr (Value.types_expect (Option.some.inj hfirst) _ _) fun w w' hw => ?_
    refine map_bind_congr (ih _ _) fun ws ws' hws => ?_
    exact congrArg Except.ok (congrArg₂ List.cons hw hws)

theorem Inputs.types_require (sockets : List (Name × SocketType)) :
    (inputs.require sockets).map (List.map Value.type) =
      (inputs'.require sockets).map (List.map Value.type) := by
  have hcontains : ∀ s, inputs.contains s = inputs'.contains s := fun s => by
    rw [SortedMap.contains, ← Option.isSome_map (f := Value.type), h s, Option.isSome_map,
      SortedMap.contains]
  have habsent : inputs.absent (sockets.map (·.1)) = inputs'.absent (sockets.map (·.1)) := by
    simp only [absent, hcontains]
  cases hskip : Skip.ofAbsent (inputs.absent (sockets.map (·.1))) with
  | some skip => rw [require_of_absent hskip, require_of_absent (habsent ▸ hskip)]
  | none =>
    have hnil := Skip.eq_nil_of_ofAbsent hskip
    rw [require_of_present hnil, require_of_present (habsent ▸ hnil)]
    exact types_typed h sockets _ _

theorem Template.types_resolve {n : Nat} (t : Template n) :
    (t.resolve inputs).map (Vector.map Value.type) =
      (t.resolve inputs').map (Vector.map Value.type) := by
  have hgather := Inputs.types_gather h t.slots.toList
  unfold resolve
  split <;> rename_i hleft <;> split <;> rename_i hright <;> rw [hleft, hright] at hgather
  · have hvalues := Except.ok.inj hgather
    simpa [Except.map, ← Vector.toList_inj] using hvalues
  all_goals grind [Except.map]

theorem Sampler.types_coordinates :
    (coordinates inputs).map Value.type = (coordinates inputs').map Value.type :=
  map_bind_congr (Inputs.types_value h "uv") fun _ _ hv => Value.types_expect hv "uv" .vec2

/-- The strength of a normal map is there or not by its type alone. -/
theorem NormalMap.types_scale :
    (scale inputs).map (fun _ => ()) = (scale inputs').map (fun _ => ()) := by
  have hscale := h "normalScale"
  unfold scale Value.expect
  revert hscale
  cases inputs.get? "normalScale" with
  | none => cases inputs'.get? "normalScale" <;> simp
  | some v =>
    cases inputs'.get? "normalScale" with
    | none => simp
    | some v' =>
      intro hscale
      have htype : v.type = v'.type := by simpa using hscale
      simp only [htype]
      split <;> rfl

theorem Operator.types_evaluate {n : Nat} (op : Operator (n + 1)) :
    (op.evaluate node inputs).map Contribution.typeAt =
      (op.evaluate node' inputs').map Contribution.typeAt := by
  refine map_bind_congr (Template.types_resolve h op.template) fun values values' hvalues => ?_
  change values.map (·.type) = values'.map (·.type) at hvalues
  simp only [hvalues]
  cases op.resultType (values'.map (·.type)) with
  | none => rfl
  | some type => exact congrArg Except.ok (Contribution.typeAt_congr rfl)

theorem Lighting.types_evaluate (model : Lighting) :
    (model.evaluate node inputs).map Contribution.typeAt =
      (model.evaluate node' inputs').map Contribution.typeAt :=
  map_bind_congr (Inputs.types_require h model.inputs) fun _ _ _ =>
    congrArg Except.ok (Contribution.typeAt_congr rfl)

theorem Definition.types_evaluate (f : Definition) :
    (f.evaluate node inputs).map Contribution.typeAt =
      (f.evaluate node' inputs').map Contribution.typeAt :=
  map_bind_congr (Inputs.types_require h f.parameters) fun _ _ _ =>
    congrArg Except.ok (Contribution.typeAt_congr rfl)

section Data

variable (hdata : node.data = node'.data)

include hdata

omit h in
theorem Context.setting_congr (key : String) : node.setting key = node'.setting key := by
  rw [setting, hdata, setting]

omit h in
theorem Constant.types_evaluate (type : SocketType) :
    (evaluate type node).map Contribution.typeAt =
      (evaluate type node').map Contribution.typeAt := by
  unfold evaluate
  rw [Context.setting_congr hdata]
  refine map_bind_congr (v := id) rfl fun literal literal' hliteral => ?_
  obtain rfl : literal = literal' := hliteral
  cases Literal.parse literal type.dimension with
  | error e => rfl
  | ok components => exact congrArg Except.ok (Contribution.typeAt_congr rfl)

theorem Texture.types_evaluate :
    (evaluate node inputs).map Contribution.typeAt =
      (evaluate node' inputs').map Contribution.typeAt := by
  refine map_bind_congr (Sampler.types_coordinates h) fun uv uv' _ => ?_
  rw [Context.setting_congr hdata]
  refine map_bind_congr (v := id) rfl fun _ _ _ => congrArg Except.ok (Contribution.typeAt_congr ?_)
  rfl

theorem NormalMap.types_evaluate :
    (evaluate node inputs).map Contribution.typeAt =
      (evaluate node' inputs').map Contribution.typeAt := by
  refine map_bind_congr (Sampler.types_coordinates h) fun uv uv' _ => ?_
  refine map_bind_congr (types_scale h) fun strength strength' _ => ?_
  rw [Context.setting_congr hdata]
  exact map_bind_congr (v := id) rfl fun _ _ _ => congrArg Except.ok (Contribution.typeAt_congr rfl)

/-- A node is skipped or evaluated, for the same reason and with the same types, whatever its id and
whatever its values are called. -/
theorem Kind.types_evaluate (kind : Kind) (hconnected : node.connected = node'.connected) :
    (kind.evaluate node inputs).map Contribution.typeAt =
      (kind.evaluate node' inputs').map Contribution.typeAt := by
  cases kind with
  | operator op => exact Operator.types_evaluate h op
  | constant type => exact Constant.types_evaluate hdata type
  | geometry =>
    refine congrArg Except.ok (congrArg Contribution.typeAt ?_)
    unfold Geometry.evaluate Context.isConnected
    rw [hconnected]
  | fragColor => rfl
  | texture => exact Texture.types_evaluate h hdata
  | normalMap => exact NormalMap.types_evaluate h hdata
  | lighting model => exact Lighting.types_evaluate h model
  | function definition => exact Definition.types_evaluate h definition

end Data

end Types

/-! ## Counts -/

namespace Kind

variable {kind : Kind} {node node' : Context} {inputs : Inputs} {c : Contribution}

/-- How many statements nodes of a kind emit. -/
def statementCount : Kind → Nat
  | geometry => 0
  | lighting _ => 2
  | _ => 1

theorem length_statements_of_evaluate (h : kind.evaluate node inputs = .ok c) :
    c.statements.length = kind.statementCount := by
  cases kind with
  | operator op =>
    obtain ⟨values, type, -, -, rfl⟩ := Operator.evaluate_ok h
    rfl
  | constant type =>
    obtain ⟨literal, components, -, -, rfl⟩ := Constant.evaluate_ok h
    rfl
  | geometry =>
    obtain rfl := Except.ok.inj h
    simp [Geometry.evaluate, Contribution.statements, Edit.statement?, statementCount]
  | fragColor =>
    obtain rfl := Except.ok.inj h
    rfl
  | texture =>
    obtain ⟨uv, texture, -, -, rfl⟩ := Texture.evaluate_ok h
    rfl
  | normalMap =>
    obtain ⟨uv, strength, texture, -, -, -, rfl⟩ := NormalMap.evaluate_ok h
    rfl
  | lighting model =>
    obtain ⟨values, -, rfl⟩ := Lighting.evaluate_ok h
    cases model <;> rfl
  | function definition =>
    obtain ⟨values, -, rfl⟩ := Definition.evaluate_ok h
    rfl

theorem features_congr (kind : Kind) (hconnected : node.connected = node'.connected) :
    kind.features node = kind.features node' := by
  unfold features Context.isConnected
  rw [hconnected]

end Kind

/-! ## Textures -/

/-- The binding without the texture. -/
def Binding.unbound (b : Binding) : Binding := { b with texture := "" }

/-- The edit, but for the texture that it binds. -/
def Edit.unbound : Edit → Edit
  | .uniform name binding => .uniform name binding.unbound
  | e => e

/-- The contribution, but for the texture that it binds. -/
def Contribution.unbound (c : Contribution) : Contribution :=
  { c with edits := c.edits.map Edit.unbound }

/-- There is data under the key, and it is not blank. -/
def IsSet (data : SortedMap String String) (key : String) : Prop :=
  ∃ text, data.get? key = some text ∧ isBlankText text = false

/-- Data that nodes of a kind do not tell apart, but for the texture that they bind. -/
def Kind.SameData (kind : Kind) (data data' : SortedMap String String) : Prop :=
  match kind with
  | .constant _ => data.get? Constant.key = data'.get? Constant.key
  | .texture | .normalMap => IsSet data Sampler.key ↔ IsSet data' Sampler.key
  | _ => True

namespace Context

variable {node node' : Context} {key : String}

/-- Whether a setting is there does not depend on what it is. -/
theorem map_setting (h : IsSet node.data key ↔ IsSet node'.data key) :
    (node.setting key).map (fun _ => ()) = (node'.setting key).map fun _ => () := by
  have hset : ∀ {node : Context}, IsSet node.data key ↔ ∃ text, node.setting key = .ok text :=
    exists_congr fun _ => setting_ok_iff.symm
  rw [hset, hset] at h
  cases hleft : node.setting key with
  | ok text =>
    obtain ⟨text', hright⟩ := h.1 ⟨text, hleft⟩
    rw [hright]
    rfl
  | error skip =>
    cases hright : node'.setting key with
    | ok text' =>
      obtain ⟨text, heq⟩ := h.2 ⟨text', hright⟩
      rw [hleft] at heq
      cases heq
    | error skip' => rw [eq_unset_of_setting hleft, eq_unset_of_setting hright]

end Context

/-- Of the data of a node only what its kind looks at shows in what it gives. The texture shows in
the binding, and nowhere else. -/
theorem Kind.unbound_evaluate (kind : Kind) {n : NodeId} {data data' : SortedMap String String}
    (connected : List Name) (inputs : Inputs) (h : kind.SameData data data') :
    (kind.evaluate ⟨n, data, connected⟩ inputs).map Contribution.unbound =
      (kind.evaluate ⟨n, data', connected⟩ inputs).map Contribution.unbound := by
  cases kind with
  | operator op => rfl
  | constant type =>
    have hsetting : Context.setting ⟨n, data, connected⟩ Constant.key =
        Context.setting ⟨n, data', connected⟩ Constant.key := by
      unfold Context.setting
      rw [show data.get? Constant.key = data'.get? Constant.key from h]
    unfold evaluate Constant.evaluate
    simp only [hsetting]
    rfl
  | geometry => rfl
  | fragColor => rfl
  | texture =>
    refine map_bind_congr (v := id) rfl fun uv uv' huv => ?_
    obtain rfl : uv = uv' := huv
    exact map_bind_congr (Context.map_setting h) fun _ _ _ => rfl
  | normalMap =>
    refine map_bind_congr (v := id) rfl fun uv uv' huv => ?_
    obtain rfl : uv = uv' := huv
    refine map_bind_congr (v := id) rfl fun strength strength' hstrength => ?_
    obtain rfl : strength = strength' := hstrength
    exact map_bind_congr (Context.map_setting h) fun _ _ _ => rfl
  | lighting model => rfl
  | function definition => rfl

end ShaderNodes
