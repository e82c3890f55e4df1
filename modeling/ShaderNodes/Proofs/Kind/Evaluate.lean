import Mathlib.Data.List.Forall2
import ShaderNodes.Kind

/-!
# What the kinds give

For each kind, the contribution of a node that is not skipped, and the inputs and settings it comes
from. Whatever is said of contributions is said of these, so that no other proof opens an
evaluation.
-/

namespace ShaderNodes

variable {node : Context} {inputs : Inputs} {c : Contribution}

theorem bind_ok {ε α β : Type} {x : Except ε α} {f : α → Except ε β} {b : β}
    (h : (x >>= f) = .ok b) : ∃ a, x = .ok a ∧ f a = .ok b := by
  cases x with
  | error e => cases h
  | ok a => exact ⟨a, rfl, h⟩

theorem Operator.evaluate_ok {n : Nat} {op : Operator (n + 1)}
    (h : op.evaluate node inputs = .ok c) :
    ∃ values type, op.template.resolve inputs = .ok values ∧
      op.resultType (values.map (·.type)) = some type ∧
      c = ⟨.ofList [(op.output, ⟨node.variableName op.name, type⟩)],
        [Value.declare ⟨node.variableName op.name, type⟩ (op.template.render values)]⟩ := by
  obtain ⟨values, hvalues, h⟩ := bind_ok h
  cases htype : op.resultType (values.map (·.type)) with
  | none =>
    simp only [htype] at h
    cases h
  | some type =>
    simp only [htype] at h
    exact ⟨values, type, hvalues, htype, (Except.ok.inj h).symm⟩

theorem Constant.evaluate_ok {type : SocketType} (h : Constant.evaluate type node = .ok c) :
    ∃ literal components, node.setting key = .ok literal ∧
      Literal.parse literal type.dimension = .ok components ∧
      c = ⟨.ofList [(key, ⟨node.variableName (name type), type⟩)],
        [Value.declare ⟨node.variableName (name type), type⟩ (expression type components)]⟩ := by
  obtain ⟨literal, hliteral, h⟩ := bind_ok h
  cases hparse : Literal.parse literal type.dimension with
  | error e =>
    simp only [hparse] at h
    cases h
  | ok components =>
    simp only [hparse] at h
    exact ⟨literal, components, hliteral, hparse, (Except.ok.inj h).symm⟩

namespace Texture

/-- The channels with the types that their components have. -/
def parts : List (Name × SocketType) :=
  [("rgba", .vec4), ("rgb", .vec3), ("r", .float), ("g", .float), ("b", .float), ("a", .float)]

/-- The value of a channel of a color. -/
def part (text : String) (p : Name × SocketType) : Value :=
  if p.1 = "rgba" then ⟨text, .vec4⟩ else ⟨text ++ "." ++ p.1, p.2⟩

theorem sockets_outputs : sockets.outputs = parts.map fun p => ⟨p.1, some p.2⟩ := by decide

/-- Each channel has as many components as some type, so that none is left out. -/
theorem outputs_eq (text : String) :
    outputs ⟨text, .vec4⟩ = .ofList (parts.map fun p => (p.1, part text p)) := rfl

end Texture

theorem Texture.evaluate_ok (h : Texture.evaluate node inputs = .ok c) :
    ∃ uv texture, Sampler.coordinates inputs = .ok uv ∧ node.setting Sampler.key = .ok texture ∧
      c = ⟨.ofList (parts.map fun p => (p.1, part (node.variableName name) p)),
        [Sampler.bind (node.variableName name) texture,
          Value.declare ⟨node.variableName name, .vec4⟩
            (Sampler.sample (Sampler.uniformName (node.variableName name)) uv)]⟩ := by
  obtain ⟨uv, huv, h⟩ := bind_ok h
  obtain ⟨texture, htexture, h⟩ := bind_ok h
  refine ⟨uv, texture, huv, htexture, ?_⟩
  rw [← outputs_eq]
  exact (Except.ok.inj h).symm

theorem NormalMap.evaluate_ok (h : NormalMap.evaluate node inputs = .ok c) :
    ∃ uv strength texture, Sampler.coordinates inputs = .ok uv ∧ scale inputs = .ok strength ∧
      node.setting Sampler.key = .ok texture ∧
      c = ⟨.ofList [("normal", ⟨node.variableName name, .vec3⟩)],
        [Sampler.bind (node.variableName name) texture,
          Value.declare ⟨node.variableName name, .vec3⟩
            (expression (Sampler.uniformName (node.variableName name)) uv strength),
          .enable .normal, .enable .position, .enable .normalMap]⟩ := by
  obtain ⟨uv, huv, h⟩ := bind_ok h
  obtain ⟨strength, hstrength, h⟩ := bind_ok h
  obtain ⟨texture, htexture, h⟩ := bind_ok h
  exact ⟨uv, strength, texture, huv, hstrength, htexture, (Except.ok.inj h).symm⟩

theorem Lighting.evaluate_ok {model : Lighting} (h : model.evaluate node inputs = .ok c) :
    ∃ values, inputs.require model.inputs = .ok values ∧
      c = ⟨.ofList [("color", ⟨node.variableName model.name, .vec3⟩)],
        [.function model.name model.source,
          .statement (.declare model.material (materialName (node.variableName model.name))
            (model.pack (values.take model.fields.length))),
          Value.declare ⟨node.variableName model.name, .vec3⟩
            (model.light (materialName (node.variableName model.name))
              (values.drop model.fields.length)),
          .enable .light, .enable .position]
          ++ if model.usesFresnel then [.enable .fresnel] else []⟩ := by
  obtain ⟨values, hvalues, h⟩ := bind_ok h
  exact ⟨values, hvalues, (Except.ok.inj h).symm⟩

theorem Definition.evaluate_ok {f : Definition} (h : f.evaluate node inputs = .ok c) :
    ∃ values, inputs.require f.parameters = .ok values ∧
      c = ⟨.ofList [("result", ⟨node.variableName f.name, f.returnType⟩)],
        [.function f.name f.source,
          Value.declare ⟨node.variableName f.name, f.returnType⟩
            (.call f.name (values.map fun v => .operand v.text))]⟩ := by
  obtain ⟨values, hvalues, h⟩ := bind_ok h
  exact ⟨values, hvalues, (Except.ok.inj h).symm⟩

/-! ## Where values come from -/

theorem exists_mem_of_forall₂ {α β : Type} {R : α → β → Prop} {l : List α} {l' : List β}
    (h : List.Forall₂ R l l') {b : β} (hb : b ∈ l') : ∃ a ∈ l, R a b := by
  induction h with
  | nil => cases hb
  | @cons a _ _ _ hr _ ih =>
    rcases List.mem_cons.1 hb with rfl | hb
    · exact ⟨a, .head _, hr⟩
    · obtain ⟨a', ha', hr'⟩ := ih hb
      exact ⟨a', .tail _ ha', hr'⟩

theorem Value.expect_ok {v w : Value} {name : Name} {type : SocketType}
    (h : v.expect name type = .ok w) : w = v ∧ v.type = type := by
  rw [expect] at h
  split at h <;> cases h
  rename_i htype
  exact ⟨rfl, htype⟩

namespace Inputs

theorem value_ok {name : Name} {v : Value} (h : inputs.value name = .ok v) :
    inputs.get? name = some v := by
  rw [value] at h
  split at h
  · rename_i hget
    rw [hget, Except.ok.inj h]
  · cases h

/-- Inputs that are gathered come in the order of the slots. -/
theorem gather_ok {slots : List Name} {values : List Value} (h : inputs.gather slots = .ok values) :
    List.Forall₂ (fun slot v => inputs.get? slot = some v) slots values := by
  induction slots generalizing values with
  | nil =>
    cases h
    exact .nil
  | cons slot rest ih =>
    rw [gather] at h
    split at h <;> cases h
    rename_i hget hrest
    exact .cons hget (ih hrest)

theorem get?_of_gather {slots : List Name} {values : List Value}
    (h : inputs.gather slots = .ok values) {v : Value} (hv : v ∈ values) :
    ∃ slot ∈ slots, inputs.get? slot = some v :=
  exists_mem_of_forall₂ (gather_ok h) hv

theorem get?_eq_some_get {name : Name} (h : inputs.contains name = true) :
    inputs.get? name = some (inputs.get name h) := (Option.some_get h).symm

theorem typed_ok {sockets : List (Name × SocketType)} {values : List Value}
    {hfed : ∀ s ∈ sockets, inputs.contains s.1 = true}
    (h : inputs.typed sockets hfed = .ok values) :
    List.Forall₂ (fun socket v => inputs.get? socket.1 = some v ∧
      v.type = socket.2) sockets values := by
  induction sockets generalizing values with
  | nil =>
    cases h
    exact .nil
  | cons socket rest ih =>
    obtain ⟨w, hw, h⟩ := bind_ok h
    obtain ⟨ws, hws, h⟩ := bind_ok h
    obtain rfl := Except.ok.inj h
    obtain ⟨rfl, htype⟩ := Value.expect_ok hw
    exact .cons ⟨get?_eq_some_get _, htype⟩ (ih hws)

theorem require_of_absent {sockets : List (Name × SocketType)} {skip : Skip}
    (h : Skip.ofAbsent (inputs.absent (sockets.map (·.1))) = some skip) :
    inputs.require sockets = .error skip := by
  unfold require
  split
  · rename_i hskip
    rw [Option.some.inj (hskip.symm.trans h)]
  · rename_i hnone
    cases hnone.symm.trans h

theorem require_of_present {sockets : List (Name × SocketType)}
    (h : inputs.absent (sockets.map (·.1)) = []) :
    inputs.require sockets = inputs.typed sockets (contains_of_absent h) := by
  unfold require
  split
  · rename_i hskip
    rw [h] at hskip
    cases hskip
  · rfl

/-- Inputs that are required come in the order of the sockets, each of the type of its socket. -/
theorem require_ok {sockets : List (Name × SocketType)} {values : List Value}
    (h : inputs.require sockets = .ok values) :
    List.Forall₂ (fun socket v => inputs.get? socket.1 = some v ∧
      v.type = socket.2) sockets values := by
  unfold require at h
  split at h
  · cases h
  · exact typed_ok h

theorem get?_of_require {sockets : List (Name × SocketType)} {values : List Value}
    (h : inputs.require sockets = .ok values) {v : Value} (hv : v ∈ values) :
    ∃ socket ∈ sockets, inputs.get? socket.1 = some v := by
  obtain ⟨socket, hsocket, hget, -⟩ := exists_mem_of_forall₂ (require_ok h) hv
  exact ⟨socket, hsocket, hget⟩

end Inputs

namespace Context

variable {key : String}

theorem setting_ok_iff {text : String} :
    node.setting key = .ok text ↔ node.data.get? key = some text ∧
    Text.isBlankText text = false := by
  rw [setting]
  cases node.data.get? key with
  | none => simp
  | some value =>
    simp only [Option.some.injEq]
    constructor
    · intro h
      split at h <;> cases h
      rename_i hblank
      exact ⟨rfl, by simpa using hblank⟩
    · rintro ⟨rfl, hblank⟩
      rw [if_neg (by simp [hblank])]

theorem eq_unset_of_setting {skip : Skip} (h : node.setting key = .error skip) :
    skip = .unset key := by
  rw [setting] at h
  split at h
  · exact (Except.error.inj h).symm
  · split at h
    · exact (Except.error.inj h).symm
    · cases h

end Context

theorem NormalMap.scale_ok {strength : Expr} (h : scale inputs = .ok strength) :
    strength = .plain "1.0" ∨
      ∃ v, inputs.get? "normalScale" = some v ∧ strength = .operand v.text := by
  rw [scale] at h
  split at h
  · exact .inl (Except.ok.inj h).symm
  · rename_i v hget
    cases hv : v.expect "normalScale" .float with
    | error e =>
      rw [hv] at h
      cases h
    | ok w =>
      rw [hv] at h
      exact .inr ⟨v, hget, by rw [← Except.ok.inj h, (Value.expect_ok hv).1]⟩

theorem Template.gather_of_resolve {n : Nat} {t : Template n} {values : Vector Value n}
    (h : t.resolve inputs = .ok values) : inputs.gather t.slots.toList = .ok values.toList := by
  rw [resolve] at h
  split at h
  · rename_i vs hgather
    rw [hgather, ← Except.ok.inj h]
    rfl
  · cases h
  · cases h

end ShaderNodes
