import ShaderNodes.Proofs.Kind.Evaluate
import ShaderNodes.Proofs.SortedMap

/-!
# What nodes give at their outputs

A kind declares its outputs in one place and gives their values in another. The two agree: a node
that is evaluated has values at the outputs that its kind declares, of the types that it declares
for them, and at no other. Of geometry these are the outputs that feed something.

* `Fills`: values at given sockets and at no other, each of a type that its socket takes.
* `Kind.fills_of_evaluate`: an evaluation fills the live outputs of a node.
* `Kind.find?_output`: a kind declares no output twice.
-/

namespace ShaderNodes

/-- The value is of the type that the socket asks for, if it asks for one. -/
def SocketDecl.Admits (socket : SocketDecl) (v : Value) : Prop :=
  ∀ type, socket.type = some type → v.type = type

/-- Values at the given sockets and at no other, each of a type that its socket takes. -/
structure Fills (outputs : Outputs) (sockets : List SocketDecl) : Prop where
  admits : ∀ s v, outputs.get? s = some v → ∃ socket ∈ sockets, socket.name = s ∧ socket.Admits v
  present : ∀ socket ∈ sockets, ∃ v, outputs.get? socket.name = some v

theorem fills_ofList {α : Type} {l : List α} (socket : α → SocketDecl) (value : α → Value)
    (hnames : (l.map fun a => (socket a).name).Nodup) (h : ∀ a ∈ l, (socket a).Admits (value a)) :
    Fills (.ofList (l.map fun a => ((socket a).name, value a))) (l.map socket) where
  admits s v hget := by
    obtain ⟨a, ha, heq⟩ := List.mem_map.1 (SortedMap.mem_of_get?_ofList hget)
    obtain ⟨rfl, rfl⟩ := Prod.mk.inj heq
    exact ⟨socket a, List.mem_map.2 ⟨a, ha, rfl⟩, rfl, h a ha⟩
  present := by
    intro _ hsocket
    obtain ⟨a, ha, rfl⟩ := List.mem_map.1 hsocket
    have hkeys : ((l.map fun a => ((socket a).name, value a)).map (·.1)).Nodup := by
      rwa [List.map_map]
    exact ⟨value a, (SortedMap.get?_ofList_eq_some_iff hkeys).2 (List.mem_map.2 ⟨a, ha, rfl⟩)⟩

theorem fills_single {v : Value} (socket : SocketDecl) (h : socket.Admits v) :
    Fills (.ofList [(socket.name, v)]) [socket] :=
  fills_ofList (l := [v]) (fun _ => socket) id (List.nodup_singleton _)
    (List.forall_mem_singleton.2 h)

namespace SocketDecl.Admits

variable {name : Name} {v : Value}

theorem untyped : Admits ⟨name, none⟩ v := by
  rintro _ ⟨⟩

theorem of_type {type : SocketType} (h : v.type = type) : Admits ⟨name, some type⟩ v := by
  rintro _ ⟨⟩
  exact h

end SocketDecl.Admits

theorem Texture.type_part {text : String} {p : Name × SocketType} (h : p ∈ parts) :
    (part text p).type = p.2 := by
  simp only [parts, List.mem_cons, List.not_mem_nil, or_false] at h
  rcases h with rfl | rfl | rfl | rfl | rfl | rfl <;> rfl

namespace Kind

/-- The outputs at which a node gives values. -/
def live (kind : Kind) (node : Context) : List SocketDecl :=
  match kind with
  | geometry => Geometry.sockets.outputs.filter (node.isConnected ·.name)
  | _ => kind.sockets.outputs

theorem live_of_ne_geometry {kind : Kind} (node : Context) (h : kind ≠ geometry) :
    kind.live node = kind.sockets.outputs := by
  cases kind with
  | geometry => exact absurd rfl h
  | _ => rfl

theorem live_subset {kind : Kind} {node : Context} {socket : SocketDecl}
    (h : socket ∈ kind.live node) : socket ∈ kind.sockets.outputs := by
  by_cases hkind : kind = geometry
  · subst hkind
    exact (List.mem_filter.1 h).1
  · rwa [live_of_ne_geometry node hkind] at h

theorem outputs_nodup (kind : Kind) : (kind.sockets.outputs.map (·.name)).Nodup := by
  cases kind with
  | geometry => decide
  | texture => decide
  | fragColor => exact List.nodup_nil
  | _ => exact List.nodup_singleton _

theorem find?_output {kind : Kind} {socket : SocketDecl} (h : socket ∈ kind.sockets.outputs) :
    kind.sockets.find? .output socket.name = some socket := by
  change kind.sockets.outputs.find? (·.name == socket.name) = some socket
  cases hfind : kind.sockets.outputs.find? (·.name == socket.name) with
  | none => simpa using List.find?_eq_none.1 hfind socket h
  | some found =>
    have hname : found.name = socket.name := by simpa using List.find?_some hfind
    exact congrArg some
      (List.inj_on_of_nodup_map kind.outputs_nodup (List.mem_of_find?_eq_some hfind) h hname)

/-- An evaluation gives a value at each live output, of its type, and at no other. -/
theorem fills_of_evaluate {kind : Kind} {node : Context} {inputs : Inputs} {c : Contribution}
    (h : kind.evaluate node inputs = .ok c) : Fills c.outputs (kind.live node) := by
  cases kind with
  | operator op =>
    obtain ⟨values, type, -, -, rfl⟩ := Operator.evaluate_ok h
    exact fills_single ⟨op.output, none⟩ .untyped
  | constant type =>
    obtain ⟨literal, components, -, -, rfl⟩ := Constant.evaluate_ok h
    exact fills_single ⟨Constant.key, some type⟩ (.of_type rfl)
  | geometry =>
    obtain rfl : Geometry.evaluate node = c := Except.ok.inj h
    have hnames : (Geometry.attributes.map (·.output)).Nodup := by decide
    rw [live, Geometry.sockets, List.filter_map]
    exact fills_ofList (fun a : Geometry.Attribute => ⟨a.output, some a.value.type⟩) (·.value)
      (hnames.sublist (List.filter_sublist.map _)) fun a _ => .of_type rfl
  | fragColor =>
    obtain rfl : FragColor.evaluate inputs = c := Except.ok.inj h
    exact ⟨by rintro _ _ ⟨⟩, List.forall_mem_nil _⟩
  | texture =>
    obtain ⟨uv, texture, -, -, rfl⟩ := Texture.evaluate_ok h
    change Fills _ Texture.sockets.outputs
    rw [Texture.sockets_outputs]
    exact fills_ofList (fun p => ⟨p.1, some p.2⟩) (Texture.part _) (by decide)
      fun p hp => .of_type (Texture.type_part hp)
  | normalMap =>
    obtain ⟨uv, strength, texture, -, -, -, rfl⟩ := NormalMap.evaluate_ok h
    exact fills_single ⟨"normal", some .vec3⟩ (.of_type rfl)
  | lighting model =>
    obtain ⟨values, -, rfl⟩ := Lighting.evaluate_ok h
    exact fills_single ⟨"color", some .vec3⟩ (.of_type rfl)
  | function f =>
    obtain ⟨values, -, rfl⟩ := Definition.evaluate_ok h
    exact fills_single ⟨"result", some f.returnType⟩ (.of_type rfl)

end Kind

end ShaderNodes
