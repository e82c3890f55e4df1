import ShaderNodes.Draft.Writing
import ShaderNodes.Text.Blank
import ShaderNodes.Text.Lowercase
import ShaderNodes.Text.Mangled
import ShaderNodes.Text.Quoted

/-!
# What a node is evaluated on, and what it gives

A kind evaluates a node on its context and on the values of its inputs, and says so twice. `perform`
takes its checks and its additions to the draft one after another. `evaluate` does not see the
draft: it gives the values of the outputs and the edits to make, or the reason to skip the node.
Both say the same, so what a node adds does not depend on what came before.

* `Template.resolve` gathers the inputs of an expression, or all that are absent.
* `Inputs.require` gathers inputs of given types; absent ones come before mistyped ones.
-/

namespace ShaderNodes

/-- The values at the input sockets of a node. -/
abbrev Inputs := SortedMap Name Value

/-- The values at the output sockets of a node. -/
abbrev Outputs := SortedMap Name Value

/-- What a kind knows of a node. -/
structure Context where
  id : NodeId
  data : SortedMap String String
  /-- The outputs that feed an input. -/
  connected : List Name

namespace Context

/-- The name of the variable that a node of the given kind declares. -/
def variableName (node : Context) (kind : Name) : String :=
  Text.lowercase kind ++ "_" ++ Text.mangle node.id

/-- Static data that is set: there, and not blank. -/
def setting (node : Context) (key : String) : Except Skip String :=
  match node.data.get? key with
  | none => .error (.unset key)
  | some value => if Text.isBlankText value then .error (.unset key) else .ok value

def isConnected (node : Context) (output : Name) : Bool := node.connected.contains output

end Context

/-- What a node gives when it is evaluated. -/
structure Contribution where
  outputs : Outputs
  edits : List Edit

/-- The edit that declares a variable. -/
def Value.declare (v : Value) (value : Expr) : Edit :=
  .statement (.declare v.type.glsl v.text value)

/-! ## Expressions over inputs -/

/-- An expression over `n` inputs: the sockets they come from, and how they are put together. -/
structure Template (n : Nat) where
  slots : Vector Name n
  format : Vector Expr n → Expr

/-- The values at the given sockets, or all sockets without a value. -/
def Inputs.gather (inputs : Inputs) : List Name → Except (List Name) (List Value)
  | [] => .ok []
  | slot :: rest =>
    match inputs.get? slot, inputs.gather rest with
    | some v, .ok vs => .ok (v :: vs)
    | some _, .error absent => .error absent
    | none, .ok _ => .error [slot]
    | none, .error absent => .error (slot :: absent)

theorem Inputs.length_gather {inputs : Inputs} {slots : List Name} {vs : List Value}
    (h : inputs.gather slots = .ok vs) : vs.length = slots.length := by
  induction slots generalizing vs with
  | nil =>
    cases h
    rfl
  | cons slot rest ih =>
    rw [gather] at h
    split at h <;> cases h
    rename_i hrest
    simp [ih hrest]

namespace Template

variable {n : Nat}

/-- The values at the slots, by position. -/
def resolve (t : Template n) (inputs : Inputs) : Except Skip (Vector Value n) :=
  match h : inputs.gather t.slots.toList with
  | .ok vs => .ok ⟨vs.toArray, by simpa using Inputs.length_gather h⟩
  | .error [name] => .error (.missing .input name)
  | .error names => .error (.missingMany .input names)

/-- The expression over given values. -/
def render (t : Template n) (values : Vector Value n) : Expr :=
  t.format (values.map fun v => .operand v.text)

/-- The template as messages show it, with an expression over the slots themselves. -/
def shown (t : Template n) : String :=
  "Expression \x7b slots: " ++ Text.bracketed (t.slots.toList.map Text.quote) ++ ", sample: "
    ++ Text.quote (t.format (t.slots.map .operand)).text ++ " \x7d"

end Template

/-! ## Inputs of given types -/

/-- Refuses a value of another type. -/
def Value.expect (v : Value) (name : Name) (expected : SocketType) : Except Skip Value :=
  if v.type = expected then .ok v else .error (.invalidType name v.type expected)

namespace Inputs

/-- The value at a socket. -/
def value (inputs : Inputs) (name : Name) : Except Skip Value :=
  match inputs.get? name with
  | some v => .ok v
  | none => .error (.missing .input name)

/-- The given sockets without a value, in order. -/
def absent (inputs : Inputs) (names : List Name) : List Name := names.filter (!inputs.contains ·)

/-- The values of the given types at the given sockets, all of which have values. -/
def typed (inputs : Inputs) : (sockets : List (Name × SocketType)) →
    (∀ s ∈ sockets, inputs.contains s.1 = true) → Except Skip (List Value)
  | [], _ => .ok []
  | (name, type) :: rest, h => do
    let v ← (inputs.get name (h (name, type) (.head _))).expect name type
    let vs ← inputs.typed rest fun s hs => h s (.tail _ hs)
    pure (v :: vs)

theorem contains_of_absent {inputs : Inputs} {sockets : List (Name × SocketType)}
    (h : inputs.absent (sockets.map (·.1)) = []) : ∀ s ∈ sockets, inputs.contains s.1 = true := by
  intro s hs
  simpa using List.filter_eq_nil_iff.1 h s.1 (List.mem_map_of_mem hs)

/-- The values of the given types at the given sockets, in order. All absent ones are reported
before any type, so that each socket has a value when the types are looked at. -/
def require (inputs : Inputs) (sockets : List (Name × SocketType)) : Except Skip (List Value) :=
  match h : Skip.ofAbsent (inputs.absent (sockets.map (·.1))) with
  | some skip => .error skip
  | none => inputs.typed sockets (contains_of_absent (Skip.eq_nil_of_ofAbsent h))

end Inputs

end ShaderNodes
