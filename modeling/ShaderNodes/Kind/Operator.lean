import ShaderNodes.Inputs

/-!
# Operators

Arithmetic and vector functions over inputs of any type. The type of the result follows from the
types of the operands:

* sums, differences, products and quotients take operands of one type, or a scalar beside any;
* `dot` and `cross` take operands of one type;
* `mix` takes two of one type, and a scalar or a third of that type.
-/

namespace ShaderNodes

/-- The operators of `n` operands. -/
inductive Operator : Nat → Type where
  | add : Operator 2
  | subtract : Operator 2
  | multiply : Operator 2
  | divide : Operator 2
  | dot : Operator 2
  | cross : Operator 2
  | mix : Operator 3

namespace Operator

variable {n : Nat}

def name : Operator n → Name
  | add => "Add"
  | subtract => "Subtract"
  | multiply => "Multiply"
  | divide => "Divide"
  | dot => "Dot"
  | cross => "Cross"
  | mix => "Mix"

/-- The output socket. -/
def output : Operator n → Name
  | mix => "d"
  | _ => "c"

/-- `a op b` over the inputs `a` and `b`. -/
def symbolic (op : String) : Template 2 := ⟨#v["a", "b"], fun args => .binary op args[0] args[1]⟩

/-- `f(a, …)` over the given inputs. -/
def calling (f : String) (slots : Vector Name n) : Template n :=
  ⟨slots, fun args => .call f args.toList⟩

def template : Operator n → Template n
  | add => symbolic "+"
  | subtract => symbolic "-"
  | multiply => symbolic "*"
  | divide => symbolic "/"
  | dot => calling "dot" #v["a", "b"]
  | cross => calling "cross" #v["a", "b"]
  | mix => calling "mix" #v["a", "b", "c"]

/-- The type of equal operands, or of the wider one beside a scalar. -/
def broadcast (a b : SocketType) : Option SocketType :=
  if a = b ∨ a = .float ∨ b = .float then some (a.widest b) else none

/-- The type of the result, if the operands go together. -/
def resultType : Operator n → Vector SocketType n → Option SocketType
  | add, ts => broadcast ts[0] ts[1]
  | subtract, ts => broadcast ts[0] ts[1]
  | multiply, ts => broadcast ts[0] ts[1]
  | divide, ts => broadcast ts[0] ts[1]
  | dot, ts => if ts[0] = ts[1] then some .float else none
  | cross, ts => if ts[0] = ts[1] then some ts[0] else none
  | mix, ts =>
    if ts[0] = ts[1] ∧ (ts[2] = .float ∨ ts[2] = ts[0]) then some ts[0] else none

/-- The skip for operands that do not go together: the first one, and the first of another type, or
else the last. -/
def mismatch (slots : Vector Name (n + 1)) (types : Vector SocketType (n + 1)) : Skip :=
  let operands := slots.zip types
  let first := operands[0]
  let second := (operands.toList.tail.find? (·.2 ≠ first.2)).getD operands[n]
  .mismatchedTypes first second

def sockets (op : Operator n) : Sockets where
  inputs := op.template.slots.toList.map (⟨·, none⟩)
  outputs := [⟨op.output, none⟩]
  controls := []

def evaluate (op : Operator (n + 1)) (node : Context) (inputs : Inputs) :
    Except Skip Contribution := do
  let values ← op.template.resolve inputs
  let types := values.map (·.type)
  match op.resultType types with
  | none => .error (mismatch op.template.slots types)
  | some type =>
    let result : Value := ⟨node.variableName op.name, type⟩
    pure ⟨.ofList [(op.output, result)], [result.declare (op.template.render values)]⟩

def perform (op : Operator (n + 1)) (node : Context) (inputs : Inputs) : Writing Outputs := do
  let values ← op.template.resolve inputs
  let types := values.map (·.type)
  let some type := op.resultType types | throw (mismatch op.template.slots types)
  let result ← Writing.declare (node.variableName op.name) type (op.template.render values)
  pure (.ofList [(op.output, result)])

end Operator

end ShaderNodes
