import ShaderNodes.Inputs
import ShaderNodes.Literal

/-!
# Constants

A constant node holds a literal in its static data and gives it at its output.
-/

namespace ShaderNodes.Constant

/-- The data key of the literal, and the output socket. -/
def key : Name := "value"

/-- The kind's name for constants of a type. -/
def name : SocketType → Name
  | .float => "ConstantFloat"
  | .vec2 => "ConstantVector2"
  | .vec3 => "ConstantVector3"
  | .vec4 => "ConstantVector4"

def sockets (type : SocketType) : Sockets where
  inputs := []
  outputs := [⟨key, some type⟩]
  controls := [.literal key type.dimension]

/-- The number itself, or the constructor of a vector. -/
def expression (type : SocketType) (components : List String) : Expr :=
  let numbers := ",".intercalate components
  if type = .float then .plain numbers
  else [.callee type.glsl, .plain ("(" ++ numbers ++ ")")]

def evaluate (type : SocketType) (node : Context) : Except Skip Contribution := do
  let literal ← node.setting key
  match Literal.parse literal type.dimension with
  | .error _ => .error (.unset key)
  | .ok components =>
    let value : Value := ⟨node.variableName (name type), type⟩
    pure ⟨.ofList [(key, value)], [value.declare (expression type components)]⟩

def perform (type : SocketType) (node : Context) : Writing Outputs := do
  let literal ← node.setting key
  let components ← (Literal.parse literal type.dimension).mapError fun _ => Skip.unset key
  let value ← Writing.declare (node.variableName (name type)) type (expression type components)
  pure (.ofList [(key, value)])

end ShaderNodes.Constant
