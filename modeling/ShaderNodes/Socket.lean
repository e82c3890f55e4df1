/-!
# Sockets and the values they carry

A node is joined to others at its sockets. A socket carries a GLSL value of one of four types, or of
any of them where its kind leaves the type open. `Sockets` is the interface a kind declares.
-/

namespace ShaderNodes

/-- The name of a socket or of a node kind. -/
abbrev Name := String

/-- The types of the values that travel along links. -/
inductive SocketType where
  | float
  | vec2
  | vec3
  | vec4
  deriving DecidableEq, Repr, Inhabited

namespace SocketType

/-- All types, from the narrowest to the widest. -/
def all : List SocketType := [float, vec2, vec3, vec4]

/-- The number of components. -/
def dimension : SocketType → Nat
  | float => 1
  | vec2 => 2
  | vec3 => 3
  | vec4 => 4

/-- The GLSL keyword. -/
def glsl : SocketType → String
  | float => "float"
  | vec2 => "vec2"
  | vec3 => "vec3"
  | vec4 => "vec4"

/-- The name of the type in messages. -/
def label : SocketType → String
  | float => "Float"
  | vec2 => "Vec2"
  | vec3 => "Vec3"
  | vec4 => "Vec4"

/-- The type with the given number of components. -/
def ofDimension? : Nat → Option SocketType
  | 1 => some float
  | 2 => some vec2
  | 3 => some vec3
  | 4 => some vec4
  | _ => none

/-- The type with the given GLSL keyword. -/
def ofGlsl? (s : String) : Option SocketType := all.find? (·.glsl == s)

/-- The message for a word that is no type. -/
def unrecognized (s : String) : String := "Unrecognized socket type `" ++ s ++ "`."

/-- The wider of two types. -/
def widest (a b : SocketType) : SocketType := if a.dimension ≤ b.dimension then b else a

theorem ofGlsl?_glsl (t : SocketType) : ofGlsl? t.glsl = some t := by
  cases t <;> rfl

end SocketType

/-- A value of the generated program: the text that reads it, and its type. -/
structure Value where
  text : String
  type : SocketType
  deriving DecidableEq, Repr, Inhabited

/-- The value of some components of a value. Their number is the byte length of their text. -/
def Value.swizzle (v : Value) (components : String) : Option Value :=
  (SocketType.ofDimension? components.utf8ByteSize).map fun t =>
    ⟨v.text ++ "." ++ components, t⟩

/-- The two sides of a node. -/
inductive Side where
  | input
  | output
  deriving DecidableEq, Repr

/-- The name of the side in messages. -/
def Side.label : Side → String
  | input => "Input"
  | output => "Output"

/-- A declared socket; without a type it takes any. -/
structure SocketDecl where
  name : Name
  type : Option SocketType
  deriving DecidableEq, Repr

/-- A control by which the user of an editor sets static data of a node. -/
inductive Control where
  /-- A literal of `dimension` numbers under `key`. -/
  | literal (key : String) (dimension : Nat)
  /-- A texture reference under `key`. -/
  | image (key : String)
  deriving DecidableEq, Repr

/-- The interface of a node kind. -/
structure Sockets where
  inputs : List SocketDecl
  outputs : List SocketDecl
  controls : List Control
  deriving DecidableEq, Repr

namespace Sockets

/-- The sockets declared on a side. -/
def on (sockets : Sockets) : Side → List SocketDecl
  | .input => sockets.inputs
  | .output => sockets.outputs

/-- The first socket of a name on a side. -/
def find? (sockets : Sockets) (side : Side) (name : Name) : Option SocketDecl :=
  (sockets.on side).find? (·.name == name)

end Sockets

end ShaderNodes
