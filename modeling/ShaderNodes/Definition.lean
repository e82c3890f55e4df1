import ShaderNodes.Grammar.Error
import ShaderNodes.Socket
import ShaderNodes.Text.Blank

/-!
# Function definitions

A GLSL function whose result and parameters all have socket types. `Definition.parse` reads its
signature from the pairs of the grammar and keeps the text, without the blanks around it.
-/

namespace ShaderNodes

open Grammar

/-- The signature and the text of a GLSL function. -/
structure Definition where
  returnType : SocketType
  name : String
  parameters : List (Name × SocketType)
  source : String
  deriving DecidableEq, Repr

namespace Definition

/-- The error for a pair that is missing, or that does not say what its place asks for. -/
def malformed (reason : String) (part : Part) (place : Location) : Grammar.Error :=
  ⟨.fault (.malformed reason) part, place⟩

/-- The type that the text of a pair names. -/
def readType (text : List Char) (part : Part) (type : Pair) : Except Grammar.Error SocketType :=
  match SocketType.ofGlsl? type.text with
  | some t => .ok t
  | none =>
    .error (malformed (SocketType.unrecognized type.text) part (.ofExtent text type.extent))

/-- Reads parameters from left to right, after those in `earlier`, and refuses a name that came
before. Qualifiers say nothing about the type. -/
def readParameters (text : List Char) (earlier : List (Name × SocketType)) :
    List Pair → Except Grammar.Error (List (Name × SocketType))
  | [] => .ok earlier
  | parameter :: rest =>
    let place := Location.ofExtent text parameter.extent
    match parameter.inner.filter (·.rule ≠ .qualifier) with
    | type :: name :: _ =>
      if earlier.any (·.1 == name.text) then
        .error ⟨.fault (.redefinition name.text) .parameters, place⟩
      else
        match readType text .parameters type with
        | .error e => .error e
        | .ok t => readParameters text (earlier ++ [(name.text, t)]) rest
    | _ => .error (malformed "parameter" .parameters place)

/-- Reads a function definition. -/
def parse (source : String) : Except Grammar.Error Definition := do
  let text := source.toList
  match ← Parser.function.parse text with
  | [] => .error (malformed "function definition" .signature (.point ⟨1, 1⟩))
  | function :: _ =>
    match function.inner with
    | returnType :: name :: parameters :: _ => do
      let returnType ← readType text .signature returnType
      let parameters ← readParameters text [] parameters.inner
      pure ⟨returnType, name.text, parameters, Text.trim source⟩
    | _ => .error (malformed "function signature" .signature (.ofExtent text function.extent))

end Definition

end ShaderNodes
