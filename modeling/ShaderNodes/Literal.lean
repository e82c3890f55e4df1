import ShaderNodes.Grammar.Error
import ShaderNodes.Socket

/-!
# Constant literals

The text of a constant: as many signed decimal numbers as its type has components, between commas. A
single number needs a fraction, so that it reads as a GLSL `float`.
-/

namespace ShaderNodes.Literal

open Grammar

/-- The pieces of a text between its commas. -/
def split (text : String) : List String := (text.toList.splitOn ',').map String.ofList

/-- The components of a literal of the given dimension. The grammar only says whether there are any;
the text is split without it. -/
def parse (text : String) (dimension : Nat) : Except Grammar.Error (List String) :=
  let chars := text.toList
  if (SocketType.ofDimension? dimension).isNone then
    .error ⟨.fault (.unsupportedDimension dimension) .literal, .point ⟨1, 1⟩⟩
  else do
    let rule := if dimension = 1 then Parser.scalarLiteral else Parser.vectorLiteral
    let pairs ← rule.parse chars
    let place := pairs.head?.map fun literal => Location.ofExtent chars literal.extent
    let components := split text
    if components.length = dimension then pure components
    else
      .error ⟨.fault (.arity dimension components.length) .literal, place.getD (.point ⟨1, 1⟩)⟩

end ShaderNodes.Literal
