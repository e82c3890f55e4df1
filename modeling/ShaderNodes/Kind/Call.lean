import ShaderNodes.Definition
import ShaderNodes.Inputs
import ShaderNodes.Text.Lines

/-!
# Calls of defined functions

A function definition is a node kind: its parameters are the inputs and its result the output. The
tone mapping curves are kinds of this sort.
-/

namespace ShaderNodes

namespace Definition

def sockets (f : Definition) : Sockets where
  inputs := f.parameters.map fun p => ⟨p.1, some p.2⟩
  outputs := [⟨"result", some f.returnType⟩]
  controls := []

def evaluate (f : Definition) (node : Context) (inputs : Inputs) : Except Skip Contribution := do
  let values ← inputs.require f.parameters
  let result : Value := ⟨node.variableName f.name, f.returnType⟩
  pure
    ⟨.ofList [("result", result)],
      [.function f.name f.source,
        result.declare (.call f.name (values.map fun v => .operand v.text))]⟩

def perform (f : Definition) (node : Context) (inputs : Inputs) : Writing Outputs := do
  let values ← inputs.require f.parameters
  let _ ← Writing.function f.name f.source
  let call := Expr.call f.name (values.map fun v => .operand v.text)
  let result ← Writing.declare (node.variableName f.name) f.returnType call
  pure (.ofList [("result", result)])

end Definition

namespace ToneMapping

open Text

/-- A curve over a color and an exposure, with the given lines as its body. -/
def curve (name : String) (body : List String) : Definition where
  returnType := .vec3
  name := name
  parameters := [("color", .vec3), ("exposure", .float)]
  source := "vec3 " ++ name ++ "(vec3 color, float exposure) \x7b\n" ++ lines body ++ "\x7d"

/-- Exposure only. -/
def linear : Definition := curve "LinearToneMapping" [
  "\treturn exposure * color;"]

/-- Reinhard's curve. -/
def reinhard : Definition := curve "ReinhardToneMapping" [
  "\tcolor *= exposure;",
  "\treturn clamp(color / (vec3(1.0) + color), 0.0, 1.0);"]

/-- A filmic curve that includes the gamma. -/
def optimizedCineon : Definition := curve "OptimizedCineonToneMapping" [
  "\tcolor *= exposure;",
  "\tcolor = max(vec3(0.0), color - 0.004);",
  "\treturn pow((color * (6.2 * color + 0.5)) / (color * (6.2 * color + 1.7) + 0.06), vec3(2.2));"]

/-- A fit to the ACES filmic curve. -/
def acesFilmic : Definition := curve "ACESFilmicToneMapping" [
  "\tcolor *= exposure;",
  "\treturn clamp((color * (2.51 * color + 0.03)) / (color * (2.43 * color + 0.59) + 0.14), 0.0, 1.0);"]

def all : List Definition := [linear, reinhard, optimizedCineon, acesFilmic]

end ToneMapping

end ShaderNodes
