import ShaderNodes.Inputs

/-!
# Textures

Nodes that sample a texture at given coordinates. The texture is named in the static data of the
node and bound to a uniform of its own.

* `Texture` gives the sampled color and its channels.
* `NormalMap` turns the interpolated normal by the sampled vector.
-/

namespace ShaderNodes

namespace Sampler

/-- The data key of the texture reference. -/
def key : String := "texture"

/-- The uniform of the node that declares the given variable. -/
def uniformName (variableName : String) : Name := variableName ++ "_map"

/-- The edit that binds a texture to the uniform. -/
def bind (variableName texture : String) : Edit :=
  .uniform (uniformName variableName) ⟨"sampler2D", texture⟩

/-- Binds the texture of a node to the uniform of its variable, and gives the uniform. -/
def perform (node : Context) (variableName : String) : Writing Name := do
  let texture ← node.setting key
  let sampler := uniformName variableName
  Writing.uniform sampler ⟨"sampler2D", texture⟩
  pure sampler

/-- The sample at given coordinates. -/
def sample (sampler : Name) (uv : Value) : Expr :=
  .call "texture2D" [.operand sampler, .operand uv.text]

/-- The texture coordinates. -/
def coordinates (inputs : Inputs) : Except Skip Value := do
  let uv ← inputs.value "uv"
  uv.expect "uv" .vec2

end Sampler

namespace Texture

def name : Name := "Texture"

/-- The outputs, each with the components of the color that it gives. -/
def channels : List (Name × String) :=
  [("rgba", "rgba"), ("rgb", "rgb"), ("r", "r"), ("g", "g"), ("b", "b"), ("a", "a")]

def sockets : Sockets where
  inputs := [⟨"uv", some .vec2⟩]
  outputs := channels.map fun c => ⟨c.1, SocketType.ofDimension? c.2.utf8ByteSize⟩
  controls := [.image Sampler.key]

/-- The channels of a color that have a value. -/
def outputs (color : Value) : Outputs :=
  .ofList <| channels.filterMap fun c =>
    (if c.2 = "rgba" then some color else color.swizzle c.2).map (c.1, ·)

def evaluate (node : Context) (inputs : Inputs) : Except Skip Contribution := do
  let uv ← Sampler.coordinates inputs
  let texture ← node.setting Sampler.key
  let color : Value := ⟨node.variableName name, .vec4⟩
  pure
    ⟨outputs color,
      [Sampler.bind color.text texture,
        color.declare (Sampler.sample (Sampler.uniformName color.text) uv)]⟩

def perform (node : Context) (inputs : Inputs) : Writing Outputs := do
  let uv ← Sampler.coordinates inputs
  -- Looked up before a uniform is declared, and again where it is bound.
  let _ ← node.setting Sampler.key
  let variableName := node.variableName name
  let sampler ← Sampler.perform node variableName
  let color ← Writing.declare variableName .vec4 (Sampler.sample sampler uv)
  pure (outputs color)

end Texture

namespace NormalMap

def name : Name := "NormalMap"

def sockets : Sockets where
  inputs := [⟨"uv", some .vec2⟩, ⟨"normalScale", some .float⟩]
  outputs := [⟨"normal", some .vec3⟩]
  controls := [.image Sampler.key]

/-- The strength of the map: an input, or one. -/
def scale (inputs : Inputs) : Except Skip Expr :=
  match inputs.get? "normalScale" with
  | none => .ok (.plain "1.0")
  | some v => (v.expect "normalScale" .float).map fun v => .operand v.text

/-- The turned normal. -/
def expression (sampler : Name) (uv : Value) (scale : Expr) : Expr :=
  .call "perturbNormal2Arb"
    [[.plain "-", .operand "vViewPosition"], .operand "normal",
      Sampler.sample sampler uv ++ .plain ".xyz * 2.0 - 1.0", .operand uv.text, scale]

def evaluate (node : Context) (inputs : Inputs) : Except Skip Contribution := do
  let uv ← Sampler.coordinates inputs
  let scale ← scale inputs
  let texture ← node.setting Sampler.key
  let normal : Value := ⟨node.variableName name, .vec3⟩
  pure
    ⟨.ofList [("normal", normal)],
      [Sampler.bind normal.text texture,
        normal.declare (expression (Sampler.uniformName normal.text) uv scale),
        .enable .normal, .enable .position, .enable .normalMap]⟩

def perform (node : Context) (inputs : Inputs) : Writing Outputs := do
  let uv ← Sampler.coordinates inputs
  let scale ← scale inputs
  let _ ← node.setting Sampler.key
  let variableName := node.variableName name
  let sampler ← Sampler.perform node variableName
  let normal ← Writing.declare variableName .vec3 (expression sampler uv scale)
  Writing.enable .normal
  Writing.enable .position
  Writing.enable .normalMap
  pure (.ofList [("normal", normal)])

end NormalMap

end ShaderNodes
