import ShaderNodes.Inputs

/-!
# Geometry

The attributes of the surface, interpolated from the vertices. Only the outputs that feed something
turn their feature on.
-/

namespace ShaderNodes.Geometry

/-- An attribute: its output socket, the value it gives, and the feature it needs. -/
structure Attribute where
  output : Name
  value : Value
  feature : Feature
  deriving DecidableEq, Repr

def attributes : List Attribute :=
  [⟨"position", ⟨"vViewPosition", .vec3⟩, .position⟩,
    ⟨"normal", ⟨"normal", .vec3⟩, .normal⟩,
    ⟨"uv0", ⟨"vUv", .vec2⟩, .uv⟩]

def name : Name := "Geometry"

def sockets : Sockets where
  inputs := []
  outputs := attributes.map fun a => ⟨a.output, some a.value.type⟩
  controls := []

/-- The attributes that feed something. -/
def evaluate (node : Context) : Contribution :=
  let used := attributes.filter fun a => node.isConnected a.output
  ⟨.ofList (used.map fun a => (a.output, a.value)), used.map (.enable ·.feature)⟩

def perform (node : Context) : Writing Outputs := do
  let values ← (attributes.filter fun a => node.isConnected a.output).mapM fun a => do
    Writing.enable a.feature
    pure (a.output, a.value)
  pure (.ofList values)

end ShaderNodes.Geometry
