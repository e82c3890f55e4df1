import ShaderNodes.Inputs

/-!
# The color of the fragment

The sink of a graph. It is never skipped: without a color of at least three components the fragment
is opaque black.
-/

namespace ShaderNodes.FragColor

def name : Name := "FragColor"

def sockets : Sockets where
  inputs := [⟨"color", none⟩, ⟨"alpha", some .float⟩]
  outputs := []
  controls := []

/-- The color of a fragment, from a color of three or four components and an opacity. -/
def expression : Option Value → Option Value → Expr
  | none, _ => .call "vec4" [.plain "0.0", .plain "0.0", .plain "0.0", .plain "1.0"]
  | some color, some alpha =>
    .call "vec4" [[.operand color.text, .plain ".rgb"], .operand alpha.text]
  | some color, none =>
    if color.type = .vec3 then .call "vec4" [.operand color.text, .plain "1.0"]
    else .operand color.text

def evaluate (inputs : Inputs) : Contribution :=
  let color := (inputs.get? "color").filter (·.type.dimension ≥ 3)
  let alpha := (inputs.get? "alpha").filter (·.type = .float)
  ⟨.empty, [.statement (.assign "gl_FragColor" (expression color alpha))]⟩

def perform (inputs : Inputs) : Writing Outputs := do
  let alpha := (inputs.get? "alpha").filter (·.type = .float)
  let color := (inputs.get? "color").filter (·.type.dimension ≥ 3)
  Writing.statement (.assign "gl_FragColor" (expression color alpha))
  pure .empty

end ShaderNodes.FragColor
