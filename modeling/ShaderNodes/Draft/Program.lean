import ShaderNodes.Draft.Basic
import ShaderNodes.Draft.Chunks
import ShaderNodes.Text.Blank

/-!
# The programs of a draft

A program is made of sections with an empty line between them; empty sections are left out. Both
programs of a draft follow the same features, so they declare the same varyings.
-/

namespace ShaderNodes

/-- A finished shader. -/
structure Shader where
  vertex : String
  fragment : String
  /-- The uniforms of the fragment program, by name. -/
  uniforms : SortedMap Name Binding
  /-- Whether the lights of the host are read. -/
  usesLighting : Bool
  /-- Whether derivatives are needed. -/
  requiresDerivatives : Bool
  deriving DecidableEq

namespace Draft

open Text

/-- A section that is there only with a feature. -/
def whenOn (d : Draft) (f : Feature) (text : String) : String :=
  if d.features.isEnabled f then text else ""

/-- A statement on its line. -/
def line (d : Draft) (statement : String) : String := d.config.indent ++ statement ++ ";\n"

/-- Sections with an empty line between them. -/
def joinSections (sections : List String) : String :=
  "\n".intercalate (sections.filter (· ≠ ""))

/-- A main function with the given statement lines. -/
def mainFunction (body : String) : String := "void main() \x7b\n" ++ body ++ "\x7d\n"

def varyings (d : Draft) : String :=
  d.whenOn .uv Chunks.varyingUv ++ d.whenOn .normal Chunks.varyingNormal
    ++ d.whenOn .position Chunks.varyingPosition

/-- The declaration of a uniform on its line. -/
def uniformLine (u : Name × Binding) : String := "uniform " ++ u.2.type ++ " " ++ u.1 ++ ";\n"

def uniformSection (d : Draft) : String := String.join (d.uniforms.map uniformLine)

/-- The text of a shared function, with one line feed at its end. -/
def functionSection (f : Name × String) : String := trimEnd f.2 ++ "\n"

def fragmentMain (d : Draft) : String :=
  mainFunction (d.whenOn .normal (d.line Chunks.normalPrelude)
    ++ String.join (d.statements.map fun s => d.line s.text))

/-- The fragment program: constants, uniforms, varyings, blocks of the features, shared functions
and the main function. -/
def fragment (d : Draft) : String :=
  joinSections <|
    [Chunks.constants, d.uniformSection, d.varyings,
      d.whenOn .light (Chunks.lights d.config.directionalLights),
      d.whenOn .normalMap Chunks.normalMap,
      d.whenOn .fresnel Chunks.fresnel]
    ++ d.functions.map functionSection ++ [d.fragmentMain]

def vertexMain (d : Draft) : String :=
  mainFunction (d.whenOn .uv (d.line Chunks.assignUv)
    ++ d.whenOn .normal (d.line Chunks.assignNormal)
    ++ d.line Chunks.modelViewPosition
    ++ d.whenOn .position (d.line Chunks.assignPosition)
    ++ d.line Chunks.glPosition)

/-- The vertex program, which gives the varyings their values. -/
def vertex (d : Draft) : String := joinSections [d.varyings, d.vertexMain]

/-- The shader of the draft. -/
def finish (d : Draft) : Shader where
  vertex := d.vertex
  fragment := d.fragment
  uniforms := .ofList d.uniforms
  usesLighting := d.features.light
  requiresDerivatives := d.features.normalMap

end Draft

end ShaderNodes
