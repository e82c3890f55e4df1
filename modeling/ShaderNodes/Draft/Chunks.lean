import ShaderNodes.Text.Lines

/-!
# Fixed blocks of GLSL

The blocks that the features of a draft bring into its programs.
-/

namespace ShaderNodes.Chunks

open Text

/-- Numeric constants, which open every fragment program. -/
def constants : String := lines [
  "#define RECIPROCAL_PI 0.3183098861837907",
  "#define EPSILON 1e-6"]

/-- The directional lights and the ambient light of the host; their number may be defined by it. -/
def lights (count : Nat) : String := lines [
  "#ifndef NUM_DIR_LIGHTS",
  "#define NUM_DIR_LIGHTS " ++ toString count,
  "#endif",
  "",
  "struct DirectionalLight \x7b",
  "\tvec3 direction;",
  "\tvec3 color;",
  "\x7d;",
  "",
  "#if NUM_DIR_LIGHTS > 0",
  "uniform DirectionalLight directionalLights[NUM_DIR_LIGHTS];",
  "#endif",
  "uniform vec3 ambientLightColor;"]

/-- Turns a normal by a tangent-space normal map, with screen-space derivatives. -/
def normalMap : String := lines [
  "vec3 perturbNormal2Arb(vec3 eyePos, vec3 surfNorm, vec3 mapN, vec2 uv, float normalScale) \x7b",
  "\tvec3 q0 = vec3(dFdx(eyePos.x), dFdx(eyePos.y), dFdx(eyePos.z));",
  "\tvec3 q1 = vec3(dFdy(eyePos.x), dFdy(eyePos.y), dFdy(eyePos.z));",
  "\tvec2 st0 = dFdx(uv.st);",
  "\tvec2 st1 = dFdy(uv.st);",
  "\tvec3 S = normalize(q0 * st1.t - q1 * st0.t);",
  "\tvec3 T = normalize(-q0 * st1.s + q1 * st0.s);",
  "\tvec3 N = normalize(surfNorm);",
  "\tmat3 tsn = mat3(S, T, N);",
  "\tmapN.xy *= normalScale;",
  "\treturn normalize(tsn * mapN);",
  "\x7d"]

/-- Schlick's approximation of the Fresnel term, with a spherical gaussian exponent. -/
def fresnel : String := lines [
  "vec3 F_Schlick(const in vec3 specularColor, const in float dotLH) \x7b",
  "\tfloat fresnel = exp2((-5.55473 * dotLH - 6.98316) * dotLH);",
  "\treturn (1.0 - specularColor) * fresnel + specularColor;",
  "\x7d"]

/-! ## Varyings -/

def varyingUv : String := lines ["varying vec2 vUv;"]

def varyingNormal : String := lines ["varying vec3 vNormal;"]

def varyingPosition : String := lines ["varying vec3 vViewPosition;"]

/-! ## Statements of the main functions -/

/-- Gives the fragment program the interpolated normal. -/
def normalPrelude : String := "vec3 normal = normalize(vNormal)"

def assignUv : String := "vUv = uv"

def assignNormal : String := "vNormal = normalize(normalMatrix * normal)"

def modelViewPosition : String := "vec4 mvPosition = modelViewMatrix * vec4(position, 1.0)"

def assignPosition : String := "vViewPosition = -mvPosition.xyz"

def glPosition : String := "gl_Position = projectionMatrix * mvPosition"

end ShaderNodes.Chunks
