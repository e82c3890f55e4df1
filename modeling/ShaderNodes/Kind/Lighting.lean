import ShaderNodes.Inputs
import ShaderNodes.Text.Lines

/-!
# Lighting

Nodes that light the surface. A model packs its inputs into a material and calls a function shared
by all nodes of the model. One list of fields gives the sockets, the material and the arguments, so
the three agree.
-/

namespace ShaderNodes

/-- The lighting models. -/
inductive Lighting where
  /-- Lambert's diffuse term with a Blinn-Phong highlight. -/
  | blinnPhong
  /-- Metal and roughness: GGX distribution with correlated Smith visibility. -/
  | standard
  /-- Cloth with sheen: Charlie distribution with Neubelt visibility. -/
  | cloth
  deriving DecidableEq, Repr

namespace Lighting

open Text

def name : Lighting → Name
  | blinnPhong => "BlinnPhong"
  | standard => "Standard"
  | cloth => "Cloth"

/-- The fields of the material. -/
def fields : Lighting → List (Name × SocketType)
  | blinnPhong => [("color", .vec3), ("specular", .float), ("shininess", .float)]
  | standard =>
    [("color", .vec3), ("roughness", .float), ("metalness", .float), ("reflectance", .float)]
  | cloth => [("color", .vec3), ("roughness", .float), ("sheen", .float)]

/-- Whether the Fresnel helper is called. -/
def usesFresnel : Lighting → Bool
  | blinnPhong => false
  | standard | cloth => true

/-- The functions that the lighting function calls. -/
def helpers : Lighting → String
  | blinnPhong => lines []
  | standard => lines [
    "float D_GGX(const in float alpha, const in float dotNH) \x7b",
    "\tfloat a2 = alpha * alpha;",
    "\tfloat denom = dotNH * dotNH * (a2 - 1.0) + 1.0;",
    "\treturn RECIPROCAL_PI * a2 / (denom * denom);",
    "\x7d",
    "",
    "float V_SmithGGXCorrelated(const in float alpha, const in float dotNL, const in float dotNV) \x7b",
    "\tfloat a2 = alpha * alpha;",
    "\tfloat gv = dotNL * sqrt(a2 + (1.0 - a2) * dotNV * dotNV);",
    "\tfloat gl = dotNV * sqrt(a2 + (1.0 - a2) * dotNL * dotNL);",
    "\treturn 0.5 / max(gv + gl, EPSILON);",
    "\x7d",
    ""]
  | cloth => lines [
    "float D_Charlie(const in float roughness, const in float dotNH) \x7b",
    "\tfloat invAlpha = 1.0 / max(roughness * roughness, EPSILON);",
    "\tfloat sin2h = max(1.0 - dotNH * dotNH, 0.0078125);",
    "\treturn (2.0 + invAlpha) * pow(sin2h, invAlpha * 0.5) * RECIPROCAL_PI * 0.5;",
    "\x7d",
    "",
    "float V_Neubelt(const in float dotNV, const in float dotNL) \x7b",
    "\treturn clamp(1.0 / (4.0 * (dotNL + dotNV - dotNL * dotNV)), 0.0, 1.0);",
    "\x7d",
    ""]

/-- The body of the lighting function. -/
def body : Lighting → String
  | blinnPhong => lines [
    "\tvec3 diffuse = material.color * RECIPROCAL_PI;",
    "\tvec3 outgoing = ambientLightColor * diffuse;",
    "#if NUM_DIR_LIGHTS > 0",
    "\tfor (int i = 0; i < NUM_DIR_LIGHTS; i++) \x7b",
    "\t\tvec3 lightDir = directionalLights[i].direction;",
    "\t\tvec3 halfDir = normalize(lightDir + viewDir);",
    "\t\tfloat dotNL = clamp(dot(normal, lightDir), 0.0, 1.0);",
    "\t\tfloat dotNH = clamp(dot(normal, halfDir), 0.0, 1.0);",
    "\t\tfloat specular = material.specular * pow(dotNH, material.shininess);",
    "\t\toutgoing += directionalLights[i].color * dotNL * (diffuse + vec3(specular));",
    "\t\x7d",
    "#endif",
    "\treturn outgoing;"]
  | standard => lines [
    "\tfloat alpha = max(material.roughness * material.roughness, 0.0007);",
    "\tvec3 diffuse = material.color * (1.0 - material.metalness) * RECIPROCAL_PI;",
    "\tvec3 specularColor = mix(vec3(0.16 * material.reflectance * material.reflectance), material.color, material.metalness);",
    "\tfloat dotNV = clamp(dot(normal, viewDir), EPSILON, 1.0);",
    "\tvec3 outgoing = ambientLightColor * diffuse;",
    "#if NUM_DIR_LIGHTS > 0",
    "\tfor (int i = 0; i < NUM_DIR_LIGHTS; i++) \x7b",
    "\t\tvec3 lightDir = directionalLights[i].direction;",
    "\t\tvec3 halfDir = normalize(lightDir + viewDir);",
    "\t\tfloat dotNL = clamp(dot(normal, lightDir), 0.0, 1.0);",
    "\t\tfloat dotNH = clamp(dot(normal, halfDir), 0.0, 1.0);",
    "\t\tfloat dotLH = clamp(dot(lightDir, halfDir), 0.0, 1.0);",
    "\t\tvec3 specular = F_Schlick(specularColor, dotLH) * (D_GGX(alpha, dotNH) * V_SmithGGXCorrelated(alpha, dotNL, dotNV));",
    "\t\toutgoing += directionalLights[i].color * dotNL * (diffuse + specular);",
    "\t\x7d",
    "#endif",
    "\treturn outgoing;"]
  | cloth => lines [
    "\tvec3 diffuse = material.color * RECIPROCAL_PI;",
    "\tvec3 sheenColor = vec3(material.sheen);",
    "\tfloat dotNV = clamp(dot(normal, viewDir), EPSILON, 1.0);",
    "\tvec3 outgoing = ambientLightColor * diffuse;",
    "#if NUM_DIR_LIGHTS > 0",
    "\tfor (int i = 0; i < NUM_DIR_LIGHTS; i++) \x7b",
    "\t\tvec3 lightDir = directionalLights[i].direction;",
    "\t\tvec3 halfDir = normalize(lightDir + viewDir);",
    "\t\tfloat dotNL = clamp(dot(normal, lightDir), 0.0, 1.0);",
    "\t\tfloat dotNH = clamp(dot(normal, halfDir), 0.0, 1.0);",
    "\t\tfloat dotLH = clamp(dot(lightDir, halfDir), 0.0, 1.0);",
    "\t\tvec3 specular = F_Schlick(sheenColor, dotLH) * (D_Charlie(material.roughness, dotNH) * V_Neubelt(dotNV, dotNL));",
    "\t\toutgoing += directionalLights[i].color * dotNL * (diffuse + specular);",
    "\t\x7d",
    "#endif",
    "\treturn outgoing;"]

/-- The name of the material struct. -/
def material (model : Lighting) : String := model.name ++ "Material"

/-- The line of a field in the material struct. -/
def fieldLine (field : Name × SocketType) : String :=
  "\t" ++ field.2.glsl ++ " " ++ field.1 ++ ";\n"

/-- The material struct, the helpers and the lighting function. -/
def source (model : Lighting) : String :=
  "struct " ++ model.material ++ " \x7b\n" ++ String.join (model.fields.map fieldLine)
    ++ "\x7d;\n\n" ++ model.helpers ++ "vec3 " ++ model.name ++ "(const in " ++ model.material
    ++ " material, const in vec3 normal, const in vec3 viewDir) \x7b\n" ++ model.body ++ "\x7d\n"

/-- The inputs: the fields of the material, then the normal. -/
def inputs (model : Lighting) : List (Name × SocketType) := model.fields ++ [("normal", .vec3)]

def sockets (model : Lighting) : Sockets where
  inputs := model.inputs.map fun i => ⟨i.1, some i.2⟩
  outputs := [⟨"color", some .vec3⟩]
  controls := []

/-- The variable of a node's material, beside its color. -/
def materialName (variableName : String) : String := variableName ++ "_material"

/-- The material, packed from the values of its fields. -/
def pack (model : Lighting) (fields : List Value) : Expr :=
  .call model.material (fields.map fun v => .operand v.text)

/-- The call of the lighting function on a material and a normal. -/
def light (model : Lighting) (material : Name) (normal : List Value) : Expr :=
  .call model.name
    [.operand material, .call "normalize" (normal.map fun v => .operand v.text),
      .call "normalize" [.operand "vViewPosition"]]

def evaluate (model : Lighting) (node : Context) (inputs : Inputs) :
    Except Skip Contribution := do
  let values ← inputs.require model.inputs
  let fields := values.take model.fields.length
  let normal := values.drop model.fields.length
  let color : Value := ⟨node.variableName model.name, .vec3⟩
  let material := materialName color.text
  pure
    ⟨.ofList [("color", color)],
      [.function model.name model.source,
        .statement (.declare model.material material (model.pack fields)),
        color.declare (model.light material normal), .enable .light, .enable .position]
        ++ if model.usesFresnel then [.enable .fresnel] else []⟩

def perform (model : Lighting) (node : Context) (inputs : Inputs) : Writing Outputs := do
  let values ← inputs.require model.inputs
  let (fields, normal) := values.splitAt model.fields.length
  let _ ← Writing.function model.name model.source
  let variableName := node.variableName model.name
  let material := materialName variableName
  Writing.statement (.declare model.material material (model.pack fields))
  let color ← Writing.declare variableName .vec3 (model.light material normal)
  Writing.enable .light
  Writing.enable .position
  if model.usesFresnel then Writing.enable .fresnel
  pure (.ofList [("color", color)])

end Lighting

end ShaderNodes
