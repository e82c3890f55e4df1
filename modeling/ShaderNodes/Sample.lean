import ShaderNodes.Compiler.Engine

/-!
# A sample graph

A textured surface under Blinn-Phong light with filmic tone mapping, and the text that shows its
shader.
-/

namespace ShaderNodes.Sample

/-- A node with the given static data. -/
def node (kind : Name) (data : List (String × String)) : Node := ⟨kind, .ofList data⟩

def nodes : List (NodeId × Node) :=
  [("geometry", node "Geometry" []),
    ("albedo", node "Texture" [("texture", "bricks")]),
    ("specular", node "ConstantFloat" [("value", "0.5")]),
    ("shininess", node "ConstantFloat" [("value", "32.0")]),
    ("shading", node "BlinnPhong" []),
    ("exposure", node "ConstantFloat" [("value", "1.2")]),
    ("tonemap", node "ACESFilmicToneMapping" []),
    ("output", node "FragColor" [])]

def links : List Link :=
  [⟨⟨"geometry", "uv0"⟩, ⟨"albedo", "uv"⟩⟩,
    ⟨⟨"geometry", "normal"⟩, ⟨"shading", "normal"⟩⟩,
    ⟨⟨"albedo", "rgb"⟩, ⟨"shading", "color"⟩⟩,
    ⟨⟨"specular", "value"⟩, ⟨"shading", "specular"⟩⟩,
    ⟨⟨"shininess", "value"⟩, ⟨"shading", "shininess"⟩⟩,
    ⟨⟨"shading", "color"⟩, ⟨"tonemap", "color"⟩⟩,
    ⟨⟨"exposure", "value"⟩, ⟨"tonemap", "exposure"⟩⟩,
    ⟨⟨"tonemap", "result"⟩, ⟨"output", "color"⟩⟩,
    ⟨⟨"albedo", "a"⟩, ⟨"output", "alpha"⟩⟩]

/-- The line that shows a uniform and what is bound to it. -/
def uniformLine (u : Name × Binding) : String :=
  "// uniform " ++ u.2.type ++ " " ++ u.1 ++ " = Texture(" ++ Text.quote u.2.texture ++ ")"

/-- Both programs and the uniforms of a shader. -/
def listing (s : Shader) : String :=
  Text.lines <|
    ["// Vertex shader", s.vertex, "// Fragment shader", s.fragment]
      ++ s.uniforms.entries.map uniformLine

/-- The listing of the sample, or why it has none. -/
def run : Except String String :=
  match Graph.ofParts nodes links with
  | .error e => .error e.message
  | .ok g =>
    match g.check with
    | .error e => .error e.message
    | .ok g =>
      match g.compile.result with
      | .error e => .error e.message
      | .ok shader => .ok (listing shader)

end ShaderNodes.Sample
