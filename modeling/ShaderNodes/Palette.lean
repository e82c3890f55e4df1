import ShaderNodes.Kind

/-!
# Palettes

A palette holds node kinds by name, listed by category as in the menu of an editor. A kind that is
registered again takes the place of the one of its name, in the category and at the place of the
first.
-/

namespace ShaderNodes

/-- Node kinds by name and by category. -/
structure Palette where
  kinds : SortedMap Name Kind
  /-- The categories with the names in them, in the order of registration. -/
  categories : List (String × List Name)

namespace Palette

/-- The palette without kinds. -/
def empty : Palette := ⟨.empty, []⟩

def get? (p : Palette) (name : Name) : Option Kind := p.kinds.get? name

def contains (p : Palette) (name : Name) : Bool := p.kinds.contains name

/-- The names of all kinds, ascending. -/
def names (p : Palette) : List Name := p.kinds.keys

/-- Lists a name at the end of a category, which is made if it is not there. -/
def listUnder (category : String) (name : Name) :
    List (String × List Name) → List (String × List Name)
  | [] => [(category, [name])]
  | (c, names) :: rest =>
    if c = category then (c, names ++ [name]) :: rest
    else (c, names) :: listUnder category name rest

/-- Registers a kind under a category. -/
def register (p : Palette) (category : String) (kind : Kind) : Palette where
  kinds := p.kinds.insert kind.name kind
  categories :=
    if p.contains kind.name then p.categories else listUnder category kind.name p.categories

/-- What a registration reports: that a kind was replaced. -/
def registerEvents (p : Palette) (kind : Kind) : List Event :=
  if p.contains kind.name then [.kindReplaced kind.name] else []

/-- Registers kinds one after another. -/
def registerAll (p : Palette) (kinds : List (String × Kind)) : Palette :=
  kinds.foldl (fun p k => p.register k.1 k.2) p

/-- The kinds that are not defined by a function. -/
def builtins : List (String × Kind) :=
  [("Input", .geometry),
    ("Output", .fragColor),
    ("Math", .operator .add),
    ("Math", .operator .subtract),
    ("Math", .operator .multiply),
    ("Math", .operator .divide),
    ("Math", .operator .dot),
    ("Math", .operator .cross),
    ("Math", .operator .mix),
    ("Constant", .constant .float),
    ("Constant", .constant .vec2),
    ("Constant", .constant .vec3),
    ("Constant", .constant .vec4),
    ("ShadingModel", .lighting .blinnPhong),
    ("ShadingModel", .lighting .standard),
    ("ShadingModel", .lighting .cloth),
    ("Map", .texture),
    ("Map", .normalMap)]

/-- The built-in kind of a name. -/
def builtin? (name : Name) : Option Kind := (builtins.find? (·.2.name == name)).map (·.2)

/-- The palette of all kinds that come with the library. -/
def standard : Palette :=
  empty.registerAll (builtins ++ ToneMapping.all.map fun f => ("ToneMapping", .function f))

end Palette

end ShaderNodes
