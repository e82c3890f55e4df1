import ShaderNodes.Code
import ShaderNodes.Event

/-!
# Drafts

A draft is a shader in the making. Nodes add to it by edits: statements of the main function,
uniforms, functions shared between nodes, and features, which bring in fixed blocks of code. Of
uniforms and functions of one name the first stays; features are never turned off.
-/

namespace ShaderNodes

/-- Settings of the generated code. -/
structure Config where
  /-- The number of directional lights, unless the host defines it. -/
  directionalLights : Nat := 3
  /-- What stands before each statement. -/
  indent : String := "\t"
  deriving DecidableEq, Repr

/-- Optional blocks of the generated code. -/
inductive Feature where
  /-- The interpolated normal. -/
  | normal
  /-- The interpolated texture coordinates. -/
  | uv
  /-- The interpolated position in view space. -/
  | position
  /-- The lights of the host. -/
  | light
  /-- The helper for normal maps, which needs derivatives. -/
  | normalMap
  /-- The helper for the Fresnel term. -/
  | fresnel
  deriving DecidableEq, Repr

namespace Feature

/-- All features, in the order in which they are listed. -/
def all : List Feature := [normal, uv, position, light, normalMap, fresnel]

def label : Feature → String
  | normal => "Normal"
  | uv => "Uv"
  | position => "Position"
  | light => "Light"
  | normalMap => "NormalMap"
  | fresnel => "Fresnel"

end Feature

/-- The features that are on. -/
structure Features where
  normal : Bool := false
  uv : Bool := false
  position : Bool := false
  light : Bool := false
  normalMap : Bool := false
  fresnel : Bool := false
  deriving DecidableEq, Repr

namespace Features

def isEnabled (fs : Features) : Feature → Bool
  | .normal => fs.normal
  | .uv => fs.uv
  | .position => fs.position
  | .light => fs.light
  | .normalMap => fs.normalMap
  | .fresnel => fs.fresnel

/-- Turns a feature on. -/
def enable (fs : Features) : Feature → Features
  | .normal => { fs with normal := true }
  | .uv => { fs with uv := true }
  | .position => { fs with position := true }
  | .light => { fs with light := true }
  | .normalMap => { fs with normalMap := true }
  | .fresnel => { fs with fresnel := true }

/-- The features that are on, in order. -/
def enabled (fs : Features) : List Feature := Feature.all.filter (fs.isEnabled ·)

theorem isEnabled_enable (fs : Features) (f f' : Feature) :
    (fs.enable f).isEnabled f' = (fs.isEnabled f' || f' == f) := by
  cases f <;> cases f' <;> simp [enable, isEnabled]

end Features

/-- A uniform's GLSL type, and the reference to the texture that the host binds to it. -/
structure Binding where
  type : String
  texture : String
  deriving DecidableEq, Repr

/-- One addition to a draft. -/
inductive Edit where
  | statement (s : Statement)
  | uniform (name : Name) (binding : Binding)
  | function (name : Name) (source : String)
  | enable (feature : Feature)
  deriving DecidableEq, Repr

/-- A shader in the making. -/
structure Draft where
  config : Config
  statements : List Statement := []
  uniforms : List (Name × Binding) := []
  functions : List (Name × String) := []
  features : Features := {}
  deriving DecidableEq, Repr

namespace Draft

/-- Whether a uniform of this name is there. -/
def hasUniform (d : Draft) (name : Name) : Bool := d.uniforms.any (·.1 == name)

/-- Whether a shared function of this name is there. -/
def hasFunction (d : Draft) (name : Name) : Bool := d.functions.any (·.1 == name)

/-- Makes one addition. -/
def apply (d : Draft) : Edit → Draft
  | .statement s => { d with statements := d.statements ++ [s] }
  | .uniform name binding =>
    if d.hasUniform name then d else { d with uniforms := d.uniforms ++ [(name, binding)] }
  | .function name source =>
    if d.hasFunction name then d else { d with functions := d.functions ++ [(name, source)] }
  | .enable feature => { d with features := d.features.enable feature }

/-- Makes additions one after another. -/
def run (d : Draft) (edits : List Edit) : Draft := edits.foldl apply d

theorem run_nil (d : Draft) : d.run [] = d := rfl

theorem run_cons (d : Draft) (e : Edit) (edits : List Edit) :
    d.run (e :: edits) = (d.apply e).run edits := rfl

theorem run_append (d : Draft) (edits edits' : List Edit) :
    d.run (edits ++ edits') = (d.run edits).run edits' := List.foldl_append

/-- What an addition reports: a function that was there already. -/
def eventsOf (d : Draft) : Edit → List Event
  | .function name _ => if d.hasFunction name then [.functionShared name] else []
  | _ => []

/-- What additions made one after another report. -/
def runEvents (d : Draft) : List Edit → List Event
  | [] => []
  | e :: rest => d.eventsOf e ++ (d.apply e).runEvents rest

end Draft

end ShaderNodes
