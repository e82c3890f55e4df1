import ShaderNodes.Kind.Call
import ShaderNodes.Kind.Constant
import ShaderNodes.Kind.FragColor
import ShaderNodes.Kind.Geometry
import ShaderNodes.Kind.Lighting
import ShaderNodes.Kind.Operator
import ShaderNodes.Kind.Sampler

/-!
# Node kinds

A kind has a name and sockets, and evaluates the nodes that are of it.
-/

namespace ShaderNodes

/-- What a node can be. -/
inductive Kind where
  | operator {n : Nat} (op : Operator (n + 1))
  | constant (type : SocketType)
  | geometry
  | fragColor
  | texture
  | normalMap
  | lighting (model : Lighting)
  | function (definition : Definition)

namespace Kind

def name : Kind → Name
  | operator op => op.name
  | constant type => Constant.name type
  | geometry => Geometry.name
  | fragColor => FragColor.name
  | texture => Texture.name
  | normalMap => NormalMap.name
  | lighting model => model.name
  | function definition => definition.name

def sockets : Kind → Sockets
  | operator op => op.sockets
  | constant type => Constant.sockets type
  | geometry => Geometry.sockets
  | fragColor => FragColor.sockets
  | texture => Texture.sockets
  | normalMap => NormalMap.sockets
  | lighting model => model.sockets
  | function definition => definition.sockets

/-- Whether nodes of the kind end a graph: they have no outputs. -/
def isSink (kind : Kind) : Bool := kind.sockets.outputs.isEmpty

/-- What a node of the kind gives, or why it is skipped. -/
def evaluate (kind : Kind) (node : Context) (inputs : Inputs) : Except Skip Contribution :=
  match kind with
  | operator op => op.evaluate node inputs
  | constant type => Constant.evaluate type node
  | geometry => .ok (Geometry.evaluate node)
  | fragColor => .ok (FragColor.evaluate inputs)
  | texture => Texture.evaluate node inputs
  | normalMap => NormalMap.evaluate node inputs
  | lighting model => model.evaluate node inputs
  | function definition => definition.evaluate node inputs

/-- Evaluates a node of the kind step by step. -/
def perform (kind : Kind) (node : Context) (inputs : Inputs) : Writing Outputs :=
  match kind with
  | operator op => op.perform node inputs
  | constant type => Constant.perform type node
  | geometry => Geometry.perform node
  | fragColor => FragColor.perform inputs
  | texture => Texture.perform node inputs
  | normalMap => NormalMap.perform node inputs
  | lighting model => model.perform node inputs
  | function definition => definition.perform node inputs

/-- Evaluates a node and makes its edits to a draft. -/
def evaluateOn (kind : Kind) (node : Context) (inputs : Inputs) (draft : Draft) :
    Except Skip Outputs × Draft :=
  match kind.evaluate node inputs with
  | .error skip => (.error skip, draft)
  | .ok c => (.ok c.outputs, draft.run c.edits)

end Kind

end ShaderNodes
