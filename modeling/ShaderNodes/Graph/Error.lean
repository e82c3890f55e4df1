import ShaderNodes.Graph.Basic
import ShaderNodes.Text.Quoted

/-!
# Structural faults of a graph
-/

namespace ShaderNodes

/-- Why a node cannot be added, or a graph not be compiled. -/
inductive Graph.Error where
  /-- A walk against the links through `during` comes to `detected` again. -/
  | cycle (during : List NodeId) (detected : NodeId)
  /-- Two outputs feed one input. -/
  | multipleProducers (input first second : Endpoint)
  /-- A link begins or ends at a node that does not exist. -/
  | missingNode (endpoint : Endpoint)
  /-- The id is taken. -/
  | duplicateNode (id : NodeId)
  /-- A walk against the links ends although a cycle is ahead. Checking a graph never gives this. -/
  | deadEnd (id : NodeId)
  deriving DecidableEq, Repr

/-- A node id as lists in messages show it. -/
def NodeId.shown (id : NodeId) : String := "NodeId(" ++ Text.quote id ++ ")"

/-- An endpoint as lists in messages show it. -/
def Endpoint.shown (p : Endpoint) : String :=
  "SocketRef \x7b node: " ++ NodeId.shown p.node ++ ", socket: Name(" ++ Text.quote p.socket
    ++ ") \x7d"

def Graph.Error.message : Graph.Error → String
  | .cycle during detected =>
    "Detected a cycle walking upstream through " ++ Text.bracketed (during.map NodeId.shown)
      ++ ", reaching node `" ++ detected ++ "` again"
  | .multipleProducers input first second =>
    "Input `" ++ input.text ++ "` is fed by more than one output: "
      ++ Text.bracketed [first.shown, second.shown]
  | .missingNode endpoint =>
    "Link `" ++ endpoint.text ++ "` references missing node `" ++ endpoint.node ++ "`"
  | .duplicateNode id => "Node `" ++ id ++ "` already exists"
  | .deadEnd id => "leftover node `" ++ id ++ "` has no leftover producer"

end ShaderNodes
