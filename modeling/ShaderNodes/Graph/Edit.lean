import ShaderNodes.Graph.Error

/-!
# Editing a graph

Nodes and links are added and removed one at a time; `ofParts` builds a graph from lists of both.
Fan-out is free, and an input fed twice is found only when the graph is checked. An edit that
answers gives the answer and the graph after it.
-/

namespace ShaderNodes.Graph

/-- Adds a node under a free id. -/
def addNode (g : Graph) (id : NodeId) (node : Node) : Except Error Unit × Graph :=
  if g.nodes.contains id then (.error (.duplicateNode id), g)
  else (.ok (), { g with nodes := g.nodes.insert id node })

/-- The inputs that an output still feeds when a node goes away, if there are any. -/
def keepTargets (id : NodeId) (source : Endpoint) (targets : List Endpoint) :
    Option (List Endpoint) :=
  let kept := targets.filter (·.node ≠ id)
  if source.node = id ∨ kept = [] then none else some kept

/-- Removes a node and every link that touches it. The answer is the node, if it was there. -/
def removeNode (g : Graph) (id : NodeId) : Option Node × Graph :=
  match g.nodes.get? id with
  | none => (none, g)
  | some node =>
    (some node, { nodes := g.nodes.erase id, links := g.links.filterMap (keepTargets id) })

/-- The inputs that an output feeds. -/
def targets (g : Graph) (source : Endpoint) : List Endpoint := (g.links.get? source).getD []

/-- Connects an output to an input, once. -/
def link (g : Graph) (source target : Endpoint) : Graph :=
  let old := g.targets source
  { g with links := g.links.insert source (if target ∈ old then old else old ++ [target]) }

/-- Removes a connection, and the entry of an output that feeds nothing. The answer is whether
fewer inputs are fed than before. -/
def unlink (g : Graph) (source target : Endpoint) : Bool × Graph :=
  match g.links.get? source with
  | none => (false, g)
  | some old =>
    let kept := old.filter (· ≠ target)
    let links := if kept = [] then g.links.erase source else g.links.insert source kept
    (kept.length != old.length, { g with links })

/-- Adds nodes one after another. -/
def addNodes (g : Graph) : List (NodeId × Node) → Except Error Graph
  | [] => .ok g
  | (id, node) :: rest =>
    match g.addNode id node with
    | (.error e, _) => .error e
    | (.ok (), g) => g.addNodes rest

/-- Makes links one after another. -/
def addLinks (g : Graph) (links : List Link) : Graph :=
  links.foldl (fun g l => g.link l.source l.target) g

/-- The graph of the given nodes and links. -/
def ofParts (nodes : List (NodeId × Node)) (links : List Link) : Except Error Graph :=
  match empty.addNodes nodes with
  | .error e => .error e
  | .ok g => .ok (g.addLinks links)

end ShaderNodes.Graph
