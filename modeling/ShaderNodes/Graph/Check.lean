import ShaderNodes.Graph.Edit
import ShaderNodes.Graph.Order

/-!
# Checking a graph

A graph can be compiled when each link joins existing nodes, no input is fed twice and no node
depends on itself. `Graph.check` gives the graph with its evaluation order and its producers, or the
first fault: those of single links in the order of the links, and a cycle only if there is none.
-/

namespace ShaderNodes

/-- A graph with what the check found. Its nodes may be edited afterwards; the order and the
producers stay those of the check. -/
structure CheckedGraph extends Graph where
  /-- The node ids in evaluation order. -/
  order : List NodeId
  producers : Producers

namespace Graph

/-- Adds the producers of the given links to those found so far. -/
def addProducers (nodes : SortedMap NodeId Node) (found : Producers) :
    List Link → Except Error Producers
  | [] => .ok found
  | l :: rest =>
    if !nodes.contains l.source.node then .error (.missingNode l.source)
    else if !nodes.contains l.target.node then .error (.missingNode l.target)
    else
      match found.get? l.target with
      | some first => .error (.multipleProducers l.target first l.source)
      | none => addProducers nodes (found.insert l.target l.source) rest

/-- Checks the graph and finds its evaluation order. -/
def check (g : Graph) : Except Error CheckedGraph := do
  let producers ← addProducers g.nodes .empty g.connections
  let order ← producers.order g.nodes.keys
  pure { g with order, producers }

end Graph

/-- The output that feeds an input. -/
def CheckedGraph.producer? (g : CheckedGraph) (input : Endpoint) : Option Endpoint :=
  g.producers.get? input

end ShaderNodes
