import ShaderNodes.Graph.Check
import ShaderNodes.Palette

/-!
# Passes

A pass visits the nodes of a checked graph in their order. A visited node is handed the values that
its producers gave earlier in the pass; what it gives is kept, and its edits go to the draft.
-/

namespace ShaderNodes

/-- A walk over a graph. -/
structure Pass where
  /-- Passes are counted from one. -/
  number : UInt64
  graph : CheckedGraph
  /-- How many nodes of the order have had their turn. -/
  cursor : Nat
  draft : Draft
  /-- The values at outputs so far. -/
  values : SortedMap Endpoint Value

namespace Pass

/-- A pass before its first node. -/
def start (number : UInt64) (graph : CheckedGraph) (config : Config) : Pass :=
  ⟨number, graph, 0, { config }, .empty⟩

/-- The values that reach the inputs of a node. -/
def inputs (pass : Pass) (id : NodeId) (kind : Kind) : Inputs :=
  .ofList <| kind.sockets.inputs.filterMap fun socket =>
    ((pass.graph.producer? ⟨id, socket.name⟩).bind pass.values.get?).map (socket.name, ·)

/-- What the kind of a node knows of it. -/
def context (pass : Pass) (id : NodeId) (node : Node) : Context :=
  ⟨id, node.data, pass.graph.connectedOutputs id⟩

/-- What a node gives on the values so far. -/
def evaluate (pass : Pass) (id : NodeId) (node : Node) (kind : Kind) : Except Skip Contribution :=
  kind.evaluate (pass.context id node) (pass.inputs id kind)

/-- Keeps what a node gave. -/
def absorb (pass : Pass) (id : NodeId) (c : Contribution) : Pass :=
  { pass with
    draft := pass.draft.run c.edits
    values := pass.values.insertAll (c.outputs.entries.map fun e => (⟨id, e.1⟩, e.2)) }

/-- Evaluates a node; one that is skipped leaves nothing. -/
def visit (pass : Pass) (id : NodeId) (node : Node) (kind : Kind) : Pass :=
  match pass.evaluate id node kind with
  | .error _ => pass
  | .ok c => pass.absorb id c

/-- What a visit reports. -/
def visitEvents (pass : Pass) (id : NodeId) (node : Node) (kind : Kind) : List Event :=
  match pass.evaluate id node kind with
  | .error skip => [.nodeSkipped id node.kind skip]
  | .ok c => pass.draft.runEvents c.edits ++ [.nodeEvaluated id node.kind c.outputs.size]

/-- Evaluates a node step by step on the draft of the pass, and reports. -/
def turn (pass : Pass) (id : NodeId) (node : Node) (kind : Kind) : Pass × List Event :=
  let steps := kind.perform (pass.context id node) (pass.inputs id kind)
  let (result, writer) := steps.runOn { draft := pass.draft }
  let pass := { pass with draft := writer.draft }
  match result with
  | .error skip => (pass, writer.log ++ [.nodeSkipped id node.kind skip])
  | .ok outputs =>
    let values := pass.values.insertAll (outputs.entries.map fun e => (⟨id, e.1⟩, e.2))
    ({ pass with values }, writer.log ++ [.nodeEvaluated id node.kind outputs.size])

end Pass

end ShaderNodes
