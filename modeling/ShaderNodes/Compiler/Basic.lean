import ShaderNodes.Compiler.Pass
import ShaderNodes.Draft.Program

/-!
# The compiler

A compiler runs one pass at a time over a checked graph and gives the shader of its draft. A pass
can be driven node by node, run to its end or aborted; starting a pass aborts the one that runs.
Here the pass is a part of the stage that the compiler is in; `Engine` keeps the two apart.

Every operation gives an `Answer`: the compiler after it, its result, and what it reports.
-/

namespace ShaderNodes

/-- What became of the latest pass. -/
inductive Status where
  /-- No pass was ever started. -/
  | idle
  /-- Nodes are left, or the end of the order was not noticed yet. -/
  | running
  /-- All nodes have had their turn. -/
  | completed
  /-- The pass was given up. -/
  | aborted
  deriving DecidableEq, Repr

def Status.label : Status → String
  | idle => "Idle"
  | running => "Running"
  | completed => "Completed"
  | aborted => "Aborted"

/-- Where the latest pass stands: its status, and the pass while it is needed. -/
inductive Stage where
  | idle
  | running (pass : Pass)
  | completed (pass : Pass)
  | aborted

def Stage.status : Stage → Status
  | idle => .idle
  | running _ => .running
  | completed _ => .completed
  | aborted => .aborted

/-- The pass that is running or completed. -/
def Stage.pass? : Stage → Option Pass
  | running pass | completed pass => some pass
  | idle | aborted => none

/-- A graph-to-shader compiler. -/
structure Compiler where
  palette : Palette
  config : Config
  stage : Stage := .idle
  /-- How many passes were started. -/
  passes : UInt64 := 0

namespace Compiler

/-- Why an operation fails. -/
inductive Error where
  /-- A node is of a kind that the palette does not have. -/
  | unknownKind (node : NodeId) (kind : Name)
  /-- A link ends at a socket that its node does not declare. -/
  | unknownSocket (side : Side) (endpoint : Endpoint)
  /-- No pass was started, or it was aborted. -/
  | noActivePass
  /-- The node whose turn it is was taken out of the graph after the check. -/
  | nodeVanished (node : NodeId)
  deriving DecidableEq, Repr

def Error.message : Error → String
  | unknownKind node kind => "Node `" ++ node ++ "` is of unknown kind `" ++ kind ++ "`"
  | unknownSocket side e =>
    "Node `" ++ e.node ++ "` declares no " ++ side.label ++ " socket `" ++ e.socket ++ "`"
  | noActivePass => "No pass is running"
  | nodeVanished _ =>
    "internal error: entered unreachable code: evaluation order only holds graph nodes"

/-- What an operation gives. -/
structure Answer (α : Type) where
  compiler : Compiler
  result : Except Error α
  events : List Event

/-- The values at outputs so far, of the pass that is running or completed. -/
def values? (c : Compiler) : Option (SortedMap Endpoint Value) := c.stage.pass?.map (·.values)

/-! ## Starting a pass -/

/-- The first node, by id, of a kind that the palette does not have. -/
def unknownKind? (palette : Palette) (g : Graph) : Option Error :=
  g.nodes.entries.findSome? fun e =>
    if palette.contains e.2.kind then none else some (.unknownKind e.1 e.2.kind)

/-- Whether the node of an endpoint declares its socket on a side. -/
def declares (palette : Palette) (g : Graph) (side : Side) (endpoint : Endpoint) : Bool :=
  match (g.nodes.get? endpoint.node).bind (palette.get? ·.kind) with
  | none => false
  | some kind => (kind.sockets.find? side endpoint.socket).isSome

/-- The first end of a link at a socket that is not declared. -/
def unknownSocket? (palette : Palette) (g : Graph) : Option Error :=
  g.connections.findSome? fun l =>
    if !declares palette g .output l.source then some (.unknownSocket .output l.source)
    else if !declares palette g .input l.target then some (.unknownSocket .input l.target)
    else none

/-- The reason not to start a pass over a graph, if there is one. -/
def objection? (palette : Palette) (g : Graph) : Option Error :=
  unknownKind? palette g <|> unknownSocket? palette g

/-- The number of sinks in a graph. -/
def sinkCount (palette : Palette) (g : Graph) : Nat :=
  g.nodes.entries.countP fun e => (palette.get? e.2.kind).any Kind.isSink

/-- Gives up the running pass, and says whether there was one. -/
def abort (c : Compiler) : Answer Bool :=
  match c.stage with
  | .running pass =>
    { compiler := { c with stage := .aborted }
      result := .ok true
      events := [.passAborted pass.number pass.cursor pass.graph.order.length] }
  | _ => ⟨c, .ok false, []⟩

/-- Begins a pass, after giving up the running one. -/
def start (c : Compiler) (g : CheckedGraph) : Answer Unit :=
  let ⟨c, _, aborted⟩ := c.abort
  match objection? c.palette g.toGraph with
  | some e => ⟨c, .error e, aborted⟩
  | none =>
    let number := c.passes + 1
    let sinks := sinkCount c.palette g.toGraph
    { compiler := { c with stage := .running (.start number g c.config), passes := number }
      result := .ok ()
      events := aborted ++ (if sinks = 1 then [] else [.sinksCounted sinks])
        ++ [.passStarted number g.nodes.size] }

/-! ## Driving a pass -/

/-- Visits the next node. The result is whether there was one; when there is none, the pass is
completed. -/
def step (c : Compiler) : Answer Bool :=
  match c.stage with
  | .idle | .aborted => ⟨c, .error .noActivePass, []⟩
  | .completed _ => ⟨c, .ok false, []⟩
  | .running pass =>
    match pass.graph.order[pass.cursor]? with
    | none =>
      { compiler := { c with stage := .completed pass }
        result := .ok false
        events := [.passCompleted pass.number pass.draft.statements.length] }
    | some id =>
      let pass := { pass with cursor := pass.cursor + 1 }
      let after (pass : Pass) : Compiler := { c with stage := .running pass }
      match pass.graph.nodes.get? id with
      | none => ⟨after pass, .error (.nodeVanished id), []⟩
      | some node =>
        match c.palette.get? node.kind with
        | none => ⟨after pass, .error (.unknownKind id node.kind), []⟩
        | some kind =>
          ⟨after (pass.visit id node kind), .ok true, pass.visitEvents id node kind⟩

/-- Steps until one gives no `true`, at most `n` times. -/
def stepUpTo : Nat → Compiler → Answer Unit
  | 0, c => ⟨c, .ok (), []⟩
  | n + 1, c =>
    let a := c.step
    match a.result with
    | .error e => ⟨a.compiler, .error e, a.events⟩
    | .ok false => ⟨a.compiler, .ok (), a.events⟩
    | .ok true =>
      let b := stepUpTo n a.compiler
      { b with events := a.events ++ b.events }

/-- One step more than nodes are left, which notices the end of the order. -/
def stepsLeft (c : Compiler) : Nat :=
  match c.stage with
  | .running pass => pass.graph.order.length - pass.cursor + 1
  | _ => 1

/-- Visits the nodes that are left and gives the shader. -/
def finish (c : Compiler) : Answer Shader :=
  let a := stepUpTo c.stepsLeft c
  { compiler := a.compiler
    events := a.events
    result :=
      match a.result, a.compiler.stage.pass? with
      | .error e, _ => .error e
      | .ok (), some pass => .ok pass.draft.finish
      | .ok (), none => .error .noActivePass }

/-- Runs a whole pass over a graph. -/
def process (c : Compiler) (g : CheckedGraph) : Answer Shader :=
  let a := c.start g
  match a.result with
  | .error e => ⟨a.compiler, .error e, a.events⟩
  | .ok () =>
    let b := a.compiler.finish
    { b with events := a.events ++ b.events }

end Compiler

end ShaderNodes
