import ShaderNodes.Compiler.Basic

/-!
# The engine

The compiler as it is kept in memory. The status of the latest pass and the pass itself are two
fields, which every operation has to keep in step: a pass is stored when one starts, stays when it
is completed and is taken out when it is aborted.

* `Engine.start`, `Engine.step`, `Engine.finish`, `Engine.abort`, `Engine.process`: the operations.
-/

namespace ShaderNodes

theorem Pass.graph_turn (pass : Pass) (id : NodeId) (node : Node) (kind : Kind) :
    (pass.turn id node kind).1.graph = pass.graph := by
  simp only [turn]
  split <;> rfl

theorem Pass.cursor_turn (pass : Pass) (id : NodeId) (node : Node) (kind : Kind) :
    (pass.turn id node kind).1.cursor = pass.cursor := by
  simp only [turn]
  split <;> rfl

/-- A graph-to-shader compiler with its status and its pass. -/
structure Engine where
  palette : Palette
  config : Config
  pass : Option Pass := none
  status : Status := .idle
  /-- How many passes were started. -/
  passes : UInt64 := 0

namespace Engine

open Compiler (Error objection? sinkCount)

/-- What an operation gives. -/
structure Reply (α : Type) where
  engine : Engine
  result : Except Error α
  events : List Event

/-- The values at outputs so far, of the pass that is running or completed. -/
def values? (e : Engine) : Option (SortedMap Endpoint Value) :=
  match e.status with
  | .running | .completed => e.pass.map (·.values)
  | .idle | .aborted => none

/-- Gives up the running pass, and says whether there was one. The pass is taken out. -/
def abort (e : Engine) : Reply Bool :=
  if e.status ≠ .running then ⟨e, .ok false, []⟩
  else
    { engine := { e with pass := none, status := .aborted }
      result := .ok true
      events :=
        match e.pass with
        | none => []
        | some pass => [.passAborted pass.number pass.cursor pass.graph.order.length] }

/-- Begins a pass, after giving up the running one. -/
def start (e : Engine) (g : CheckedGraph) : Reply Unit :=
  let ⟨e, _, aborted⟩ := e.abort
  match objection? e.palette g.toGraph with
  | some error => ⟨e, .error error, aborted⟩
  | none =>
    let number := e.passes + 1
    let sinks := sinkCount e.palette g.toGraph
    { engine :=
        { e with pass := some (.start number g e.config), status := .running, passes := number }
      result := .ok ()
      events := aborted ++ (if sinks = 1 then [] else [.sinksCounted sinks])
        ++ [.passStarted number g.nodes.size] }

/-- Gives the next node its turn. The result is whether there was one; when there is none, the pass
is completed. -/
def step (e : Engine) : Reply Bool :=
  match e.status with
  | .idle | .aborted => ⟨e, .error .noActivePass, []⟩
  | .completed => ⟨e, .ok false, []⟩
  | .running =>
    match e.pass with
    | none => ⟨e, .error .noActivePass, []⟩
    | some pass =>
      match pass.graph.order[pass.cursor]? with
      | none =>
        { engine := { e with status := .completed }
          result := .ok false
          events := [.passCompleted pass.number pass.draft.statements.length] }
      | some id =>
        let pass := { pass with cursor := pass.cursor + 1 }
        match pass.graph.nodes.get? id with
        | none => ⟨{ e with pass := some pass }, .error (.nodeVanished id), []⟩
        | some node =>
          match e.palette.get? node.kind with
          | none => ⟨{ e with pass := some pass }, .error (.unknownKind id node.kind), []⟩
          | some kind =>
            let (pass, events) := pass.turn id node kind
            ⟨{ e with pass := some pass }, .ok true, events⟩

/-- The nodes that are left of the pass. -/
def turnsLeft (e : Engine) : Nat :=
  match e.pass with
  | none => 0
  | some pass => pass.graph.order.length - pass.cursor

/-- A step that gives a node its turn leaves one less. -/
theorem turnsLeft_step {e : Engine} (h : e.step.result = .ok true) :
    e.step.engine.turnsLeft < e.turnsLeft := by
  revert h
  fun_cases step e with
  | case8 _ pass hpass id hid next node _ kind _ after events hturn =>
    intro _
    have hgraph : after.graph = pass.graph := by
      simpa only [hturn] using next.graph_turn id node kind
    have hcursor : after.cursor = pass.cursor + 1 := by
      simpa only [hturn] using next.cursor_turn id node kind
    obtain ⟨hlt, -⟩ := List.getElem?_eq_some_iff.1 hid
    simp only [turnsLeft, hpass, hgraph, hcursor]
    omega
  | case1 | case2 | case3 | case4 | case5 | case6 | case7 =>
    intro h
    cases h

/-- Steps until one finds no node or fails. -/
def stepAll (e : Engine) : Reply Unit :=
  let a := e.step
  match _ : a.result with
  | .error error => ⟨a.engine, .error error, a.events⟩
  | .ok false => ⟨a.engine, .ok (), a.events⟩
  | .ok true =>
    let b := a.engine.stepAll
    { b with events := a.events ++ b.events }
termination_by e.turnsLeft
decreasing_by exact turnsLeft_step ‹_›

/-- Gives the nodes that are left their turns, and gives the shader. -/
def finish (e : Engine) : Reply Shader :=
  let a := e.stepAll
  { engine := a.engine
    events := a.events
    result :=
      match a.result with
      | .error error => .error error
      | .ok () =>
        match a.engine.pass with
        | none => .error .noActivePass
        | some pass => .ok pass.draft.finish }

/-- Runs a whole pass over a graph. -/
def process (e : Engine) (g : CheckedGraph) : Reply Shader :=
  let a := e.start g
  match a.result with
  | .error error => ⟨a.engine, .error error, a.events⟩
  | .ok () =>
    let b := a.engine.finish
    { b with events := a.events ++ b.events }

end Engine

/-- Compiles a graph with the standard palette and settings. -/
def CheckedGraph.compile (g : CheckedGraph) : Engine.Reply Shader :=
  Engine.process { palette := .standard, config := {} } g

end ShaderNodes
