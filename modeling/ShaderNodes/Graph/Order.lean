import ShaderNodes.Graph.Error

/-!
# Evaluation order

Nodes are placed one at a time. A node is ready when all its producers are placed, and of the ready
nodes the least id comes next, so that a graph has one order. `Pending` counts, for each node not
placed, how many of its producers are not placed, and keeps the ready nodes beside the counts. When
no node is ready any more, each node not placed has a producer not placed, and a walk against the
links from the least of them closes a cycle.
-/

namespace ShaderNodes

/-- The output that feeds each input that is fed. -/
abbrev Producers := SortedMap Endpoint Endpoint

namespace Producers

/-- Whether an output of node `m` feeds an input of node `n`. -/
def feeds (producers : Producers) (m n : NodeId) : Bool :=
  producers.entries.any fun e => e.2.node = m && e.1.node = n

/-- The nodes of `ids` that feed node `n`. -/
def feeders (producers : Producers) (ids : List NodeId) (n : NodeId) : List NodeId :=
  ids.filter (producers.feeds · n)

/-- The nodes of `ids` that node `m` feeds. -/
def consumers (producers : Producers) (ids : List NodeId) (m : NodeId) : List NodeId :=
  ids.filter (producers.feeds m)

end Producers

/-- The nodes not placed yet. -/
structure Pending where
  /-- How many producers each of them still waits for. -/
  counts : SortedMap NodeId Nat
  /-- Those that wait for none. -/
  ready : SortedMap NodeId Unit

namespace Pending

/-- All nodes pending. -/
def start (producers : Producers) (ids : List NodeId) : Pending :=
  let counts := SortedMap.ofList (ids.map fun n => (n, (producers.feeders ids n).length))
  { counts, ready := counts.filterMap fun _ count => if count = 0 then some () else none }

/-- The least node that is ready. -/
def next? (pending : Pending) : Option NodeId := pending.ready.keys.head?

/-- Takes a producer off the count of a node. The last one makes the node ready. -/
def release (pending : Pending) (n : NodeId) : Pending :=
  match pending.counts.get? n with
  | none => pending
  | some count =>
    { counts := pending.counts.insert n (count - 1)
      ready := if count - 1 = 0 then pending.ready.insert n () else pending.ready }

/-- Takes a node out, and off the counts of the nodes it feeds. -/
def place (producers : Producers) (ids : List NodeId) (m : NodeId) (pending : Pending) : Pending :=
  (producers.consumers ids m).foldl release
    { counts := pending.counts.erase m, ready := pending.ready.erase m }

/-- Places ready nodes, at most `n`: the order, and what is left. -/
def drain (producers : Producers) (ids : List NodeId) : Nat → Pending → List NodeId × Pending
  | 0, pending => ([], pending)
  | n + 1, pending =>
    match pending.next? with
    | none => ([], pending)
    | some m =>
      let (order, left) := drain producers ids n (pending.place producers ids m)
      (m :: order, left)

/-- Walks against the links from node `m`, always to the least producer that is left, until a node
comes again, for at most `n` steps. -/
def walk (producers : Producers) (left : List NodeId) :
    Nat → List NodeId → NodeId → Graph.Error
  | n, during, m =>
    if m ∈ during then .cycle during m
    else
      match n, producers.feeders left m with
      | n + 1, next :: _ => walk producers left n (during ++ [m]) next
      | _, _ => .deadEnd m

end Pending

/-- The evaluation order of the nodes `ids`, ascending, or a cycle among them. -/
def Producers.order (producers : Producers) (ids : List NodeId) :
    Except Graph.Error (List NodeId) :=
  let (order, pending) := Pending.drain producers ids ids.length (.start producers ids)
  match pending.counts.keys with
  | [] => .ok order
  | m :: rest => .error (Pending.walk producers (m :: rest) (m :: rest).length [] m)

end ShaderNodes
