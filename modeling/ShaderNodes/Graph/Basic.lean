import ShaderNodes.Socket
import ShaderNodes.SortedMap

/-!
# Graphs of nodes

A graph holds nodes by id and links by the output they leave. A link joins two endpoints, each a
socket of a node. The links of an output keep the order in which they were made; the outputs stand
in order themselves, by node and then by socket.
-/

open Std

namespace ShaderNodes

/-- The id of a node: any text. -/
abbrev NodeId := String

/-- A socket of a node, where links begin and end. -/
structure Endpoint where
  node : NodeId
  socket : Name
  deriving DecidableEq, Repr, Inhabited

namespace Endpoint

/-- Endpoints compare by node, then by socket. -/
instance : Ord Endpoint := ⟨compareLex (compareOn node) (compareOn socket)⟩

instance : TransOrd Endpoint :=
  inferInstanceAs (TransCmp (compareLex (compareOn node) (compareOn socket)))

instance : LawfulEqOrd Endpoint where
  compare_self {p} := show compareLex (compareOn node) (compareOn socket) p p = .eq from
    ReflCmp.compare_self
  eq_of_compare {p q} h := by
    obtain ⟨hn, hs⟩ := compareLex_eq_eq.1 h
    have hn : p.node = q.node := LawfulEqOrd.eq_of_compare hn
    have hs : p.socket = q.socket := LawfulEqOrd.eq_of_compare hs
    cases p
    cases q
    simp_all

def text (p : Endpoint) : String := p.node ++ "." ++ p.socket

end Endpoint

/-- A node: the name of its kind, and the static data set by its controls. -/
structure Node where
  kind : Name
  data : SortedMap String String
  deriving DecidableEq

instance : Inhabited Node := ⟨⟨"", .empty⟩⟩

/-- A connection from an output to an input. -/
structure Link where
  source : Endpoint
  target : Endpoint
  deriving DecidableEq, Repr

/-- Nodes by id, and the inputs that each output feeds. -/
structure Graph where
  nodes : SortedMap NodeId Node
  links : SortedMap Endpoint (List Endpoint)
  deriving DecidableEq

namespace Graph

/-- The graph without nodes. -/
def empty : Graph := ⟨.empty, .empty⟩

instance : Inhabited Graph := ⟨empty⟩

/-- All connections, by source. -/
def connections (g : Graph) : List Link :=
  g.links.entries.flatMap fun e => e.2.map fun target => ⟨e.1, target⟩

theorem mem_connections {g : Graph} {l : Link} :
    l ∈ g.connections ↔ ∃ targets, g.links.get? l.source = some targets ∧ l.target ∈ targets := by
  simp only [connections, List.mem_flatMap, List.mem_map]
  constructor
  · rintro ⟨e, he, t, ht, rfl⟩
    exact ⟨e.2, SortedMap.get?_eq_some_iff.2 he, ht⟩
  · rintro ⟨targets, he, ht⟩
    exact ⟨_, SortedMap.get?_eq_some_iff.1 he, l.target, ht, rfl⟩

/-- The outputs of a node that feed an input, in order. -/
def connectedOutputs (g : Graph) (id : NodeId) : List Name :=
  (g.links.entries.filter fun e => e.1.node = id && !e.2.isEmpty).map (·.1.socket)

end Graph

end ShaderNodes
