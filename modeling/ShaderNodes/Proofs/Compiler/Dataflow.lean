import ShaderNodes.Compiler.Pass
import ShaderNodes.Proofs.Draft.Edits
import ShaderNodes.Proofs.Graph.Check

/-!
# The values that a graph defines

A graph defines the values at its outputs by one equation for each node, with no order of
evaluation: the values at a node are what it gives on the values at the outputs that feed it.
`Graph.Solution` says that a map of values satisfies all of these.

* `contribution_congr`: what a node gives depends only on the values at its producers.
* `Solution.unique`: along a topological order the equations leave no choice.
* `Pass.inputs_eq_inflow`: a pass hands a node what the equations hand it.
-/

namespace ShaderNodes

open Precedence

/-- The statements of a contribution, in order. -/
def Contribution.statements (c : Contribution) : List Statement := c.edits.filterMap Edit.statement?

/-! ## The equations -/

namespace Graph

/-- The values that reach the inputs of a node when `V` holds the values at outputs: one for each
link that leaves an output with a value and ends at an input that the kind declares. -/
def inflow (g : Graph) (V : SortedMap Endpoint Value) (n : NodeId) (kind : Kind) : Inputs :=
  .ofList <| g.connections.filterMap fun l =>
    if l.target.node = n ∧ l.target.socket ∈ kind.sockets.inputs.map (·.name) then
      (V.get? l.source).map (l.target.socket, ·)
    else none

/-- What a node gives when `V` holds the values at outputs; nothing if it is skipped. -/
def contribution (g : Graph) (palette : Palette) (V : SortedMap Endpoint Value) (n : NodeId) :
    Option Contribution := do
  let node ← g.nodes.get? n
  let kind ← palette.get? node.kind
  (kind.evaluate ⟨n, node.data, g.connectedOutputs n⟩ (g.inflow V n kind)).toOption

/-- The edits that a node makes when `V` holds the values at outputs. -/
def edits (g : Graph) (palette : Palette) (V : SortedMap Endpoint Value) (n : NodeId) : List Edit :=
  ((g.contribution palette V n).map (·.edits)).getD []

/-- The statements that a node emits when `V` holds the values at outputs. -/
def emitted (g : Graph) (palette : Palette) (V : SortedMap Endpoint Value) (n : NodeId) :
    List Statement :=
  ((g.contribution palette V n).map (·.statements)).getD []

/-- The values at a node are the outputs that it gives. -/
def Balanced (g : Graph) (palette : Palette) (V : SortedMap Endpoint Value) (n : NodeId) : Prop :=
  ∀ s, V.get? ⟨n, s⟩ = (g.contribution palette V n).bind (·.outputs.get? s)

/-- Values at outputs of nodes only, which at each node are the outputs that it gives. -/
structure Solution (g : Graph) (palette : Palette) (V : SortedMap Endpoint Value) : Prop where
  at_nodes : ∀ p v, V.get? p = some v → g.nodes.contains p.node = true
  balanced : ∀ n, g.nodes.contains n = true → g.Balanced palette V n

variable {g : Graph} {palette : Palette} {V V' : SortedMap Endpoint Value} {n : NodeId}

theorem filterMap_edits : (g.edits palette V n).filterMap Edit.statement? =
    g.emitted palette V n := by
  rw [edits, emitted]
  cases g.contribution palette V n <;> rfl

/-- A node of a known kind gives what the kind gives on the values that reach it. -/
theorem contribution_eq {node : Node} {kind : Kind} (hnode : g.nodes.get? n = some node)
    (hkind : palette.get? node.kind = some kind) : g.contribution palette V n =
      (kind.evaluate ⟨n, node.data, g.connectedOutputs n⟩ (g.inflow V n kind)).toOption := by
  simp only [contribution, hnode, hkind, Option.bind_eq_bind, Option.bind_some]

theorem inflow_congr {kind : Kind}
    (h : ∀ m, g.Feeds m n → ∀ s, V.get? ⟨m, s⟩ = V'.get? ⟨m, s⟩) :
    g.inflow V n kind = g.inflow V' n kind := by
  unfold inflow
  congr 1
  refine List.filterMap_congr fun l hl => ?_
  split
  · rename_i htarget
    rw [h l.source.node ⟨l, hl, rfl, htarget.1⟩ l.source.socket]
  · rfl

/-- What a node gives depends on the values at its producers only. -/
theorem contribution_congr (h : ∀ m, g.Feeds m n → ∀ s, V.get? ⟨m, s⟩ = V'.get? ⟨m, s⟩) :
    g.contribution palette V n = g.contribution palette V' n := by
  unfold contribution
  simp only [inflow_congr h]

/-- Where two maps satisfy the equations of nodes that come first in a topological order, they hold
the same values. -/
theorem Balanced.agree {order placed rest : List NodeId}
    (horder : Topological g.Feeds g.nodes.keys order) (hsplit : order = placed ++ rest)
    (h : ∀ n ∈ placed, g.Balanced palette V n) (h' : ∀ n ∈ placed, g.Balanced palette V' n) :
    ∀ n ∈ placed, ∀ s, V.get? ⟨n, s⟩ = V'.get? ⟨n, s⟩ := by
  induction placed using List.reverseRecOn generalizing rest with
  | nil => simp
  | append_singleton placed n ih =>
    have hsplit' : order = placed ++ n :: rest := by simpa using hsplit
    have hplaced := ih hsplit' (fun k hk => h k (List.mem_append_left _ hk))
      fun k hk => h' k (List.mem_append_left _ hk)
    intro k hk s
    rcases List.mem_append.1 hk with hk | hk
    · exact hplaced k hk s
    · obtain rfl : k = n := by simpa using hk
      have hbefore := horder.before placed k rest hsplit'
      rw [h k (by simp) s, h' k (by simp) s,
        contribution_congr fun m hm => hplaced m (hbefore m hm)]

/-- The equations of a graph with a topological order have at most one solution. -/
theorem Solution.unique {order : List NodeId} (horder : Topological g.Feeds g.nodes.keys order)
    (h : g.Solution palette V) (h' : g.Solution palette V') : V = V' := by
  have hbalanced : ∀ {W}, g.Solution palette W → ∀ n ∈ order, g.Balanced palette W n :=
    fun hW n hn => hW.balanced n (SortedMap.contains_iff_mem_keys.2 (horder.perm.mem_iff.1 hn))
  have hagree := Balanced.agree horder (List.append_nil order).symm (hbalanced h) (hbalanced h')
  refine SortedMap.ext_get? fun p => ?_
  by_cases hp : p.node ∈ order
  · exact hagree p.node hp p.socket
  · -- Neither map has a value outside the nodes.
    have hnone : ∀ {W}, g.Solution palette W → W.get? p = none := by
      intro W hW
      cases hget : W.get? p with
      | none => rfl
      | some v =>
        have hkey := SortedMap.contains_iff_mem_keys.1 (hW.at_nodes p v hget)
        exact absurd (horder.perm.mem_iff.2 hkey) hp
    rw [hnone h, hnone h']

/-- The value that reaches a declared input is the one at the output that feeds it. -/
theorem get?_inflow {ps : Producers} (hps : ps.Holds g.connections) (kind : Kind) (s : Name) :
    (g.inflow V n kind).get? s =
      if s ∈ kind.sockets.inputs.map (·.name) then (ps.get? ⟨n, s⟩).bind V.get? else none := by
  refine SortedMap.get?_ofList_of_mem_iff fun v => ?_
  rw [List.mem_filterMap, Option.ite_none_right_eq_some, Option.bind_eq_some_iff]
  constructor
  · rintro ⟨l, hl, heq⟩
    split at heq
    · rename_i htarget
      obtain ⟨w, hw, hpair⟩ := Option.map_eq_some_iff.1 heq
      obtain ⟨rfl, rfl⟩ := Prod.mk.inj hpair
      obtain ⟨rfl, hs⟩ := htarget
      exact ⟨hs, l.source, (hps l.source l.target).2 hl, hw⟩
    · simp at heq
  · rintro ⟨hs, source, hsource, hget⟩
    refine ⟨⟨source, ⟨n, s⟩⟩, (hps source ⟨n, s⟩).1 hsource, ?_⟩
    rw [if_pos ⟨rfl, hs⟩, hget]
    rfl

end Graph

/-! ## What a pass hands to a node -/

namespace Pass

variable {pass : Pass} {n : NodeId} {kind : Kind}

theorem get?_inputs (s : Name) : (pass.inputs n kind).get? s =
    if s ∈ kind.sockets.inputs.map (·.name) then
      (pass.graph.producers.get? ⟨n, s⟩).bind pass.values.get?
    else none := by
  refine SortedMap.get?_ofList_of_mem_iff fun v => ?_
  rw [List.mem_filterMap, Option.ite_none_right_eq_some, List.mem_map]
  constructor
  · rintro ⟨socket, hsocket, heq⟩
    obtain ⟨w, hw, hpair⟩ := Option.map_eq_some_iff.1 heq
    obtain ⟨rfl, rfl⟩ := Prod.mk.inj hpair
    exact ⟨⟨socket, hsocket, rfl⟩, hw⟩
  · rintro ⟨⟨socket, hsocket, rfl⟩, hget⟩
    exact ⟨socket, hsocket, Option.map_eq_some_iff.2 ⟨v, hget, rfl⟩⟩

/-- A pass hands a node what the equations hand it on the values so far. -/
theorem inputs_eq_inflow (hps : pass.graph.producers.Holds pass.graph.connections) :
    pass.inputs n kind = pass.graph.inflow pass.values n kind := by
  refine SortedMap.ext_get? fun s => ?_
  rw [get?_inputs, Graph.get?_inflow hps]

end Pass

end ShaderNodes
