import ShaderNodes.Compiler.Basic
import ShaderNodes.Proofs.Compiler.Dataflow

/-!
# Runs of a pass

A pass that has visited the nodes `placed` is settled (`Pass.Settled`): it has values at these nodes
only, they satisfy the equations of these nodes, and the draft is what the edits of the nodes make
on them. What comes later in the order feeds none of them, so a visit keeps all of this.

* `Pass.Settled.visit`: a visit settles one more node.
* `Pass.walk`: a pass after the turns of nodes, and `Pass.Settled.walk`: along the order they
  settle.
* `Compiler.Walked`: where a compiler stands after some steps, up to the end of the order and
  beyond.
* `Compiler.completed_values_eq_solution`: the values of a completed pass are the solution of the
  equations.
-/

namespace ShaderNodes

open Precedence

/-- A graph as its check left it, with kinds that the palette has. -/
structure CheckedGraph.Runnable (g : CheckedGraph) (palette : Palette) : Prop where
  producers : g.producers.Holds g.connections
  order : Topological g.Feeds g.nodes.keys g.order
  kinds : ∀ id node, g.nodes.get? id = some node → ∃ kind, palette.get? node.kind = some kind

theorem CheckedGraph.Runnable.exists_kind {g : CheckedGraph} {palette : Palette} {n : NodeId}
    (h : g.Runnable palette) (hn : n ∈ g.order) :
    ∃ node kind, g.nodes.get? n = some node ∧ palette.get? node.kind = some kind := by
  obtain ⟨node, hnode⟩ := SortedMap.mem_keys_iff.1 (h.order.perm.mem_iff.1 hn)
  obtain ⟨kind, hkind⟩ := h.kinds n node hnode
  exact ⟨node, kind, hnode, hkind⟩

theorem CheckedGraph.Runnable.contains {g : CheckedGraph} {palette : Palette} {n : NodeId}
    (h : g.Runnable palette) (hn : n ∈ g.order) : g.nodes.contains n = true :=
  SortedMap.contains_iff_mem_keys.2 (h.order.perm.mem_iff.1 hn)

/-- The nodes before a place, the node there, and those after it. -/
theorem CheckedGraph.order_eq_take_append (g : CheckedGraph) {k : Nat} (hk : k < g.order.length) :
    g.order = g.order.take k ++ g.order[k] :: g.order.drop (k + 1) := by
  rw [← List.drop_eq_getElem_cons hk, List.take_append_drop]

namespace Pass

/-! ## One visit -/

theorem get?_absorb (pass : Pass) (n : NodeId) (c : Contribution) (m : NodeId) (s : Name) :
    (pass.absorb n c).values.get? ⟨m, s⟩ =
      (if m = n then c.outputs.get? s else none).or (pass.values.get? ⟨m, s⟩) := by
  refine SortedMap.get?_insertAll_of_mem_iff _ fun v => ?_
  rw [List.mem_map, Option.ite_none_right_eq_some, SortedMap.get?_eq_some_iff]
  constructor
  · rintro ⟨e, he, heq⟩
    obtain ⟨hp, rfl⟩ := Prod.mk.inj heq
    obtain ⟨rfl, rfl⟩ := Endpoint.mk.inj hp
    exact ⟨rfl, he⟩
  · rintro ⟨rfl, hv⟩
    exact ⟨(s, v), hv, rfl⟩

/-- The pass has visited the nodes `placed`, and what it has is what their equations say. -/
structure Settled (palette : Palette) (g : CheckedGraph) (placed : List NodeId) (pass : Pass) :
    Prop where
  graph : pass.graph = g
  within : ∀ p v, pass.values.get? p = some v → p.node ∈ placed
  balanced : ∀ n ∈ placed, g.Balanced palette pass.values n
  draft : pass.draft =
    ({ config := pass.draft.config } : Draft).run (placed.flatMap (g.edits palette pass.values))

variable {palette : Palette} {g : CheckedGraph} {placed rest : List NodeId} {pass : Pass}
  {n : NodeId} {node : Node} {kind : Kind}

theorem settled_start (palette : Palette) (number : UInt64) (g : CheckedGraph) (config : Config) :
    Settled palette g [] (start number g config) where
  graph := rfl
  within := by simp [start, SortedMap.get?_empty]
  balanced := by simp
  draft := rfl

/-- The statements are those that the nodes emit, in order. -/
theorem Settled.statements (h : pass.Settled palette g placed) :
    pass.draft.statements = placed.flatMap (g.emitted palette pass.values) := by
  rw [h.draft, Draft.statements_run, List.filterMap_flatMap]
  exact List.flatMap_congr fun n _ => Graph.filterMap_edits

/-- What a node gives in a pass is what its equation says. -/
theorem toOption_evaluate (hps : g.producers.Holds g.connections) (hgraph : pass.graph = g)
    (hnode : g.nodes.get? n = some node) (hkind : palette.get? node.kind = some kind) :
    (pass.evaluate n node kind).toOption = g.contribution palette pass.values n := by
  subst hgraph
  rw [evaluate, context, inputs_eq_inflow hps, Graph.contribution_eq hnode hkind]

/-- A visit puts the outputs of the node where no values were, and nothing else. -/
theorem get?_visit {contribution : Option Contribution}
    (heval : (pass.evaluate n node kind).toOption = contribution)
    (hfree : ∀ s, pass.values.get? ⟨n, s⟩ = none) (m : NodeId) (s : Name) :
    (pass.visit n node kind).values.get? ⟨m, s⟩ =
      if m = n then contribution.bind (·.outputs.get? s) else pass.values.get? ⟨m, s⟩ := by
  subst heval
  rw [visit]
  cases pass.evaluate n node kind with
  | error skip =>
    by_cases hm : m = n
    · subst hm
      rw [if_pos rfl, hfree]
      rfl
    · rw [if_neg hm]
  | ok c =>
    change (pass.absorb n c).values.get? ⟨m, s⟩ = _
    rw [get?_absorb]
    by_cases hm : m = n
    · subst hm
      rw [if_pos rfl, if_pos rfl, hfree, Option.or_none]
      rfl
    · rw [if_neg hm, if_neg hm, Option.none_or]

/-- A visit gives values at the visited node only. -/
theorem eq_or_of_get?_visit {p : Endpoint} {v : Value}
    (h : (pass.visit n node kind).values.get? p = some v) :
    p.node = n ∨ pass.values.get? p = some v := by
  rw [visit] at h
  cases heval : pass.evaluate n node kind with
  | error skip => exact .inr (by simpa [heval] using h)
  | ok c =>
    simp only [heval] at h
    have hget := pass.get?_absorb n c p.node p.socket
    by_cases hp : p.node = n
    · exact .inl hp
    · rw [if_neg hp, Option.none_or] at hget
      exact .inr (hget ▸ h)

theorem draft_visit {contribution : Option Contribution}
    (heval : (pass.evaluate n node kind).toOption = contribution) :
    (pass.visit n node kind).draft = pass.draft.run ((contribution.map (·.edits)).getD []) := by
  subst heval
  rw [visit]
  cases pass.evaluate n node kind <;> rfl

theorem graph_visit (pass : Pass) (n : NodeId) (node : Node) (kind : Kind) :
    (pass.visit n node kind).graph = pass.graph := by
  rw [visit]
  cases pass.evaluate n node kind <;> rfl

theorem cursor_visit (pass : Pass) (n : NodeId) (node : Node) (kind : Kind) :
    (pass.visit n node kind).cursor = pass.cursor := by
  rw [visit]
  cases pass.evaluate n node kind <;> rfl

/-- A visit settles the node: its producers have had their turn, and it feeds no node that has. -/
theorem Settled.visit (hrun : g.Runnable palette) (hsplit : g.order = placed ++ n :: rest)
    (h : pass.Settled palette g placed) (hnode : g.nodes.get? n = some node)
    (hkind : palette.get? node.kind = some kind) :
    (pass.visit n node kind).Settled palette g (placed ++ [n]) := by
  have horder : Topological g.Feeds g.nodes.keys (placed ++ n :: rest) := hsplit ▸ hrun.order
  have hnew : n ∉ placed := (horder.ready g.nodes.keys_nodup).2.1
  have hfree : ∀ s, pass.values.get? ⟨n, s⟩ = none := by
    intro s
    cases hget : pass.values.get? ⟨n, s⟩ with
    | none => rfl
    | some v => exact absurd (h.within _ _ hget) hnew
  have heval := toOption_evaluate hrun.producers h.graph hnode hkind
  have hget := get?_visit heval hfree
  have hkept : ∀ m ∈ placed, ∀ s,
      (pass.visit n node kind).values.get? ⟨m, s⟩ = pass.values.get? ⟨m, s⟩ := by
    intro m hm s
    rw [hget, if_neg (ne_of_mem_of_not_mem hm hnew)]
  -- No node so far reads the new values, so all of them give what they gave.
  have hgives : ∀ k ∈ placed ++ [n],
      g.contribution palette (pass.visit n node kind).values k =
        g.contribution palette pass.values k := fun k hk =>
    Graph.contribution_congr fun m hm => hkept m (horder.mem_placed hk hm)
  refine ⟨(graph_visit ..).trans h.graph, ?_, ?_, ?_⟩
  · intro p v hp
    rw [hget] at hp
    split at hp
    · rename_i hpn
      exact List.mem_append_right _ (List.mem_singleton.2 hpn)
    · exact List.mem_append_left _ (h.within _ _ hp)
  · intro k hk s
    rw [hgives k hk]
    rcases List.mem_append.1 hk with hk | hk
    · rw [hkept k hk, h.balanced k hk]
    · obtain rfl : k = n := List.mem_singleton.1 hk
      rw [hget, if_pos rfl]
  · have hedits : ∀ k ∈ placed ++ [n],
        g.edits palette (pass.visit n node kind).values k = g.edits palette pass.values k := by
      intro k hk
      rw [Graph.edits, hgives k hk, Graph.edits]
    have hdraft := draft_visit heval
    rw [List.flatMap_congr hedits, List.flatMap_append, List.flatMap_singleton, Draft.run_append,
      hdraft, Draft.config_run, ← h.draft, Graph.edits]

/-- When all nodes have had their turn, the values satisfy all equations. -/
theorem Settled.solution (hrun : g.Runnable palette) (h : pass.Settled palette g g.order) :
    g.Solution palette pass.values where
  at_nodes p v hp :=
    SortedMap.contains_iff_mem_keys.2 (hrun.order.perm.mem_iff.1 (h.within p v hp))
  balanced n hn :=
    h.balanced n (hrun.order.perm.mem_iff.2 (SortedMap.contains_iff_mem_keys.1 hn))

/-- The next node is handed what it would be handed on the values at the end. -/
theorem Settled.inputs_eq_inflow {V : SortedMap Endpoint Value} (hrun : g.Runnable palette)
    (hsplit : g.order = placed ++ n :: rest) (h : pass.Settled palette g placed)
    (hV : g.Solution palette V) : pass.inputs n kind = g.inflow V n kind := by
  have hbalanced : ∀ m ∈ placed, g.Balanced palette V m := by
    intro m hm
    have hkey : m ∈ g.nodes.keys :=
      hrun.order.perm.mem_iff.1 (hsplit ▸ List.mem_append_left _ hm)
    exact hV.balanced m (SortedMap.contains_iff_mem_keys.2 hkey)
  have hagree := Graph.Balanced.agree hrun.order hsplit h.balanced hbalanced
  have hgraph := h.graph
  subst hgraph
  rw [Pass.inputs_eq_inflow hrun.producers]
  exact Graph.inflow_congr fun m hm => hagree m (hrun.order.before placed n rest hsplit m hm)

/-! ## Turns along an order -/

/-- The pass after the turn of the next node. A node that is there and of a known kind is visited;
any other is passed over. -/
def advance (palette : Palette) (pass : Pass) (n : NodeId) : Pass :=
  let next := { pass with cursor := pass.cursor + 1 }
  match pass.graph.nodes.get? n with
  | none => next
  | some node =>
    match palette.get? node.kind with
    | none => next
    | some kind => next.visit n node kind

/-- The pass after the turns of nodes, one after another. -/
def walk (palette : Palette) (pass : Pass) (ids : List NodeId) : Pass :=
  ids.foldl (advance palette) pass

/-- A turn is a visit or nothing, one place further. -/
theorem advance_cases (palette : Palette) (pass : Pass) (n : NodeId) :
    pass.advance palette n = { pass with cursor := pass.cursor + 1 } ∨
      ∃ node kind, pass.advance palette n =
        { pass with cursor := pass.cursor + 1 }.visit n node kind := by
  rw [advance]
  cases pass.graph.nodes.get? n with
  | none => exact .inl rfl
  | some node =>
    simp only
    cases palette.get? node.kind with
    | none => exact .inl rfl
    | some kind => exact .inr ⟨node, kind, rfl⟩

theorem graph_advance (palette : Palette) (pass : Pass) (n : NodeId) :
    (pass.advance palette n).graph = pass.graph := by
  obtain h | ⟨node, kind, h⟩ := pass.advance_cases palette n
  · rw [h]
  · rw [h, graph_visit]

theorem cursor_advance (palette : Palette) (pass : Pass) (n : NodeId) :
    (pass.advance palette n).cursor = pass.cursor + 1 := by
  obtain h | ⟨node, kind, h⟩ := pass.advance_cases palette n
  · rw [h]
  · rw [h, cursor_visit]

/-- A turn gives values at its node only. -/
theorem eq_or_of_get?_advance {p : Endpoint} {v : Value}
    (h : (pass.advance palette n).values.get? p = some v) :
    p.node = n ∨ pass.values.get? p = some v := by
  obtain hadvance | ⟨node, kind, hadvance⟩ := pass.advance_cases palette n
  · exact .inr (by simpa [hadvance] using h)
  · rw [hadvance] at h
    have hcases := eq_or_of_get?_visit h
    exact hcases

theorem walk_append (palette : Palette) (pass : Pass) (ids ids' : List NodeId) :
    pass.walk palette (ids ++ ids') = (pass.walk palette ids).walk palette ids' :=
  List.foldl_append

theorem graph_walk (palette : Palette) (ids : List NodeId) (pass : Pass) :
    (pass.walk palette ids).graph = pass.graph := by
  induction ids generalizing pass with
  | nil => rfl
  | cons n ids ih => exact (ih (pass.advance palette n)).trans (graph_advance ..)

theorem cursor_walk (palette : Palette) (ids : List NodeId) (pass : Pass) :
    (pass.walk palette ids).cursor = pass.cursor + ids.length := by
  induction ids generalizing pass with
  | nil => rfl
  | cons n ids ih =>
    have h := ih (pass.advance palette n)
    rw [cursor_advance, Nat.add_right_comm] at h
    exact h

theorem cursor_walk_take (palette : Palette) (number : UInt64) (g : CheckedGraph) (config : Config)
    (k : Nat) :
    ((start number g config).walk palette (g.order.take k)).cursor = min k g.order.length := by
  rw [cursor_walk, List.length_take]
  exact Nat.zero_add _

/-- Only nodes that had their turn have values. -/
theorem mem_or_of_get?_walk {ids : List NodeId} {p : Endpoint} {v : Value}
    (h : (pass.walk palette ids).values.get? p = some v) :
    p.node ∈ ids ∨ pass.values.get? p = some v := by
  induction ids generalizing pass with
  | nil => exact .inr h
  | cons n ids ih =>
    obtain hmem | h := ih h
    · exact .inl (List.mem_cons_of_mem n hmem)
    · obtain hn | h := eq_or_of_get?_advance h
      · exact .inl (hn ▸ List.mem_cons_self)
      · exact .inr h

/-- The turn of the next node settles it. -/
theorem Settled.advance (hrun : g.Runnable palette) (hsplit : g.order = placed ++ n :: rest)
    (h : pass.Settled palette g placed) :
    (pass.advance palette n).Settled palette g (placed ++ [n]) := by
  obtain ⟨node, kind, hnode, hkind⟩ := hrun.exists_kind (n := n) (by simp [hsplit])
  have hvisit : pass.advance palette n =
      { pass with cursor := pass.cursor + 1 }.visit n node kind := by
    simp only [Pass.advance, h.graph, hnode, hkind]
  rw [hvisit]
  exact Settled.visit hrun hsplit ⟨h.graph, h.within, h.balanced, h.draft⟩ hnode hkind

/-- Turns along the order settle the nodes that have them. -/
theorem Settled.walk {ids : List NodeId} (hrun : g.Runnable palette)
    (hsplit : g.order = placed ++ (ids ++ rest)) (h : pass.Settled palette g placed) :
    (pass.walk palette ids).Settled palette g (placed ++ ids) := by
  induction ids generalizing placed pass with
  | nil =>
    rw [List.append_nil]
    exact h
  | cons n ids ih =>
    have hnext := h.advance hrun hsplit
    rw [List.append_cons]
    exact ih (by simp [hsplit]) hnext

end Pass

/-! ## Runs -/

namespace Compiler

open Pass

/-- The compiler after some steps. -/
def after (c : Compiler) : Nat → Compiler
  | 0 => c
  | k + 1 => (c.after k).step.compiler

/-- The compiler has taken `k` steps of a pass over `g`, whatever they answered. The nodes that had
their turn are the first of the order, and the step that found no node completed the pass. -/
structure Walked (palette : Palette) (g : CheckedGraph) (k : Nat) (c : Compiler) : Prop where
  palette_eq : c.palette = palette
  stage : ∃ number config pass, (Pass.start number g config).walk palette (g.order.take k) = pass ∧
    c.stage = if k ≤ g.order.length then .running pass else .completed pass

variable {c : Compiler} {palette : Palette} {g : CheckedGraph} {k : Nat} {pass : Pass}

/-- Where a node is left, a step gives it its turn. -/
theorem step_of_next {n : NodeId} (hstage : c.stage = .running pass)
    (hnext : pass.graph.order[pass.cursor]? = some n) :
    c.step.compiler = { c with stage := .running (pass.advance c.palette n) } := by
  simp only [step, hstage, hnext, advance]
  cases hnode : pass.graph.nodes.get? n with
  | none => rfl
  | some node =>
    simp only
    cases hkind : c.palette.get? node.kind <;> rfl

/-- Where no node is left, a step completes the pass. -/
theorem step_of_end (hstage : c.stage = .running pass)
    (hend : pass.graph.order[pass.cursor]? = none) :
    c.step.compiler = { c with stage := .completed pass } := by
  simp only [step, hstage, hend]

theorem step_of_completed (hstage : c.stage = .completed pass) : c.step.compiler = c := by
  simp only [step, hstage]

/-- A step takes one turn. -/
theorem Walked.step (h : c.Walked palette g k) : c.step.compiler.Walked palette g (k + 1) := by
  obtain ⟨rfl, number, config, pass, hwalk, hstage⟩ := h
  have hgraph : pass.graph = g := hwalk ▸ graph_walk ..
  have hcursor : pass.cursor = min k g.order.length := hwalk ▸ cursor_walk_take ..
  rcases lt_trichotomy k g.order.length with hk | hk | hk
  · -- The next node has its turn.
    have hnext : pass.graph.order[pass.cursor]? = some g.order[k] := by
      rw [hgraph, hcursor, Nat.min_eq_left hk.le, List.getElem?_eq_getElem hk]
    rw [if_pos hk.le] at hstage
    rw [step_of_next hstage hnext]
    refine ⟨rfl, number, config, _, ?_, (if_pos hk).symm⟩
    rw [List.take_succ_eq_append_getElem hk, walk_append, hwalk]
    rfl
  · -- All nodes had their turn, and this is noticed.
    have hend : pass.graph.order[pass.cursor]? = none := by
      rw [hgraph, List.getElem?_eq_none_iff]
      omega
    rw [if_pos hk.le] at hstage
    rw [step_of_end hstage hend]
    refine ⟨rfl, number, config, pass, ?_, (if_neg (by omega)).symm⟩
    rwa [List.take_of_length_le (by omega), ← List.take_of_length_le hk.ge]
  · rw [if_neg (by omega)] at hstage
    rw [step_of_completed hstage]
    refine ⟨rfl, number, config, pass, ?_, by rw [hstage, if_neg (by omega)]⟩
    rwa [List.take_of_length_le (by omega), ← List.take_of_length_le hk.le]

/-- A compiler that has just started a pass walks along its order. -/
theorem Walked.after (h : c.Walked palette g 0) (k : Nat) : (c.after k).Walked palette g k := by
  induction k with
  | zero => exact h
  | succ k ih => exact ih.step

/-- Where the pass stands, and the nodes that have values. -/
theorem Walked.exists_pass (h : c.Walked palette g k) :
    ∃ pass, pass.graph = g ∧ pass.cursor = min k g.order.length ∧
      (∀ p v, pass.values.get? p = some v → p.node ∈ g.order.take k) ∧
      c.stage = if k ≤ g.order.length then .running pass else .completed pass := by
  obtain ⟨-, number, config, _, rfl, hstage⟩ := h
  refine ⟨_, graph_walk .., cursor_walk_take .., fun p v hp => ?_, hstage⟩
  obtain hmem | hstart := mem_or_of_get?_walk hp
  · exact hmem
  · simp [Pass.start, SortedMap.get?_empty] at hstart

/-- The pass is completed by the step after the last turn. -/
theorem Walked.completed_iff (h : c.Walked palette g k) :
    (∃ pass, c.stage = .completed pass) ↔ g.order.length < k := by
  obtain ⟨pass, -, -, -, hstage⟩ := h.exists_pass
  rw [hstage]
  split <;> simp <;> omega

/-- Over a graph that can be run, the nodes that had their turn are settled. -/
theorem Walked.exists_settled (hrun : g.Runnable palette) (h : c.Walked palette g k) :
    ∃ pass, pass.Settled palette g (g.order.take k) ∧ pass.cursor = min k g.order.length ∧
      c.stage = if k ≤ g.order.length then .running pass else .completed pass := by
  obtain ⟨-, number, config, _, rfl, hstage⟩ := h
  have hsettled :=
    (settled_start palette number g config).walk hrun (List.take_append_drop k g.order).symm
  exact ⟨_, hsettled, cursor_walk_take .., hstage⟩

/-! ## Where a run begins -/

theorem palette_abort (c : Compiler) : c.abort.compiler.palette = c.palette := by
  rw [abort]
  cases c.stage <;> rfl

theorem start_ok (hs : (c.start g).result = .ok ()) :
    objection? c.palette g.toGraph = none ∧ (c.start g).compiler.palette = c.palette ∧
      ∃ number config, (c.start g).compiler.stage = .running (.start number g config) := by
  have hpalette := c.palette_abort
  unfold start at hs ⊢
  generalize c.abort = aborted at hs hpalette ⊢
  obtain ⟨c', _, events⟩ := aborted
  cases hobjection : objection? c'.palette g.toGraph with
  | some e => simp [hobjection] at hs
  | none =>
    simp only at hpalette
    simp only [hobjection]
    rw [hpalette] at hobjection
    exact ⟨hobjection, hpalette, _, _, rfl⟩

/-- Without an objection, the palette has the kinds of all nodes. -/
theorem exists_kind_of_objection? {g : Graph} {id : NodeId} {node : Node}
    (h : objection? palette g = none) (hnode : g.nodes.get? id = some node) :
    ∃ kind, palette.get? node.kind = some kind := by
  have hkinds : unknownKind? palette g = none := by
    cases hu : unknownKind? palette g with
    | none => rfl
    | some e => simp [objection?, hu] at h
  have hentry := List.findSome?_eq_none_iff.1 hkinds (id, node) (SortedMap.get?_eq_some_iff.1 hnode)
  split at hentry
  · rename_i hcontains
    exact SortedMap.exists_get? hcontains
  · simp at hentry

theorem runnable_of_check {g : Graph} {cg : CheckedGraph} (hg : g.check = .ok cg)
    (hobjection : objection? palette g = none) : cg.Runnable palette := by
  obtain ⟨rfl, -, hps, hleast, hperm⟩ := Graph.check_ok hg
  exact ⟨hps, hleast.topological hperm, fun _ _ => exists_kind_of_objection? hobjection⟩

theorem walked_start (hs : (c.start g).result = .ok ()) :
    (c.start g).compiler.Walked c.palette g 0 := by
  obtain ⟨-, hpalette, number, config, hstage⟩ := start_ok hs
  exact ⟨hpalette, number, config, _, rfl, hstage⟩

/-! ## Main result -/

/-- Steps complete a started pass, one for each node and one more. Its values are then the only
solution of the equations of the graph, and its statements are those that the nodes emit on them,
in order. A node has its turn after all nodes that feed it, and is handed what the solution hands
it. -/
theorem completed_values_eq_solution {c : Compiler} {g : Graph} {cg : CheckedGraph}
    (hg : g.check = .ok cg) (hs : (c.start cg).result = .ok ()) :
    (∀ k, (∃ pass, ((c.start cg).compiler.after k).stage = .completed pass) ↔
        cg.order.length < k) ∧
      (∀ k pass, ((c.start cg).compiler.after k).stage = .completed pass →
        g.Solution c.palette pass.values ∧
          (∀ V, g.Solution c.palette V → V = pass.values) ∧
          pass.draft.statements = cg.order.flatMap (g.emitted c.palette pass.values)) ∧
      ∀ k pass n, ((c.start cg).compiler.after k).stage = .running pass →
        cg.order[pass.cursor]? = some n →
        (∀ m, g.Feeds m n → m ∈ cg.order.take pass.cursor) ∧
          ∀ V, g.Solution c.palette V → ∀ kind, pass.inputs n kind = g.inflow V n kind := by
  have hgraph := (Graph.check_ok hg).1
  have hrun : cg.Runnable c.palette := runnable_of_check hg (hgraph ▸ (start_ok hs).1)
  have hwalked := fun k => ((walked_start hs).after k).exists_settled hrun
  subst hgraph
  refine ⟨fun k => ((walked_start hs).after k).completed_iff, fun k pass hstage => ?_,
    fun k pass n hstage hn => ?_⟩
  · obtain ⟨pass', hsettled, -, hstage'⟩ := hwalked k
    rw [hstage'] at hstage
    split at hstage
    · cases hstage
    · rename_i hk
      obtain rfl : pass' = pass := Stage.completed.inj hstage
      rw [List.take_of_length_le (by omega)] at hsettled
      have hsolution := hsettled.solution hrun
      exact ⟨hsolution, fun V hV => hV.unique hrun.order hsolution, hsettled.statements⟩
  · obtain ⟨pass', hsettled, hcursor, hstage'⟩ := hwalked k
    rw [hstage'] at hstage
    split at hstage
    · rename_i hk
      obtain rfl : pass' = pass := Stage.running.inj hstage
      obtain ⟨hlt, rfl⟩ := List.getElem?_eq_some_iff.1 hn
      rw [show k = pass'.cursor by omega] at hsettled
      have hsplit := cg.order_eq_take_append hlt
      exact ⟨hrun.order.before _ _ _ hsplit, fun V hV kind =>
        hsettled.inputs_eq_inflow hrun hsplit hV⟩
    · cases hstage

/-- A compiler for sums of the attributes of a surface. -/
def adder : Compiler where
  palette := Palette.empty.registerAll [("Input", .geometry), ("Math", .operator .add)]
  config := {}

/-- The second sum of the graph lacks an operand, so that it has no value. -/
theorem completed_values_eq_solution_doubled :
    Graph.doubled.check = .ok Graph.doubledChecked ∧
      (adder.start Graph.doubledChecked).result = .ok () ∧
      ∃ pass, ((adder.start Graph.doubledChecked).compiler.after 4).stage = .completed pass ∧
        pass.values.keys = [⟨"a", "c"⟩, ⟨"z", "normal"⟩] ∧
        Graph.doubled.Solution adder.palette pass.values := by
  have hg : Graph.doubled.check = .ok Graph.doubledChecked := rfl
  have hs : (adder.start Graph.doubledChecked).result = .ok () := rfl
  obtain ⟨hcompleted, hsolution, -⟩ := completed_values_eq_solution hg hs
  obtain ⟨pass, hpass⟩ := (hcompleted 4).2 (by decide)
  have hkeys : ((adder.start Graph.doubledChecked).compiler.after 4).values?.map (·.keys) =
      some [⟨"a", "c"⟩, ⟨"z", "normal"⟩] := by decide +kernel
  rw [values?, hpass] at hkeys
  exact ⟨hg, hs, pass, hpass, Option.some.inj hkeys, (hsolution 4 pass hpass).1⟩

end Compiler

end ShaderNodes
