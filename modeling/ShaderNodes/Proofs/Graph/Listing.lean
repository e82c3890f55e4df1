import Mathlib.Data.List.Nodup
import Mathlib.Data.List.Sort
import ShaderNodes.Proofs.Graph.Check

/-!
# Graphs from lists

The nodes and the links of a graph may be listed in any order, and a link more than once. The
fan-out of an output keeps the order of the links, so the graphs are not the same; they are alike,
which is all that a check looks at when it succeeds.

* `ofParts_eq`: nodes of different ids always make a graph.
* `mem_connections_addLinks`, `Unrepeated.addLinks`: its connections are the links, each of them
  once.
* `Alike`, `alike_ofParts`: graphs with the same nodes and the same connections.
* `Alike.check`: they pass the check with the same order and producers.
-/

namespace ShaderNodes

namespace Graph

variable {g g' : Graph}

/-! ## Nodes -/

/-- Nodes under free and different ids are all added. -/
theorem addNodes_eq {nodes : List (NodeId × Node)}
    (hfree : ∀ e ∈ nodes, g.nodes.contains e.1 = false) (hids : (nodes.map (·.1)).Nodup) :
    g.addNodes nodes = .ok { g with nodes := g.nodes.insertAll nodes } := by
  induction nodes generalizing g with
  | nil => rfl
  | cons e nodes ih =>
    obtain ⟨hid, hids⟩ := List.nodup_cons.1 hids
    obtain ⟨hfirst, hfree⟩ := List.forall_mem_cons.1 hfree
    rw [addNodes, addNode, hfirst, if_neg Bool.false_ne_true]
    refine ih (fun d hd => ?_) hids
    have hne : d.1 ≠ e.1 := fun heq => hid (List.mem_map.2 ⟨d, hd, heq⟩)
    rw [SortedMap.contains, SortedMap.get?_insert, if_neg hne]
    exact hfree d hd

theorem ofParts_eq {nodes : List (NodeId × Node)} (hids : (nodes.map (·.1)).Nodup)
    (links : List Link) : ofParts nodes links = .ok (addLinks ⟨.ofList nodes, .empty⟩ links) := by
  rw [ofParts, addNodes_eq (fun _ _ => rfl) hids]
  rfl

/-! ## Links -/

theorem mem_targets {source target : Endpoint} :
    target ∈ g.targets source ↔ ⟨source, target⟩ ∈ g.connections := by
  rw [mem_connections, targets]
  cases g.links.get? source <;> simp

theorem get?_links_link (g : Graph) (source target p : Endpoint) :
    (g.link source target).links.get? p =
      if p = source then
        some (if target ∈ g.targets source then g.targets source else g.targets source ++ [target])
      else g.links.get? p := SortedMap.get?_insert _ _ _ _

theorem mem_connections_link {source target : Endpoint} {l : Link} :
    l ∈ (g.link source target).connections ↔ l ∈ g.connections ∨ l = ⟨source, target⟩ := by
  obtain ⟨p, q⟩ := l
  rw [← mem_targets, ← mem_targets, targets, get?_links_link, Link.mk.injEq]
  by_cases hp : p = source
  · subst hp
    rw [if_pos rfl, Option.getD_some]
    by_cases hold : target ∈ g.targets p
    · rw [if_pos hold]
      exact ⟨.inl, fun h => h.elim id fun h => h.2 ▸ hold⟩
    · rw [if_neg hold, List.mem_append, List.mem_singleton]
      simp
  · rw [if_neg hp]
    simp [hp, targets]

theorem nodes_addLinks (g : Graph) (links : List Link) : (g.addLinks links).nodes = g.nodes := by
  induction links generalizing g with
  | nil => rfl
  | cons l links ih => exact ih (g.link l.source l.target)

theorem mem_connections_addLinks {links : List Link} {l : Link} :
    l ∈ (g.addLinks links).connections ↔ l ∈ g.connections ∨ l ∈ links := by
  induction links generalizing g with
  | nil => simp [addLinks]
  | cons k links ih =>
    rw [addLinks, List.foldl_cons, ← addLinks, ih, mem_connections_link, List.mem_cons, or_assoc]

/-- No output feeds an input twice over. -/
def Unrepeated (g : Graph) : Prop := ∀ source targets, g.links.get? source = some targets →
    targets.Nodup

theorem Unrepeated.targets (h : g.Unrepeated) (source : Endpoint) : (g.targets source).Nodup := by
  rw [Graph.targets]
  cases hget : g.links.get? source with
  | none => exact List.nodup_nil
  | some targets => exact h source targets hget

theorem Unrepeated.link (h : g.Unrepeated) (source target : Endpoint) :
    (g.link source target).Unrepeated := by
  intro p targets hget
  rw [get?_links_link] at hget
  split at hget
  · obtain rfl := Option.some.inj hget
    split
    · exact h.targets source
    · rename_i hnew
      exact (h.targets source).append (List.nodup_singleton target) (List.disjoint_singleton.2 hnew)
  · exact h p targets hget

theorem Unrepeated.addLinks (h : g.Unrepeated) (links : List Link) :
    (g.addLinks links).Unrepeated := by
  induction links generalizing g with
  | nil => exact h
  | cons l links ih => exact ih (h.link l.source l.target)

theorem Unrepeated.nodup (h : g.Unrepeated) : g.connections.Nodup := by
  refine List.nodup_flatMap.2 ⟨fun e he => ?_, g.links.ascending.imp fun {e e'} hlt => ?_⟩
  · exact (h e.1 e.2 (SortedMap.get?_eq_some_iff.2 he)).map fun _ _ heq => (Link.mk.inj heq).2
  · -- Links from different outputs differ.
    intro l hl hl'
    obtain ⟨_, -, rfl⟩ := List.mem_map.1 hl
    obtain ⟨_, -, heq⟩ := List.mem_map.1 hl'
    have hself : compare e.1 e.1 = .eq := Std.ReflCmp.compare_self
    rw [(Link.mk.inj heq).1, hself] at hlt
    cases hlt

/-! ## Alike graphs -/

/-- The same nodes, and the same connections in another order. -/
structure Alike (g g' : Graph) : Prop where
  nodes : g.nodes = g'.nodes
  connections : g.connections.Perm g'.connections

theorem Alike.symm (h : g.Alike g') : g'.Alike g := ⟨h.nodes.symm, h.connections.symm⟩

/-- Graphs of the same nodes and links are alike, however these are listed. -/
theorem alike_ofParts {nodes nodes' : List (NodeId × Node)} {links links' : List Link}
    (hids : (nodes.map (·.1)).Nodup) (hnodes : nodes.Perm nodes')
    (hlinks : ∀ l, l ∈ links ↔ l ∈ links') :
    (addLinks ⟨.ofList nodes, .empty⟩ links).Alike (addLinks ⟨.ofList nodes', .empty⟩ links') where
  nodes := by
    rw [nodes_addLinks, nodes_addLinks]
    exact SortedMap.ofList_perm hids hnodes
  connections := by
    have hempty : ∀ m, Unrepeated ⟨m, .empty⟩ := nofun
    refine (List.perm_ext_iff_of_nodup ((hempty _).addLinks links).nodup
      ((hempty _).addLinks links').nodup).2 fun l => ?_
    rw [mem_connections_addLinks, mem_connections_addLinks, hlinks]
    rfl

/-- The outputs that feed an input are those with a connection. -/
theorem mem_connectedOutputs {n : NodeId} {s : Name} :
    s ∈ g.connectedOutputs n ↔ ∃ target, ⟨⟨n, s⟩, target⟩ ∈ g.connections := by
  simp only [connectedOutputs, List.mem_map, List.mem_filter, Bool.and_eq_true, decide_eq_true_eq,
    Bool.not_eq_true', List.isEmpty_eq_false_iff_exists_mem, mem_connections]
  constructor
  · rintro ⟨⟨p, targets⟩, ⟨he, rfl, target, htarget⟩, rfl⟩
    exact ⟨target, targets, SortedMap.get?_eq_some_iff.2 he, htarget⟩
  · rintro ⟨target, targets, hget, htarget⟩
    exact ⟨(⟨n, s⟩, targets), ⟨SortedMap.get?_eq_some_iff.1 hget, rfl, target, htarget⟩, rfl⟩

theorem connectedOutputs_ascending (g : Graph) (n : NodeId) :
    (g.connectedOutputs n).Pairwise (· < ·) := by
  refine List.pairwise_map.2 ((g.links.ascending.filter _).imp_of_mem fun {e e'} he he' hlt => ?_)
  have hnode : ∀ {e : Endpoint × List Endpoint},
      e ∈ g.links.entries.filter (fun e => e.1.node = n && !e.2.isEmpty) → e.1.node = n := by
    intro e he
    have h := (List.mem_filter.1 he).2
    rw [Bool.and_eq_true, decide_eq_true_eq] at h
    exact h.1
  -- Of outputs of one node the sockets decide.
  have hsame : compareOn Endpoint.node e.1 e'.1 = .eq := by
    rw [compareOn, hnode he, hnode he']
    exact Std.ReflCmp.compare_self
  change (compareOn Endpoint.node e.1 e'.1).then (compareOn Endpoint.socket e.1 e'.1) = .lt at hlt
  rw [hsame] at hlt
  exact compare_lt_iff_lt.1 hlt

namespace Alike

variable {ps : Producers}

theorem mem_iff (h : g.Alike g') {l : Link} : l ∈ g.connections ↔ l ∈ g'.connections :=
  h.connections.mem_iff

theorem connectedOutputs (h : g.Alike g') (n : NodeId) :
    g.connectedOutputs n = g'.connectedOutputs n := by
  refine (g.connectedOutputs_ascending n).eq_of_mem_iff (g'.connectedOutputs_ascending n)
    fun s => ?_
  rw [mem_connectedOutputs, mem_connectedOutputs]
  exact exists_congr fun target => h.mem_iff

theorem holds (h : g.Alike g') (hps : ps.Holds g.connections) : ps.Holds g'.connections :=
  fun source target => (hps source target).trans h.mem_iff

/-- What passes the check in one listing passes it in any other, with the same order and
producers. -/
theorem check (h : g.Alike g') {cg : CheckedGraph} (hg : g.check = .ok cg) :
    g'.check = .ok { g' with order := cg.order, producers := cg.producers } := by
  rcases g.sound_or_firstFault with ⟨hjoined, hsingle⟩ | ⟨e, hfault⟩
  · have hjoined' : Joined g'.nodes g'.connections :=
      fun l hl => h.nodes ▸ hjoined l (h.mem_iff.2 hl)
    have hsingle' : SingleFed g'.connections := (h.connections.map Link.target).nodup_iff.1 hsingle
    obtain ⟨ps, hscan, hps⟩ := exists_producers hjoined hsingle
    obtain ⟨ps', hscan', hps'⟩ := exists_producers hjoined' hsingle'
    obtain rfl : ps = ps' := SortedMap.ext_get? fun target => Option.ext fun source => by
      rw [hps source target, hps' source target, h.mem_iff]
    rw [check_of_producers hscan] at hg
    rw [check_of_producers hscan', ← h.nodes]
    cases horder : ps.order g.nodes.keys with
    | error e =>
      rw [horder] at hg
      cases hg
    | ok order =>
      rw [horder] at hg
      obtain rfl := Except.ok.inj hg
      rfl
  · rw [check_of_firstFault hfault] at hg
    cases hg

end Alike

end Graph

end ShaderNodes
