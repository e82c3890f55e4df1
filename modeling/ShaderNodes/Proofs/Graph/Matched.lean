import Mathlib.Data.Set.Function
import ShaderNodes.Proofs.Graph.Listing

/-!
# Graphs that match

A graph matches another one when its nodes stand there under new ids, of the same kinds, with the
same links between them. The new ids may be in any order, and the data of the nodes is not compared.

* `Graph.rename`: the graph with new ids; `Graph.matches_rename` says that it matches.
* `Graph.Matches.exists_check`: a graph that matches a checked one passes the check too.
* `Graph.Matches.connectedOutputs`, `Graph.Matches.get?_producers`: nodes that stand for each other
  feed and are fed by nodes that stand for each other.
-/

namespace ShaderNodes

open Precedence Relation

/-- The socket at the node with the new id. -/
def Endpoint.rename (f : NodeId → NodeId) (p : Endpoint) : Endpoint := ⟨f p.node, p.socket⟩

/-- The link between the nodes with the new ids. -/
def Link.rename (f : NodeId → NodeId) (l : Link) : Link := ⟨l.source.rename f, l.target.rename f⟩

theorem Endpoint.rename_inj {f : NodeId → NodeId} {s : Set NodeId} (hf : Set.InjOn f s)
    {p q : Endpoint} (hp : p.node ∈ s) (hq : q.node ∈ s) (h : p.rename f = q.rename f) : p = q := by
  obtain ⟨hnode, hsocket⟩ := Endpoint.mk.inj h
  cases p
  cases q
  exact congrArg₂ Endpoint.mk (hf hp hq hnode) hsocket

namespace Graph

/-- The nodes of `g` stand in `g'` under the ids that `f` gives, of the same kinds, with the same
links between them, and there are no others. -/
structure Matches (g : Graph) (f : NodeId → NodeId) (g' : Graph) : Prop where
  injOn : Set.InjOn f {n | g.nodes.contains n = true}
  keys : (g.nodes.keys.map f).Perm g'.nodes.keys
  kinds : ∀ n node, g.nodes.get? n = some node →
    ∃ node', g'.nodes.get? (f n) = some node' ∧ node'.kind = node.kind
  connections : (g.connections.map (Link.rename f)).Perm g'.connections

variable {g g' : Graph} {f : NodeId → NodeId} {n : NodeId}

namespace Matches

variable (h : g.Matches f g')

include h

theorem contains_rename (hn : g.nodes.contains n = true) : g'.nodes.contains (f n) = true := by
  obtain ⟨node, hnode⟩ := SortedMap.exists_get? hn
  obtain ⟨node', hnode', -⟩ := h.kinds n node hnode
  exact SortedMap.contains_iff_mem_keys.2 (SortedMap.mem_keys_iff.2 ⟨node', hnode'⟩)

theorem exists_of_contains {m : NodeId} (hm : g'.nodes.contains m = true) :
    ∃ n, g.nodes.contains n = true ∧ f n = m := by
  have hmem := h.keys.mem_iff.2 (SortedMap.contains_iff_mem_keys.1 hm)
  obtain ⟨n, hn, rfl⟩ := List.mem_map.1 hmem
  exact ⟨n, SortedMap.contains_iff_mem_keys.2 hn, rfl⟩

theorem exists_of_mem_connections {l : Link} (hl : l ∈ g'.connections) :
    ∃ k ∈ g.connections, k.rename f = l :=
  List.mem_map.1 (h.connections.mem_iff.2 hl)

theorem rename_mem_connections {l : Link} (hl : l ∈ g.connections) : l.rename f ∈ g'.connections :=
  h.connections.mem_iff.1 (List.mem_map_of_mem hl)

section Joined

variable (hjoined : Joined g.nodes g.connections)

include hjoined

theorem joined : Joined g'.nodes g'.connections := by
  intro l hl
  obtain ⟨k, hk, rfl⟩ := h.exists_of_mem_connections hl
  exact ⟨h.contains_rename (hjoined k hk).1, h.contains_rename (hjoined k hk).2⟩

theorem singleFed (hsingle : SingleFed g.connections) : SingleFed g'.connections := by
  refine (h.connections.map Link.target).nodup_iff.1 ?_
  have htargets : (g.connections.map (Link.rename f)).map Link.target =
      (g.connections.map Link.target).map (Endpoint.rename f) := by
    simp only [List.map_map, Function.comp_def, Link.rename]
  rw [htargets]
  refine hsingle.map_on fun p hp q hq heq => ?_
  obtain ⟨l, hl, rfl⟩ := List.mem_map.1 hp
  obtain ⟨k, hk, rfl⟩ := List.mem_map.1 hq
  exact Endpoint.rename_inj h.injOn (hjoined l hl).2 (hjoined k hk).2 heq

theorem connectedOutputs (hn : g.nodes.contains n = true) :
    g'.connectedOutputs (f n) = g.connectedOutputs n := by
  refine (g'.connectedOutputs_ascending (f n)).eq_of_mem_iff (g.connectedOutputs_ascending n)
    fun s => ?_
  rw [mem_connectedOutputs, mem_connectedOutputs]
  constructor
  · rintro ⟨target, hl⟩
    obtain ⟨k, hk, heq⟩ := h.exists_of_mem_connections hl
    have hsource : k.source = ⟨n, s⟩ :=
      Endpoint.rename_inj h.injOn (hjoined k hk).1 hn (Link.mk.inj heq).1
    exact ⟨k.target, hsource ▸ hk⟩
  · rintro ⟨target, hl⟩
    exact ⟨target.rename f, h.rename_mem_connections hl⟩

/-- An input is fed by the output that stands for the one that fed it. -/
theorem get?_producers {ps ps' : Producers} (hps : ps.Holds g.connections)
    (hps' : ps'.Holds g'.connections) (hn : g.nodes.contains n = true) (s : Name) :
    ps'.get? ⟨f n, s⟩ = (ps.get? ⟨n, s⟩).map (Endpoint.rename f) := by
  refine Option.ext fun source => ?_
  rw [hps' source ⟨f n, s⟩, Option.map_eq_some_iff]
  constructor
  · intro hl
    obtain ⟨k, hk, heq⟩ := h.exists_of_mem_connections hl
    have htarget : k.target = ⟨n, s⟩ :=
      Endpoint.rename_inj h.injOn (hjoined k hk).2 hn (Link.mk.inj heq).2
    exact ⟨k.source, (hps k.source ⟨n, s⟩).2 (htarget ▸ hk), (Link.mk.inj heq).1⟩
  · rintro ⟨source, hsource, rfl⟩
    exact h.rename_mem_connections ((hps source ⟨n, s⟩).1 hsource)

/-- Under the old ids, nodes feed what they feed under the new ones. -/
theorem feeds_back {back : NodeId → NodeId} (hback : ∀ n, g.nodes.contains n = true →
    back (f n) = n) {m n : NodeId} (hfeeds : g'.Feeds m n) : g.Feeds (back m) (back n) := by
  obtain ⟨l, hl, rfl, rfl⟩ := hfeeds
  obtain ⟨k, hk, rfl⟩ := h.exists_of_mem_connections hl
  exact ⟨k, hk, (hback _ (hjoined k hk).1).symm, (hback _ (hjoined k hk).2).symm⟩

end Joined

/-- New ids close no cycle, so the graph passes the check. -/
theorem exists_check {cg : CheckedGraph} (hg : g.check = .ok cg) :
    ∃ cg', g'.check = .ok cg' ∧ (cg.order.map f).Perm cg'.order := by
  obtain ⟨-, hjoined, -, hleast, hperm⟩ := check_ok hg
  have hsingle := singleFed_of_check hg
  rcases g'.check_cases with ⟨e, hfault, -⟩ | ⟨-, -, ⟨ps, order, -, -, hperm', hcheck⟩ |
    ⟨left, start, during, detected, hleft, hstart, -⟩⟩
  · exact absurd ⟨h.joined hjoined, h.singleFed hjoined hsingle⟩ hfault.not_sound
  · exact ⟨_, hcheck, ((hperm.map f).trans h.keys).trans hperm'.symm⟩
  · -- A cycle would lead to a node under the old ids too.
    obtain ⟨hkey, k, hk, hkn⟩ := (hleft start).1 hstart.1
    obtain ⟨n, hn, rfl⟩ := h.exists_of_contains (SortedMap.contains_iff_mem_keys.2 hkey)
    obtain ⟨back, hback⟩ : ∃ back : NodeId → NodeId, ∀ n, g.nodes.contains n = true →
      back (f n) = n :=
      ⟨_, fun n hn => h.injOn.leftInvOn_invFunOn hn⟩
    have hfeeds : ∀ a b, g'.Feeds a b → g.Feeds (back a) (back b) :=
      fun a b => h.feeds_back hjoined hback
    have hlooped : Looped g.Feeds (back (f n)) :=
      ⟨back k, TransGen.lift back hfeeds _ _ hk, ReflTransGen.lift back hfeeds _ _ hkn⟩
    rw [hback n hn] at hlooped
    have horder : n ∈ cg.order := hperm.mem_iff.2 (SortedMap.contains_iff_mem_keys.1 hn)
    exact absurd hlooped (hleast.not_looped horder)

end Matches

/-! ## New ids -/

/-- The graph with new ids, in its nodes and in its links. -/
def rename (g : Graph) (f : NodeId → NodeId) : Graph :=
  addLinks ⟨.ofList (g.nodes.entries.map fun e => (f e.1, e.2)), .empty⟩
    (g.connections.map (Link.rename f))

section Rename

variable (hf : Set.InjOn f {n | g.nodes.contains n = true})

include hf

theorem nodup_rename : ((g.nodes.entries.map fun e => (f e.1, e.2)).map (·.1)).Nodup := by
  have hids : (g.nodes.entries.map fun e => (f e.1, e.2)).map (·.1) = g.nodes.keys.map f := by
    simp only [SortedMap.keys, List.map_map, Function.comp_def]
  rw [hids]
  refine g.nodes.keys_nodup.map_on fun n hn m hm heq => ?_
  exact hf (SortedMap.contains_iff_mem_keys.2 hn) (SortedMap.contains_iff_mem_keys.2 hm) heq

theorem ofParts_rename :
    ofParts (g.nodes.entries.map fun e => (f e.1, e.2)) (g.connections.map (Link.rename f)) =
      .ok (g.rename f) :=
  ofParts_eq (nodup_rename hf) _

theorem get?_nodes_rename {m : NodeId} {node : Node} :
    (g.rename f).nodes.get? m = some node ↔ ∃ n, g.nodes.get? n = some node ∧ f n = m := by
  rw [rename, nodes_addLinks, SortedMap.get?_ofList_eq_some_iff (nodup_rename hf), List.mem_map]
  constructor
  · rintro ⟨e, he, heq⟩
    obtain ⟨rfl, rfl⟩ := Prod.mk.inj heq
    exact ⟨e.1, SortedMap.get?_eq_some_iff.2 he, rfl⟩
  · rintro ⟨n, hn, rfl⟩
    exact ⟨(n, node), SortedMap.get?_eq_some_iff.1 hn, rfl⟩

/-- A graph with sound links matches itself under new ids. -/
theorem matches_rename (hjoined : Joined g.nodes g.connections)
    (hsingle : SingleFed g.connections) : g.Matches f (g.rename f) where
  injOn := hf
  keys := by
    have hkeys : (g.nodes.keys.map f).Nodup := by
      simpa only [SortedMap.keys, List.map_map, Function.comp_def] using nodup_rename hf
    refine (List.perm_ext_iff_of_nodup hkeys (SortedMap.keys_nodup _)).2 fun m => ?_
    simp only [List.mem_map, SortedMap.mem_keys_iff, get?_nodes_rename hf]
    constructor
    · rintro ⟨n, ⟨node, hnode⟩, rfl⟩
      exact ⟨node, n, hnode, rfl⟩
    · rintro ⟨node, n, hnode, rfl⟩
      exact ⟨n, ⟨node, hnode⟩, rfl⟩
  kinds n node hnode := ⟨node, (get?_nodes_rename hf).2 ⟨n, hnode, rfl⟩, rfl⟩
  connections := by
    have hnodup : (g.connections.map (Link.rename f)).Nodup := by
      refine (hsingle.of_map).map_on fun l hl k hk heq => ?_
      obtain ⟨hsource, htarget⟩ := Link.mk.inj heq
      cases l
      cases k
      exact congrArg₂ Link.mk (Endpoint.rename_inj hf (hjoined _ hl).1 (hjoined _ hk).1 hsource)
        (Endpoint.rename_inj hf (hjoined _ hl).2 (hjoined _ hk).2 htarget)
    have hempty : ∀ nodes, Unrepeated ⟨nodes, .empty⟩ := by
      intro nodes p targets htargets
      cases htargets
    refine (List.perm_ext_iff_of_nodup hnodup ((hempty _).addLinks _).nodup).2 fun l => ?_
    rw [mem_connections_addLinks]
    exact (or_iff_right List.not_mem_nil).symm

end Rename

end Graph

end ShaderNodes
