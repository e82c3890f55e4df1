import ShaderNodes.Proofs.Graph.Edit

/-!
# Edits of valid graphs

A graph is valid when a check accepts it. What takes connections away keeps a graph valid, as does a
new node. A new connection keeps it valid exactly when its ends are there, its input is free and it
closes no cycle.

* `valid_iff`: a valid graph in terms of its connections.
* `Valid.of_sublist`: fewer connections between nodes that are there.
* `transGen_or_iff`: the chains of a relation with one more pair.
* `valid_link_of_new_iff`: when a new connection keeps a graph valid.
* `valid_edits_iff`: which edits keep a graph valid.
-/

namespace ShaderNodes.Graph

open Relation

variable {g g' : Graph} {source target : Endpoint} {id : NodeId}

/-- A check accepts the graph. -/
def Valid (g : Graph) : Prop := ∃ cg, g.check = .ok cg

theorem valid_iff : g.Valid ↔ Joined g.nodes g.connections ∧ SingleFed g.connections ∧
    g.Acyclic := by
  constructor
  · rintro ⟨cg, hcheck⟩
    obtain ⟨-, hjoined, -, hleast, hperm⟩ := check_ok hcheck
    exact ⟨hjoined, singleFed_of_check hcheck, acyclic_of_leastFirst hjoined hleast hperm⟩
  · rintro ⟨hjoined, hsingle, hacyclic⟩
    rcases check_cases g with ⟨e, hfault, -⟩ |
      ⟨-, -, ⟨ps, order, -, -, -, hcheck⟩ | ⟨left, start, -, -, hleft, hstart, -⟩⟩
    · exact absurd ⟨hjoined, hsingle⟩ hfault.not_sound
    · exact ⟨_, hcheck⟩
    · obtain ⟨-, k, hk, -⟩ := (hleft start).1 hstart.1
      exact absurd hk (hacyclic k)

/-! ## Less to check -/

theorem Valid.of_sublist (h : g.Valid) (hlinks : g'.connections.Sublist g.connections)
    (hjoined : Joined g'.nodes g'.connections) : g'.Valid := by
  obtain ⟨-, hsingle, hacyclic⟩ := valid_iff.1 h
  have hfeeds : ∀ m n, g'.Feeds m n → g.Feeds m n := by
    rintro m n ⟨l, hl, hends⟩
    exact ⟨l, hlinks.subset hl, hends⟩
  refine valid_iff.2 ⟨hjoined, hsingle.sublist (hlinks.map Link.target), fun n hn => ?_⟩
  exact hacyclic n (TransGen.mono hfeeds _ _ hn)

/-- A new node is joined to nothing. -/
theorem Valid.addNode (h : g.Valid) (hfree : g.nodes.contains id = false) (node : Node) :
    ∃ g', g.addNode id node = (.ok (), g') ∧ g'.Valid := by
  refine ⟨{ g with nodes := g.nodes.insert id node }, ?_, ?_⟩
  · rw [Graph.addNode, hfree, if_neg Bool.false_ne_true]
  · have hkept : ∀ n, g.nodes.contains n = true → (g.nodes.insert id node).contains n = true := by
      intro n hn
      rw [SortedMap.contains, SortedMap.get?_insert]
      split
      · rfl
      · exact hn
    refine h.of_sublist (List.Sublist.refl _) fun l hl => ?_
    obtain ⟨hsource, htarget⟩ := (valid_iff.1 h).1 l hl
    exact ⟨hkept _ hsource, hkept _ htarget⟩

theorem Valid.unlink (h : g.Valid) (source target : Endpoint) :
    (g.unlink source target).2.Valid := by
  have hlinks : (g.unlink source target).2.connections.Sublist g.connections := by
    rw [connections_unlink]
    exact List.filter_sublist
  refine h.of_sublist hlinks fun l hl => ?_
  rw [nodes_unlink]
  exact (valid_iff.1 h).1 l (hlinks.subset hl)

/-- With a node go the connections that would miss it. -/
theorem Valid.removeNode (h : g.Valid) (id : NodeId) : (g.removeNode id).2.Valid := by
  cases hid : g.nodes.contains id with
  | false => rwa [removeNode_of_absent hid]
  | true =>
    have hkept : ∀ n, n ≠ id → g.nodes.contains n = true →
        (g.removeNode id).2.nodes.contains n = true := by
      intro n hne hn
      rwa [SortedMap.contains, get?_nodes_removeNode hid, if_neg hne]
    have hcut := connections_removeNode hid
    refine h.of_sublist (hcut ▸ List.filter_sublist) fun l hl => ?_
    rw [hcut, List.mem_filter, decide_eq_true_iff] at hl
    obtain ⟨hl, hsource, htarget⟩ := hl
    have hends := (valid_iff.1 h).1 l hl
    exact ⟨hkept _ hsource hends.1, hkept _ htarget hends.2⟩

/-! ## One more connection -/

section Chains

variable {α : Type} {R : α → α → Prop} {a b : α}

/-- A chain with one more pair to use is one without it, or leads to the pair and on from it. -/
theorem transGen_or_iff {x y : α} :
    TransGen (fun m n => R m n ∨ m = a ∧ n = b) x y ↔
      TransGen R x y ∨ ReflTransGen R x a ∧ ReflTransGen R b y := by
  have hold : ∀ m n, R m n → R m n ∨ m = a ∧ n = b := fun _ _ => .inl
  constructor
  · intro h
    induction h with
    | single hstep =>
      rcases hstep with hstep | ⟨rfl, rfl⟩
      · exact .inl (.single hstep)
      · exact .inr ⟨.refl, .refl⟩
    | tail _ hstep ih =>
      rcases hstep with hstep | ⟨rfl, rfl⟩
      · exact ih.imp (·.tail hstep) fun ⟨hto, hfrom⟩ => ⟨hto, hfrom.tail hstep⟩
      · exact .inr ⟨ih.elim TransGen.to_reflTransGen And.left, .refl⟩
  · rintro (h | ⟨hto, hfrom⟩)
    · exact TransGen.mono hold _ _ h
    · exact .trans_right (ReflTransGen.mono hold _ _ hto)
        (.head' (.inr ⟨rfl, rfl⟩) (ReflTransGen.mono hold _ _ hfrom))

/-- One more pair closes a cycle exactly when a chain leads back. -/
theorem acyclic_or_iff (hacyclic : ∀ n, ¬ TransGen R n n) :
    (∀ n, ¬ TransGen (fun m n => R m n ∨ m = a ∧ n = b) n n) ↔ ¬ ReflTransGen R b a := by
  simp only [transGen_or_iff, hacyclic, false_or]
  constructor
  · exact fun h hback => h a ⟨.refl, hback⟩
  · exact fun h n hn => h (hn.2.trans hn.1)

end Chains

theorem feeds_link {m n : NodeId} :
    (g.link source target).Feeds m n ↔ g.Feeds m n ∨ m = source.node ∧ n = target.node := by
  simp only [Feeds, mem_connections_link]
  constructor
  · rintro ⟨l, hl | rfl, rfl, rfl⟩
    · exact .inl ⟨l, hl, rfl, rfl⟩
    · exact .inr ⟨rfl, rfl⟩
  · rintro (⟨l, hl, hends⟩ | ⟨rfl, rfl⟩)
    · exact ⟨l, .inl hl, hends⟩
    · exact ⟨_, .inr rfl, rfl, rfl⟩

theorem SingleFed.unrepeated (h : SingleFed g.connections) : g.Unrepeated := by
  intro p targets hget
  have hnodup : g.connections.Nodup := h.of_map
  have hentry := (List.nodup_flatMap.1 hnodup).1 (p, targets) (SortedMap.get?_eq_some_iff.1 hget)
  exact hentry.of_map

/-- A new connection comes to the others, wherever it stands among them. -/
theorem connections_link_perm (h : g.Unrepeated) (hnew : ⟨source, target⟩ ∉ g.connections) :
    (g.link source target).connections.Perm (⟨source, target⟩ :: g.connections) := by
  refine (List.perm_ext_iff_of_nodup (h.link source target).nodup (h.nodup.cons hnew)).2 fun l => ?_
  rw [mem_connections_link, List.mem_cons, or_comm]

theorem link_of_mem (h : ⟨source, target⟩ ∈ g.connections) : g.link source target = g := by
  refine eq_of_get?_links rfl fun p => ?_
  rw [get?_links_link, if_pos (mem_targets.2 h)]
  split
  · rename_i hp
    obtain ⟨old, hget, -⟩ := mem_connections.1 h
    rw [hp, targets, hget, Option.getD_some]
  · rfl

theorem valid_link_of_new_iff (h : g.Valid) (hnew : ⟨source, target⟩ ∉ g.connections) :
    (g.link source target).Valid ↔
      g.nodes.contains source.node = true ∧ g.nodes.contains target.node = true ∧
        (∀ l ∈ g.connections, l.target ≠ target) ∧
        ¬ ReflTransGen g.Feeds target.node source.node := by
  obtain ⟨hjoined, hsingle, hacyclic⟩ := valid_iff.1 h
  have hperm := connections_link_perm (SingleFed.unrepeated hsingle) hnew
  have hjoined' : Joined (g.link source target).nodes (g.link source target).connections ↔
      g.nodes.contains source.node = true ∧ g.nodes.contains target.node = true := by
    change Joined g.nodes _ ↔ _
    simp only [Joined, hperm.mem_iff, List.forall_mem_cons]
    exact and_iff_left hjoined
  have hsingle' : SingleFed (g.link source target).connections ↔
      ∀ l ∈ g.connections, l.target ≠ target := by
    rw [SingleFed, (hperm.map Link.target).nodup_iff, List.map_cons, List.nodup_cons,
      and_iff_left (show (g.connections.map Link.target).Nodup from hsingle), List.mem_map]
    simp only [not_exists, not_and]
  have hacyclic' : (g.link source target).Acyclic ↔
      ¬ ReflTransGen g.Feeds target.node source.node := by
    have hfeeds : (g.link source target).Feeds =
        fun m n => g.Feeds m n ∨ m = source.node ∧ n = target.node := by
      funext m n
      exact propext feeds_link
    rw [Acyclic, hfeeds]
    exact acyclic_or_iff hacyclic
  rw [valid_iff, hjoined', hsingle', hacyclic', and_assoc]

/-! ## Main result -/

/-- Of a valid graph, nodes may be added under free ids, and nodes and connections may be removed. A
connection may be made that is there already, or that joins two nodes, goes to a free input and is
not the way back of a chain of connections. -/
theorem valid_edits_iff {g : Graph} (h : g.Valid) :
    (∀ id node, g.nodes.contains id = false → ∃ g', g.addNode id node = (.ok (), g') ∧ g'.Valid) ∧
      (∀ source target, (g.unlink source target).2.Valid) ∧
      (∀ id, (g.removeNode id).2.Valid) ∧
      ∀ source target, (g.link source target).Valid ↔
        ⟨source, target⟩ ∈ g.connections ∨
          g.nodes.contains source.node = true ∧ g.nodes.contains target.node = true ∧
            (∀ l ∈ g.connections, l.target ≠ target) ∧
            ¬ ReflTransGen g.Feeds target.node source.node := by
  refine ⟨fun id node hfree => h.addNode hfree node, h.unlink, h.removeNode,
    fun source target => ?_⟩
  by_cases hold : ⟨source, target⟩ ∈ g.connections
  · rw [link_of_mem hold]
    exact iff_of_true h (.inl hold)
  · rw [valid_link_of_new_iff h hold, or_iff_right hold]

/-- The last node may feed the free input of the second one, and not the one that is taken. The
second may not feed the last, from which a chain of connections leads to it. -/
theorem valid_edits_iff_doubled :
    doubled.Valid ∧ (∃ g', doubled.addNode "n" default = (.ok (), g') ∧ g'.Valid) ∧
      (doubled.unlink ⟨"z", "normal"⟩ ⟨"a", "b"⟩).2.Valid ∧ (doubled.removeNode "a").2.Valid ∧
      (doubled.link ⟨"z", "normal"⟩ ⟨"a", "b"⟩).Valid ∧
      (doubled.link ⟨"z", "uv0"⟩ ⟨"m", "b"⟩).Valid ∧
      ¬ (doubled.link ⟨"z", "uv0"⟩ ⟨"m", "a"⟩).Valid ∧
      ¬ (doubled.link ⟨"m", "c"⟩ ⟨"z", "in"⟩).Valid := by
  have hvalid : doubled.Valid := ⟨doubledChecked, rfl⟩
  obtain ⟨hadd, hunlink, hremove, hlink⟩ := valid_edits_iff hvalid
  refine ⟨hvalid, hadd "n" default rfl, hunlink _ _, hremove "a", (hlink _ _).2 (.inl (by decide)),
    (hlink _ _).2 (.inr ⟨rfl, rfl, by decide, fun hchain => ?_⟩), fun h => ?_, fun h => ?_⟩
  · -- The second node feeds nothing.
    rcases hchain.cases_head with heq | ⟨n, ⟨l, hl, hsource, -⟩, -⟩
    · exact absurd heq (by decide)
    · exact absurd hsource ((by decide : ∀ l ∈ doubled.connections, l.source.node ≠ "m") l hl)
  · rcases (hlink _ _).1 h with hold | ⟨-, -, hfree, -⟩
    · exact absurd hold (by decide)
    · exact hfree ⟨⟨"a", "c"⟩, ⟨"m", "a"⟩⟩ (by decide) rfl
  · rcases (hlink _ _).1 h with hold | ⟨-, -, -, hchain⟩
    · exact absurd hold (by decide)
    · have hza : doubled.Feeds "z" "a" := ⟨⟨⟨"z", "normal"⟩, ⟨"a", "a"⟩⟩, by decide, rfl, rfl⟩
      have ham : doubled.Feeds "a" "m" := ⟨⟨⟨"a", "c"⟩, ⟨"m", "a"⟩⟩, by decide, rfl, rfl⟩
      exact hchain (.tail (.single hza) ham)

end ShaderNodes.Graph
