import ShaderNodes.Proofs.Graph.Listing

/-!
# Graphs under edits

Removals cut the connections of a graph down and leave those that stay in their order. A graph that
was built by edits alone is tidy: each output with an entry feeds something, and nothing twice. So
an edit can be taken back, and what is no longer connected leaves no trace.

* `connections_removeNode`, `connections_unlink`: the connections that removals leave.
* `Tidy.change`, `Tidy.changeAll`: an edit keeps a graph tidy, so any number of edits does.
* `unlink_link`: taking a new connection back gives the graph before it.
* `edits_of_changeAll`: what each edit does to a graph that edits have built.
-/

namespace ShaderNodes.Graph

variable {g : Graph} {source target : Endpoint} {id : NodeId}

/-! ## Removals -/

/-- Where the inputs of each output are cut down to some, the connections are. -/
theorem connections_filterMap {nodes : SortedMap NodeId Node}
    {keep : Endpoint → List Endpoint → Option (List Endpoint)} {p : Link → Bool}
    (h : ∀ source targets, (keep source targets).getD [] = targets.filter fun target =>
      p ⟨source, target⟩) :
    connections ⟨nodes, g.links.filterMap keep⟩ = g.connections.filter p := by
  unfold connections SortedMap.filterMap
  rw [List.filter_flatMap]
  dsimp only
  induction g.links.entries with
  | nil => rfl
  | cons e entries ih =>
    have hcut : (e.2.map (Link.mk e.1)).filter p = ((keep e.1 e.2).getD []).map (Link.mk e.1) := by
      rw [h, List.filter_map]
      rfl
    rw [List.flatMap_cons, ← ih, hcut, List.filterMap_cons]
    cases keep e.1 e.2 <;> rfl

theorem addNode_of_present {node : Node} (h : g.nodes.contains id = true) :
    g.addNode id node = (.error (.duplicateNode id), g) := if_pos h

theorem removeNode_of_present {node : Node} (h : g.nodes.get? id = some node) :
    g.removeNode id =
      (some node, { nodes := g.nodes.erase id, links := g.links.filterMap (keepTargets id) }) := by
  rw [removeNode, h]

theorem removeNode_of_absent (h : g.nodes.contains id = false) : g.removeNode id = (none, g) := by
  rw [SortedMap.contains, Option.isSome_eq_false_iff, Option.isNone_iff_eq_none] at h
  rw [removeNode, h]

/-- A removal of a node takes the connections that touch it, and no others. -/
theorem connections_removeNode (h : g.nodes.contains id = true) :
    (g.removeNode id).2.connections =
      g.connections.filter fun l => l.source.node ≠ id ∧ l.target.node ≠ id := by
  obtain ⟨node, hnode⟩ := SortedMap.exists_get? h
  rw [removeNode_of_present hnode]
  refine connections_filterMap fun source targets => ?_
  by_cases hsource : source.node = id
  · simp [keepTargets, hsource]
  · simp only [keepTargets, hsource, false_or, ne_eq, not_false_eq_true, true_and]
    split
    · rename_i hnone
      rw [hnone]
      rfl
    · rfl

theorem get?_nodes_removeNode (h : g.nodes.contains id = true) (n : NodeId) :
    (g.removeNode id).2.nodes.get? n = if n = id then none else g.nodes.get? n := by
  obtain ⟨node, hnode⟩ := SortedMap.exists_get? h
  rw [removeNode_of_present hnode]
  exact SortedMap.get?_erase g.nodes id n

/-- The inputs that `source` still feeds when its connection to `target` goes away, if there are
any. -/
def keepOthers (source target p : Endpoint) (targets : List Endpoint) : Option (List Endpoint) :=
  let kept := targets.filter (· ≠ target)
  if p ≠ source then some targets else if kept = [] then none else some kept

theorem nodes_unlink (g : Graph) (source target : Endpoint) :
    (g.unlink source target).2.nodes = g.nodes := by
  unfold unlink
  cases g.links.get? source <;> rfl

theorem links_unlink (g : Graph) (source target : Endpoint) :
    (g.unlink source target).2.links = g.links.filterMap (keepOthers source target) := by
  refine SortedMap.ext_get? fun p => ?_
  have hother : p ≠ source →
      (g.links.get? p).bind (keepOthers source target p) = g.links.get? p := by
    intro hp
    cases g.links.get? p <;> simp [keepOthers, hp]
  rw [SortedMap.get?_filterMap]
  unfold unlink
  by_cases hp : p = source
  · subst hp
    cases hold : g.links.get? p with
    | none => exact hold
    | some old =>
      simp only [Option.bind_some, keepOthers, ne_eq, not_true_eq_false, if_false]
      split <;> simp [SortedMap.get?_erase, SortedMap.get?_insert]
  · rw [hother hp]
    cases g.links.get? source with
    | none => rfl
    | some old =>
      dsimp only
      split <;> simp [SortedMap.get?_erase, SortedMap.get?_insert, hp]

/-- A removal of a connection takes that one and no other. -/
theorem connections_unlink (g : Graph) (source target : Endpoint) :
    (g.unlink source target).2.connections = g.connections.filter (· ≠ ⟨source, target⟩) := by
  change connections ⟨g.nodes, (g.unlink source target).2.links⟩ = _
  rw [links_unlink]
  refine connections_filterMap fun p targets => ?_
  by_cases hp : p = source
  · subst hp
    simp only [keepOthers, ne_eq, not_true_eq_false, if_false, Link.mk.injEq, true_and]
    split
    · rename_i hnone
      rw [hnone]
      rfl
    · rfl
  · simp [keepOthers, hp]

/-- The two lengths that `unlink` compares differ exactly if the connection was there. -/
theorem unlink_fst_iff : (g.unlink source target).1 = true ↔ ⟨source, target⟩ ∈ g.connections := by
  rw [mem_connections]
  unfold unlink
  cases hold : g.links.get? source with
  | none => simp
  | some old =>
    -- The lengths are the same exactly if the filter keeps every input.
    simp

/-! ## Sequences of edits -/

/-- Each output with an entry feeds something, and nothing twice. -/
def Tidy (g : Graph) : Prop :=
  ∀ source targets, g.links.get? source = some targets → targets ≠ [] ∧ targets.Nodup

theorem Tidy.unrepeated (h : g.Tidy) :
    g.Unrepeated := fun source targets hget => (h source targets hget).2

theorem tidy_of_no_links (nodes : SortedMap NodeId Node) : Tidy ⟨nodes, .empty⟩ := by
  intro source targets hget
  cases hget

/-- Entries that are cut down, and left out when nothing remains, stay tidy. -/
theorem Tidy.filterMap {nodes : SortedMap NodeId Node}
    {keep : Endpoint → List Endpoint → Option (List Endpoint)} (h : g.Tidy)
    (hkeep : ∀ source targets kept, targets ≠ [] → keep source targets = some kept →
      kept ≠ [] ∧ kept.Sublist targets) :
    Tidy ⟨nodes, g.links.filterMap keep⟩ := by
  intro source kept hget
  rw [SortedMap.get?_filterMap] at hget
  obtain ⟨targets, htargets, hkept⟩ := Option.bind_eq_some_iff.1 hget
  obtain ⟨hne, hnodup⟩ := h source targets htargets
  obtain ⟨hkept, hsub⟩ := hkeep source targets kept hne hkept
  exact ⟨hkept, hnodup.sublist hsub⟩

theorem Tidy.removeNode (h : g.Tidy) (id : NodeId) : (g.removeNode id).2.Tidy := by
  unfold Graph.removeNode
  cases g.nodes.get? id with
  | none => exact h
  | some node =>
    refine h.filterMap fun source targets kept _ hkept => ?_
    simp only [keepTargets, Option.ite_none_left_eq_some, not_or] at hkept
    obtain ⟨⟨-, hne⟩, heq⟩ := hkept
    obtain rfl := Option.some.inj heq
    exact ⟨hne, List.filter_sublist⟩

theorem Tidy.unlink (h : g.Tidy) (source target : Endpoint) : (g.unlink source target).2.Tidy := by
  change Tidy ⟨(g.unlink source target).2.nodes, (g.unlink source target).2.links⟩
  rw [links_unlink]
  refine h.filterMap fun p targets kept hne hkept => ?_
  unfold keepOthers at hkept
  dsimp only at hkept
  split at hkept
  · obtain rfl := Option.some.inj hkept
    exact ⟨hne, List.Sublist.refl _⟩
  · rw [Option.ite_none_left_eq_some] at hkept
    obtain ⟨hne, heq⟩ := hkept
    obtain rfl := Option.some.inj heq
    exact ⟨hne, List.filter_sublist⟩

theorem Tidy.link (h : g.Tidy) (source target : Endpoint) : (g.link source target).Tidy := by
  intro p targets hget
  refine ⟨?_, h.unrepeated.link source target p targets hget⟩
  rw [get?_links_link] at hget
  split at hget
  · obtain rfl := Option.some.inj hget
    split
    · rename_i hold
      exact List.ne_nil_of_mem hold
    · simp
  · exact (h p targets hget).1

theorem Tidy.addLinks (h : g.Tidy) (links : List Link) : (g.addLinks links).Tidy := by
  induction links generalizing g with
  | nil => exact h
  | cons l links ih => exact ih (h.link l.source l.target)

theorem links_addNode (g : Graph) (id : NodeId) (node : Node) :
    (g.addNode id node).2.links = g.links := by
  unfold addNode
  split <;> rfl

theorem links_addNodes {g' : Graph} {nodes : List (NodeId × Node)} (h : g.addNodes nodes = .ok g') :
    g'.links = g.links := by
  induction nodes generalizing g with
  | nil =>
    cases h
    rfl
  | cons e nodes ih =>
    have hlinks := g.links_addNode e.1 e.2
    rw [addNodes] at h
    rcases hfirst : g.addNode e.1 e.2 with ⟨_ | _, g₁⟩ <;> rw [hfirst] at h hlinks
    · cases h
    · exact (ih h).trans hlinks

theorem tidy_ofParts {g' : Graph} {nodes : List (NodeId × Node)} {links : List Link}
    (h : ofParts nodes links = .ok g') : g'.Tidy := by
  unfold ofParts at h
  cases hnodes : empty.addNodes nodes with
  | error e =>
    rw [hnodes] at h
    cases h
  | ok g₁ =>
    rw [hnodes] at h
    cases h
    have htidy : Tidy ⟨g₁.nodes, g₁.links⟩ := links_addNodes hnodes ▸ tidy_of_no_links g₁.nodes
    exact htidy.addLinks links

/-- An edit of a graph; `checked` is to have it checked and to take it back, `ofParts` to start
afresh. -/
inductive Change where
  | addNode (id : NodeId) (node : Node)
  | removeNode (id : NodeId)
  | link (source target : Endpoint)
  | unlink (source target : Endpoint)
  | ofParts (nodes : List (NodeId × Node)) (links : List Link)
  | checked

/-- The graph after an edit; one that fails leaves it as it was. -/
def change (g : Graph) : Change → Graph
  | .addNode id node => (g.addNode id node).2
  | .removeNode id => (g.removeNode id).2
  | .link source target => g.link source target
  | .unlink source target => (g.unlink source target).2
  | .ofParts nodes links => (Graph.ofParts nodes links).toOption.getD g
  | .checked => (g.check.toOption.map (·.toGraph)).getD g

/-- The graph after edits one after another. -/
def changeAll (g : Graph) (changes : List Change) : Graph := changes.foldl change g

theorem Tidy.change (h : g.Tidy) (edit : Change) : (g.change edit).Tidy := by
  cases edit with
  | addNode id node =>
    intro source targets hget
    exact h source targets (g.links_addNode id node ▸ hget)
  | removeNode id => exact h.removeNode id
  | link source target => exact h.link source target
  | unlink source target => exact h.unlink source target
  | ofParts nodes links =>
    rw [Graph.change]
    cases hparts : Graph.ofParts nodes links with
    | error e => exact h
    | ok g' => exact tidy_ofParts hparts
  | checked =>
    rw [Graph.change]
    cases hcheck : g.check with
    | error e => exact h
    | ok cg => exact (check_ok hcheck).1 ▸ h

theorem Tidy.changeAll (h : g.Tidy) (changes : List Change) : (g.changeAll changes).Tidy := by
  induction changes generalizing g with
  | nil => exact h
  | cons edit changes ih => exact ih (h.change edit)

/-! ## Edits that cancel -/

theorem eq_of_get?_links {g' : Graph} (hnodes : g.nodes = g'.nodes)
    (hlinks : ∀ p, g.links.get? p = g'.links.get? p) : g = g' := by
  obtain ⟨nodes, links⟩ := g
  obtain ⟨nodes', links'⟩ := g'
  obtain rfl : nodes = nodes' := hnodes
  obtain rfl : links = links' := SortedMap.ext_get? hlinks
  rfl

theorem Tidy.get?_links (h : g.Tidy) (p : Endpoint) :
    g.links.get? p = if g.targets p = [] then none else some (g.targets p) := by
  unfold targets
  cases hget : g.links.get? p with
  | none => simp
  | some targets => simp [(h p targets hget).1]

theorem get?_links_unlink (g : Graph) (source target p : Endpoint) :
    (g.unlink source target).2.links.get? p =
      if p = source then
        if (g.targets source).filter (· ≠ target) = [] then none
        else some ((g.targets source).filter (· ≠ target))
      else g.links.get? p := by
  rw [links_unlink, SortedMap.get?_filterMap]
  by_cases hp : p = source
  · subst hp
    cases hget : g.links.get? p <;> simp [keepOthers, targets, hget]
  · cases g.links.get? p <;> simp [keepOthers, hp]

theorem filter_targets_of_absent (hnew : ⟨source, target⟩ ∉ g.connections) :
    (g.targets source).filter (· ≠ target) = g.targets source := by
  refine List.filter_eq_self.2 fun t ht => decide_eq_true ?_
  rintro rfl
  exact hnew (mem_targets.1 ht)

/-- A connection that is not there is not taken. -/
theorem unlink_of_absent (h : g.Tidy) (habsent : ⟨source, target⟩ ∉ g.connections) :
    (g.unlink source target).2 = g := by
  refine eq_of_get?_links (g.nodes_unlink source target) fun p => ?_
  rw [get?_links_unlink, filter_targets_of_absent habsent, h.get?_links p]
  split
  · rename_i hp
    rw [hp]
  · rfl

/-- Taking a new connection back gives the graph before it. -/
theorem unlink_link (h : g.Tidy) (hnew : ⟨source, target⟩ ∉ g.connections) :
    (g.link source target).unlink source target = (true, g) := by
  have hfresh : target ∉ g.targets source := fun hmem => hnew (mem_targets.1 hmem)
  have htargets : (g.link source target).targets source = g.targets source ++ [target] := by
    rw [targets, get?_links_link, if_pos rfl, if_neg hfresh, Option.getD_some]
  have hkept : ((g.link source target).targets source).filter (· ≠ target) = g.targets source := by
    rw [htargets, List.filter_append, filter_targets_of_absent hnew]
    simp
  have hanswer : ((g.link source target).unlink source target).1 = true :=
    unlink_fst_iff.2 (mem_connections_link.2 (.inr rfl))
  refine Prod.ext hanswer (eq_of_get?_links (nodes_unlink (g.link source target) source target)
    fun p => ?_)
  rw [get?_links_unlink, hkept]
  by_cases hp : p = source
  · -- The entry of an output that fed nothing goes away again, as a tidy graph has it.
    rw [if_pos hp, hp, h.get?_links source]
  · rw [if_neg hp, get?_links_link, if_neg hp]

/-- On a tidy graph the answer of `unlink` tells whether anything changes. -/
theorem unlink_fst_eq_false_iff (h : g.Tidy) :
    (g.unlink source target).1 = false ↔ (g.unlink source target).2 = g := by
  rw [← Bool.not_eq_true, unlink_fst_iff]
  refine ⟨unlink_of_absent h, fun heq hmem => ?_⟩
  have hcut := g.connections_unlink source target
  rw [heq] at hcut
  rw [hcut] at hmem
  simp at hmem

/-! ## Main result -/

/-- A graph that edits have built from the empty one has no empty and no repeating entry, so no
connection twice. Removing a node gives the node, and takes it and the connections that touch it; a
node whose id is taken is not added, and one that is not there is not removed. `unlink` takes the
given connection alone, and answers whether there was one to take. A new connection can be taken
back. -/
theorem edits_of_changeAll (changes : List Change) :
    let g := empty.changeAll changes
    (∀ source targets, g.links.get? source = some targets → targets ≠ [] ∧ targets.Nodup) ∧
      g.connections.Nodup ∧
      (∀ id node, g.nodes.get? id = some node →
        (g.removeNode id).1 = some node ∧
        (∀ n, (g.removeNode id).2.nodes.get? n = if n = id then none else g.nodes.get? n) ∧
        (g.removeNode id).2.connections =
          g.connections.filter fun l => l.source.node ≠ id ∧ l.target.node ≠ id) ∧
      (∀ id node, g.nodes.contains id = true →
        g.addNode id node = (.error (.duplicateNode id), g)) ∧
      (∀ id, g.nodes.contains id = false → g.removeNode id = (none, g)) ∧
      (∀ source target,
        (g.unlink source target).2.nodes = g.nodes ∧
        (g.unlink source target).2.connections = g.connections.filter (· ≠ ⟨source, target⟩) ∧
        ((g.unlink source target).1 = true ↔ ⟨source, target⟩ ∈ g.connections) ∧
        ((g.unlink source target).1 = false ↔ (g.unlink source target).2 = g)) ∧
      ∀ source target, ⟨source, target⟩ ∉ g.connections →
        (g.link source target).unlink source target = (true, g) := by
  intro g
  have htidy : g.Tidy := (tidy_of_no_links .empty).changeAll changes
  refine ⟨htidy, htidy.unrepeated.nodup, fun id node hnode => ?_, fun id node hid => ?_,
    fun id => ?_, fun source target => ?_, fun source target hnew => ?_⟩
  · have hid : g.nodes.contains id = true := Option.isSome_iff_exists.2 ⟨node, hnode⟩
    exact ⟨by rw [removeNode_of_present hnode], get?_nodes_removeNode hid,
      connections_removeNode hid⟩
  · exact addNode_of_present hid
  · exact removeNode_of_absent
  · exact ⟨g.nodes_unlink source target, g.connections_unlink source target, unlink_fst_iff,
      unlink_fst_eq_false_iff htidy⟩
  · exact unlink_link htidy hnew

end ShaderNodes.Graph
