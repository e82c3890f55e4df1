import ShaderNodes.Proofs.Graph.Links
import ShaderNodes.Proofs.Graph.Walk

/-!
# What the check of a graph finds

A check ends in one of three ways: with the fault of the first faulty link, with the evaluation
order, or with a cycle. `check_cases` says so, with all that is known in each case; the main results
are read off it.

* `check_eq_ok_iff_and_error_iff`: when a check succeeds, and which error it gives when it does not.
* `check_ok_order_isLeast`: the checked graph is the graph, and its order the least topological one.
* `check_cycle_loops_back`: a cycle error is a walk from the least node that a cycle leads to, round
  a cycle of the graph.
-/

namespace ShaderNodes.Graph

open Precedence Relation

/-- No node depends on itself, over any number of links. -/
def Acyclic (g : Graph) : Prop := ∀ n, ¬ TransGen g.Feeds n n

variable {g : Graph} {ps : Producers}

theorem feeds_iff_of_holds (hps : ps.Holds g.connections) (m n : NodeId) :
    ps.feeds m n = true ↔ g.Feeds m n := by
  simp only [Producers.feeds, List.any_eq_true, Bool.and_eq_true, decide_eq_true_eq, Feeds]
  constructor
  · rintro ⟨⟨target, source⟩, he, hm, hn⟩
    exact ⟨⟨source, target⟩, (hps source target).1 (SortedMap.get?_eq_some_iff.2 he), hm, hn⟩
  · rintro ⟨⟨source, target⟩, hl, hm, hn⟩
    exact ⟨⟨target, source⟩, SortedMap.get?_eq_some_iff.1 ((hps source target).2 hl), hm, hn⟩

theorem source_mem_keys (hjoined : Joined g.nodes g.connections) {m n : NodeId}
    (h : g.Feeds m n) : m ∈ g.nodes.keys := by
  obtain ⟨l, hl, rfl, -⟩ := h
  exact SortedMap.contains_iff_mem_keys.1 (hjoined l hl).1

theorem describes_of_holds (hjoined : Joined g.nodes g.connections)
    (hps : ps.Holds g.connections) : ps.Describes g.nodes.keys g.Feeds where
  feeds_iff := feeds_iff_of_holds hps
  mem_ids := fun _ _ => source_mem_keys hjoined
  ascending := g.nodes.keys_ascending

/-! ## The three ways a check ends -/

theorem FirstFault.not_sound {e : Error} (h : g.FirstFault e) :
    ¬ (Joined g.nodes g.connections ∧ SingleFed g.connections) := by
  obtain ⟨earlier, l, rest, hlinks, -, -, hfault⟩ := h
  rw [hlinks]
  exact hfault.not_sound

theorem sound_or_firstFault (g : Graph) :
    Joined g.nodes g.connections ∧ SingleFed g.connections ∨ ∃ e, g.FirstFault e := by
  rcases sound_or_fault g.nodes g.connections with hsound | ⟨earlier, l, rest, e, hfault⟩
  · exact .inl hsound
  · exact .inr ⟨e, earlier, l, rest, hfault⟩

theorem exists_firstFault_iff (g : Graph) :
    (∃ e, g.FirstFault e) ↔ ¬ (Joined g.nodes g.connections ∧ SingleFed g.connections) :=
  ⟨fun ⟨_, he⟩ => he.not_sound, g.sound_or_firstFault.resolve_left⟩

theorem FirstFault.ne_cycle {e : Error} (h : g.FirstFault e) (during : List NodeId)
    (detected : NodeId) : e ≠ .cycle during detected := by
  obtain ⟨earlier, l, rest, -, -, -, hfault⟩ := h
  cases hfault <;> nofun

theorem addProducers_of_firstFault {e : Error} (h : g.FirstFault e) :
    addProducers g.nodes .empty g.connections = .error e := by
  obtain ⟨earlier, l, rest, hlinks, hjoined, hsingle, hfault⟩ := h
  obtain ⟨found, hfound, hscan⟩ := addProducers_append earlier holds_empty hjoined hsingle
  rw [hlinks, hscan]
  exact addProducers_fault hfound hfault

theorem check_of_firstFault {e : Error} (h : g.FirstFault e) : g.check = .error e := by
  rw [check, addProducers_of_firstFault h]
  rfl

theorem exists_producers (hjoined : Joined g.nodes g.connections)
    (hsingle : SingleFed g.connections) :
    ∃ ps, addProducers g.nodes .empty g.connections = .ok ps ∧ ps.Holds g.connections := by
  obtain ⟨ps, hps, hscan⟩ := addProducers_append g.connections holds_empty hjoined hsingle
  refine ⟨ps, ?_, hps⟩
  have hall := hscan []
  rwa [List.append_nil] at hall

theorem describes_of_producers (h : addProducers g.nodes .empty g.connections = .ok ps) :
    ps.Describes g.nodes.keys g.Feeds := by
  rcases g.sound_or_firstFault with ⟨hjoined, hsingle⟩ | ⟨e, hfault⟩
  · obtain ⟨ps', hscan, hps⟩ := exists_producers hjoined hsingle
    obtain rfl : ps' = ps := Except.ok.inj (hscan.symm.trans h)
    exact describes_of_holds hjoined hps
  · simp [addProducers_of_firstFault hfault] at h

theorem check_of_producers (h : addProducers g.nodes .empty g.connections = .ok ps) :
    g.check = (ps.order g.nodes.keys).map fun order => { g with order, producers := ps } := by
  rw [check, h]
  change ((ps.order g.nodes.keys).bind fun order => .ok (CheckedGraph.mk g order ps)) = _
  cases ps.order g.nodes.keys <;> rfl

/-- A check gives the fault of the first faulty link; or else the order, which takes the least node
first; or else a walk from the least node that a cycle leads to. -/
theorem check_cases (g : Graph) :
    (∃ e, g.FirstFault e ∧ g.check = .error e) ∨
      Joined g.nodes g.connections ∧ SingleFed g.connections ∧
        ((∃ ps order, ps.Holds g.connections ∧ LeastFirst g.Feeds g.nodes.keys order ∧
            order.Perm g.nodes.keys ∧ g.check = .ok { g with order, producers := ps }) ∨
          ∃ left start during detected, (∀ n, n ∈ left ↔ n ∈ g.nodes.keys ∧ Looped g.Feeds n) ∧
            IsLeast {n | n ∈ left} start ∧ left.length ≤ g.nodes.size ∧
            LoopBack g.Feeds left start during detected ∧
            g.check = .error (.cycle during detected)) := by
  rcases g.sound_or_firstFault with ⟨hjoined, hsingle⟩ | ⟨e, hfault⟩
  · refine .inr ⟨hjoined, hsingle, ?_⟩
    obtain ⟨ps, hscan, hps⟩ := exists_producers hjoined hsingle
    have hdesc := describes_of_holds hjoined hps
    obtain ⟨placed, hplaced, hstuck, ⟨hperm, horder⟩ | ⟨start, rest, hleft, horder⟩⟩ :=
      Producers.order_cases hdesc
    · refine .inl ⟨ps, placed, hps, hplaced, hperm, ?_⟩
      rw [check_of_producers hscan, horder]
      rfl
    · have hasc := Pending.left_ascending hdesc placed
      have hproducer := fun n hn => Pending.exists_producer_left (n := n) hdesc hstuck hn
      have hlooped := fun n => Pending.mem_left_iff_looped (n := n) hdesc hplaced hstuck
      have hlen := List.length_filter_le (fun n => decide (n ∉ placed)) g.nodes.keys
      rw [hleft] at hasc hproducer hlooped hlen
      obtain ⟨during, detected, hwalk, hloop⟩ :=
        Pending.walk_eq_cycle hdesc hasc hproducer List.mem_cons_self
      refine .inr ⟨start :: rest, start, during, detected, hlooped, ?_, ?_, hloop, ?_⟩
      · exact isLeast_of_ascending hasc
      · simpa [SortedMap.keys, SortedMap.size] using hlen
      · rw [check_of_producers hscan, horder, hwalk]
        rfl
  · exact .inl ⟨e, hfault, check_of_firstFault hfault⟩

/-- What is known of a checked graph. -/
theorem check_ok {c : CheckedGraph} (h : g.check = .ok c) :
    c.toGraph = g ∧ Joined g.nodes g.connections ∧ c.producers.Holds g.connections ∧
      LeastFirst g.Feeds g.nodes.keys c.order ∧ c.order.Perm g.nodes.keys := by
  rcases check_cases g with ⟨e, -, hcheck⟩ |
    ⟨hjoined, -, ⟨ps, order, hps, hleast, hperm, hcheck⟩ | ⟨_, _, _, _, -, -, -, -, hcheck⟩⟩
  · simp [hcheck] at h
  · obtain rfl : _ = c := Except.ok.inj (hcheck.symm.trans h)
    exact ⟨rfl, hjoined, hps, hleast, hperm⟩
  · simp [hcheck] at h

theorem singleFed_of_check {c : CheckedGraph} (h : g.check = .ok c) : SingleFed g.connections := by
  rcases g.sound_or_firstFault with hsound | ⟨e, hfault⟩
  · exact hsound.2
  · rw [check_of_firstFault hfault] at h
    cases h

/-- What is known when a check finds a cycle. The walk stays among the nodes `left`, to which a
cycle leads. -/
theorem check_cycle {during : List NodeId} {detected : NodeId}
    (h : g.check = .error (.cycle during detected)) :
    ∃ left start, Joined g.nodes g.connections ∧
      (∀ n, n ∈ left ↔ n ∈ g.nodes.keys ∧ Looped g.Feeds n) ∧ IsLeast {n | n ∈ left} start ∧
      left.length ≤ g.nodes.size ∧ LoopBack g.Feeds left start during detected := by
  rcases check_cases g with ⟨e, hfault, hcheck⟩ |
    ⟨hjoined, -, ⟨_, _, -, -, -, hcheck⟩ |
      ⟨left, start, during', detected', hleft, hstart, hlen, hloop, hcheck⟩⟩
  · exact absurd (Except.error.inj (hcheck.symm.trans h)) (hfault.ne_cycle during detected)
  · simp [hcheck] at h
  · obtain ⟨rfl, rfl⟩ := Error.cycle.inj (Except.error.inj (hcheck.symm.trans h))
    exact ⟨left, start, hjoined, hleft, hstart, hlen, hloop⟩

/-! ## Main results -/

theorem acyclic_of_leastFirst {order : List NodeId} (hjoined : Joined g.nodes g.connections)
    (h : LeastFirst g.Feeds g.nodes.keys order) (hperm : order.Perm g.nodes.keys) : g.Acyclic := by
  intro n hn
  obtain ⟨k, hk, -⟩ := TransGen.head'_iff.1 hn
  exact h.not_looped (hperm.mem_iff.2 (source_mem_keys hjoined hk)) ⟨n, hn, .refl⟩

/-- A check succeeds exactly when all links join nodes, no input is fed twice and no node depends on
itself. If a single link is faulty, the error is that of the first such link; otherwise, and only
then, it is a cycle. -/
theorem check_eq_ok_iff_and_error_iff (g : Graph) :
    ((∃ c, g.check = .ok c) ↔
        Joined g.nodes g.connections ∧ SingleFed g.connections ∧ g.Acyclic) ∧
      ((∃ e, g.FirstFault e) ↔ ¬ (Joined g.nodes g.connections ∧ SingleFed g.connections)) ∧
      (∀ e, g.FirstFault e → g.check = .error e) ∧
      ((∃ during detected, g.check = .error (.cycle during detected)) ↔
        Joined g.nodes g.connections ∧ SingleFed g.connections ∧ ¬ g.Acyclic) := by
  rcases check_cases g with ⟨e, hfault, hcheck⟩ |
    ⟨hjoined, hsingle, ⟨ps, order, -, hleast, hperm, hcheck⟩ |
      ⟨left, start, during, detected, hleft, hstart, -, hloop, hcheck⟩⟩
  · have hsound := hfault.not_sound
    refine ⟨?_, g.exists_firstFault_iff, fun e he => check_of_firstFault he, ?_⟩
    · rw [hcheck, ← and_assoc]
      exact ⟨nofun, fun h => absurd h.1 hsound⟩
    · rw [hcheck, ← and_assoc]
      refine ⟨?_, fun h => absurd h.1 hsound⟩
      rintro ⟨during, detected, heq⟩
      exact absurd (Except.error.inj heq) (hfault.ne_cycle during detected)
  · have hacyclic := acyclic_of_leastFirst hjoined hleast hperm
    refine ⟨?_, g.exists_firstFault_iff, fun e he => check_of_firstFault he, ?_⟩
    · exact ⟨fun _ => ⟨hjoined, hsingle, hacyclic⟩, fun _ => ⟨_, hcheck⟩⟩
    · rw [hcheck]
      exact ⟨nofun, fun h => absurd hacyclic h.2.2⟩
  · have hcyclic : ¬ g.Acyclic := by
      obtain ⟨k, hk, -⟩ := ((hleft start).1 hstart.1).2
      exact fun hacyclic => hacyclic k hk
    refine ⟨?_, g.exists_firstFault_iff, fun e he => check_of_firstFault he, ?_⟩
    · rw [hcheck]
      exact ⟨nofun, fun h => absurd h.2.2 hcyclic⟩
    · exact ⟨fun _ => ⟨hjoined, hsingle, hcyclic⟩, fun _ => ⟨during, detected, hcheck⟩⟩

/-- The checked graph is the graph with the least topological order of its nodes and the producers
of its inputs. -/
theorem check_ok_order_isLeast {g : Graph} {c : CheckedGraph} (h : g.check = .ok c) :
    c.toGraph = g ∧
      (c.order.Nodup ∧ ∀ n, n ∈ c.order ↔ g.nodes.contains n = true) ∧
      (∀ l ∈ g.connections, c.order.idxOf l.source.node < c.order.idxOf l.target.node) ∧
      IsLeast {order | Topological g.Feeds g.nodes.keys order} c.order ∧
      (∀ placed n rest, c.order = placed ++ n :: rest →
        IsLeast {k | Ready g.Feeds g.nodes.keys placed k} n) ∧
      ∀ source target, c.producer? target = some source ↔ ⟨source, target⟩ ∈ g.connections := by
  obtain ⟨hgraph, hjoined, hps, hleast, hperm⟩ := check_ok h
  have hids := g.nodes.keys_nodup
  refine ⟨hgraph, ⟨hleast.nodup, ?_⟩, ?_, hleast.isLeast hids hperm, hleast, hps⟩
  · intro n
    rw [hperm.mem_iff, SortedMap.contains_iff_mem_keys]
  · intro l hl
    have htarget : l.target.node ∈ g.nodes.keys :=
      SortedMap.contains_iff_mem_keys.1 (hjoined l hl).2
    exact (hleast.topological hperm).idxOf_lt hids htarget ⟨l, hl, rfl, rfl⟩

/-- The last node feeds the first one twice, and that one feeds the second. -/
def doubled : Graph where
  nodes := .ofList [("a", ⟨"Add", .empty⟩), ("m", ⟨"Add", .empty⟩), ("z", ⟨"Geometry", .empty⟩)]
  links := .ofList [(⟨"z", "normal"⟩, [⟨"a", "a"⟩, ⟨"a", "b"⟩]), (⟨"a", "c"⟩, [⟨"m", "a"⟩])]

def doubledChecked : CheckedGraph where
  toGraph := doubled
  order := ["z", "a", "m"]
  producers := .ofList
    [(⟨"a", "a"⟩, ⟨"z", "normal"⟩), (⟨"a", "b"⟩, ⟨"z", "normal"⟩), (⟨"m", "a"⟩, ⟨"a", "c"⟩)]

theorem check_ok_order_isLeast_doubled :
    doubled.check = .ok doubledChecked ∧
      IsLeast {order | Topological doubled.Feeds doubled.nodes.keys order} ["z", "a", "m"] ∧
      ∀ source target,
        doubledChecked.producer? target = some source ↔ ⟨source, target⟩ ∈ doubled.connections := by
  have hcheck : doubled.check = .ok doubledChecked := rfl
  obtain ⟨-, -, -, hleast, -, hproducer⟩ := check_ok_order_isLeast hcheck
  exact ⟨hcheck, hleast, hproducer⟩

/-- A cycle error gives a walk against the links from the least node that a cycle leads to. Each
step goes to the least producer of this sort, up to a node that the walk has been to; from there on
the walk goes round a cycle. The walk never ends without a cycle, and no count of pending producers
is taken below zero. -/
theorem check_cycle_loops_back (g : Graph) :
    (∀ during detected, g.check = .error (.cycle during detected) →
      during ≠ [] ∧ during.Nodup ∧
        (∃ start, during.head? = some start ∧
          IsLeast {n | g.nodes.contains n = true ∧ Looped g.Feeds n} start) ∧
        ((during ++ [detected]).IsChain fun n next =>
          IsLeast {m | g.Feeds m n ∧ Looped g.Feeds m} next) ∧
        detected ∈ during ∧
        (∃ last, during.getLast? = some last ∧ g.Feeds detected last) ∧
        (∃ front back, during = front ++ detected :: back ∧
          (detected :: back ++ [detected]).IsChain fun n next => g.Feeds next n) ∧
        during.length ≤ g.nodes.size) ∧
      (∀ id, g.check ≠ .error (.deadEnd id)) ∧
      ∀ ps, addProducers g.nodes .empty g.connections = .ok ps → ∀ k m,
        let pending := (Pending.drain ps g.nodes.keys k (.start ps g.nodes.keys)).2
        pending.next? = some m →
        ∀ n count, pending.counts.get? n = some count → ps.feeds m n = true → 0 < count := by
  refine ⟨fun during detected hcheck => ?_, fun id hcheck => ?_, fun ps hps k m => ?_⟩
  · obtain ⟨left, start, hjoined, hleft, hstart, hlen, hloop⟩ := check_cycle hcheck
    refine ⟨List.ne_nil_of_mem hloop.again, hloop.nodup, ⟨start, hloop.head_during, ?_⟩, ?_,
      hloop.again, hloop.feeds_last, hloop.exists_cycle, ?_⟩
    · simpa only [hleft, SortedMap.contains_iff_mem_keys] using hstart
    · refine hloop.steps.imp fun n next hnext => ?_
      have hset : {m | m ∈ left ∧ g.Feeds m n} = {m | g.Feeds m n ∧ Looped g.Feeds m} := by
        ext m
        rw [Set.mem_ofPred_eq, Set.mem_ofPred_eq, hleft, and_comm]
        exact and_congr_right fun hm => and_iff_right (source_mem_keys hjoined hm)
      rwa [← hset]
    · have hsub : during.Subperm left :=
        hloop.nodup.subperm fun n hn => hloop.mem_left n (List.mem_append_left _ hn)
      exact hsub.length_le.trans hlen
  · rcases check_cases g with ⟨e, ⟨_, _, _, -, -, -, hfault⟩, h⟩ |
      ⟨-, -, ⟨_, _, -, -, -, h⟩ | ⟨_, _, _, _, -, -, -, -, h⟩⟩
    · rw [h] at hcheck
      cases hfault <;> cases hcheck
    · simp [h] at hcheck
    · simp [h] at hcheck
  · intro pending hnext n count hcount hf
    exact Pending.pos_of_next? (describes_of_producers hps) k hnext hcount hf

/-- Two nodes feed each other, and one of them feeds the first node. -/
def tailed : Graph where
  nodes := .ofList [("a", default), ("b", default), ("c", default)]
  links := .ofList [(⟨"b", "out"⟩, [⟨"a", "in"⟩, ⟨"c", "in"⟩]), (⟨"c", "out"⟩, [⟨"b", "in"⟩])]

/-- The walk starts at a node that is not on the cycle. -/
theorem check_cycle_loops_back_tailed :
    tailed.check = .error (.cycle ["a", "b", "c"] "b") ∧
      IsLeast {n | tailed.nodes.contains n = true ∧ Looped tailed.Feeds n} "a" ∧
      (["a", "b", "c", "b"].IsChain fun n next =>
        IsLeast {m | tailed.Feeds m n ∧ Looped tailed.Feeds m} next) := by
  have hcheck : tailed.check = .error (.cycle ["a", "b", "c"] "b") := rfl
  obtain ⟨-, -, ⟨start, hstart, hleast⟩, hsteps, -⟩ := (check_cycle_loops_back tailed).1 _ _ hcheck
  obtain rfl : "a" = start := Option.some.inj hstart
  exact ⟨hcheck, hleast, hsteps⟩

end ShaderNodes.Graph
