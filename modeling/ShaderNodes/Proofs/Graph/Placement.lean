import ShaderNodes.Graph.Order
import ShaderNodes.Proofs.Graph.Precedence
import ShaderNodes.Proofs.SortedMap
import Mathlib.Data.List.Perm.Subperm
import Mathlib.Data.List.Sort

/-!
# Placing nodes by counting

The state of the loop has a closed form: after the nodes `placed`, the others have counts, each
waits for its producers that are not placed, and those that wait for none are ready (`Remains`).
Everything else is read off it.

* `Remains.place`: placing a node keeps the form. Where a count goes down it was not zero
  (`Remains.pos_of_feeds`).
* `Remains.next?_iff`: the node that is taken is the least one that can come next.
* `Remains.drain`: what the loop has placed after any number of rounds takes the least node first.
* `Producers.order_cases`: the loop places all nodes, or the walk begins among nodes of which none
  can come next.
-/

namespace ShaderNodes

open Precedence

/-- The producers `ps` say of the ascending nodes `ids` which has to come before which. -/
structure Producers.Describes (ps : Producers) (ids : List NodeId) (R : NodeId → NodeId → Prop) :
    Prop where
  feeds_iff : ∀ m n, ps.feeds m n = true ↔ R m n
  mem_ids : ∀ m n, R m n → m ∈ ids
  ascending : ids.Pairwise (· < ·)

variable {ps : Producers} {ids placed : List NodeId} {R : NodeId → NodeId → Prop} {m n : NodeId}

theorem Producers.Describes.nodup (h : ps.Describes ids R) : ids.Nodup :=
  h.ascending.imp fun hlt => ne_of_lt hlt

theorem isLeast_of_ascending {l : List NodeId} (hl : (n :: l).Pairwise (· < ·)) :
    IsLeast {k | k ∈ n :: l} n := by
  refine ⟨List.mem_cons_self, fun k hk => ?_⟩
  rcases List.mem_cons.1 hk with rfl | hk
  · exact le_refl k
  · exact le_of_lt (List.rel_of_pairwise_cons hl hk)

/-- In an ascending list, the first node with a property is the least one. -/
theorem find?_eq_some_iff_isLeast {l : List NodeId} (hl : l.Pairwise (· < ·)) (p : NodeId → Bool) :
    l.find? p = some m ↔ IsLeast {k | k ∈ l ∧ p k = true} m := by
  induction l with
  | nil => simp [IsLeast]
  | cons a l ih =>
    have ha := isLeast_of_ascending hl
    rw [List.find?_cons]
    cases hp : p a with
    | true =>
      have hleast : IsLeast {k | k ∈ a :: l ∧ p k = true} a :=
        ⟨⟨ha.1, hp⟩, fun k hk => ha.2 hk.1⟩
      constructor
      · rintro ⟨⟩
        exact hleast
      · intro hm
        rw [hleast.unique hm]
    | false =>
      have hset : {k | k ∈ a :: l ∧ p k = true} = {k | k ∈ l ∧ p k = true} := by
        ext k
        simp only [Set.mem_ofPred_eq, List.mem_cons, and_congr_left_iff, or_iff_right_iff_imp]
        rintro hk rfl
        simp [hp] at hk
      rw [hset]
      exact ih hl.of_cons

/-- The first node of an ascending list is the least one. -/
theorem head?_eq_some_iff_isLeast {l : List NodeId} (hl : l.Pairwise (· < ·)) :
    l.head? = some m ↔ IsLeast {k | k ∈ l} m := by
  cases l with
  | nil => simp [IsLeast]
  | cons a l =>
    rw [List.head?_cons, Option.some.injEq]
    exact ⟨fun h => h ▸ isLeast_of_ascending hl, (isLeast_of_ascending hl).unique⟩

namespace Pending

/-! ## The closed form -/

/-- The producers of a node that are not placed. -/
def waiting (ps : Producers) (ids placed : List NodeId) (n : NodeId) : List NodeId :=
  (ps.feeders ids n).filter (· ∉ placed)

/-- The nodes that are not placed have counts, and the count of a node is the number of its
producers that are not placed. The ready nodes are those with the count zero. -/
structure Remains (ps : Producers) (ids placed : List NodeId) (pending : Pending) : Prop where
  counts : ∀ n, pending.counts.get? n =
    if n ∈ ids ∧ n ∉ placed then some (waiting ps ids placed n).length else none
  ready : ∀ n, pending.ready.contains n = true ↔ pending.counts.get? n = some 0

variable {pending : Pending}

theorem mem_waiting : m ∈ waiting ps ids placed n ↔ m ∈ ids ∧ ps.feeds m n = true ∧ m ∉ placed := by
  simp only [waiting, Producers.feeders, List.mem_filter, decide_eq_true_eq, and_assoc]

theorem waiting_eq_nil_iff (h : ps.Describes ids R) :
    waiting ps ids placed n = [] ↔ ∀ m, R m n → m ∈ placed := by
  rw [List.eq_nil_iff_forall_not_mem]
  constructor
  · intro hnil m hm
    by_contra hp
    exact hnil m (mem_waiting.2 ⟨h.mem_ids m n hm, (h.feeds_iff m n).2 hm, hp⟩)
  · intro hall m hm
    obtain ⟨-, hf, hp⟩ := mem_waiting.1 hm
    exact hp (hall m ((h.feeds_iff m n).1 hf))

/-- At the start no node is placed. -/
theorem remains_start (ps : Producers) (ids : List NodeId) : Remains ps ids [] (start ps ids) where
  counts n := by
    refine SortedMap.get?_ofList_of_mem_iff fun count => ?_
    simp only [List.mem_map, Prod.mk.injEq, waiting, List.not_mem_nil, not_false_eq_true, and_true,
      decide_true, List.filter_true, Option.ite_none_right_eq_some, Option.some.injEq]
    constructor
    · rintro ⟨n, hn, rfl, rfl⟩
      exact ⟨hn, rfl⟩
    · rintro ⟨hn, rfl⟩
      exact ⟨n, hn, rfl, rfl⟩
  ready n := by
    rw [start, SortedMap.contains, SortedMap.get?_filterMap]
    cases SortedMap.get? _ n <;> simp

theorem Remains.get?_eq_some_iff (h : Remains ps ids placed pending) {count : Nat} :
    pending.counts.get? n = some count ↔
      (n ∈ ids ∧ n ∉ placed) ∧ (waiting ps ids placed n).length = count := by
  rw [h.counts, Option.ite_none_right_eq_some, Option.some.injEq]

/-- A node that waits for `m` does not have the count zero. -/
theorem Remains.pos_of_feeds (h : Remains ps ids placed pending) {count : Nat}
    (hcount : pending.counts.get? n = some count) (hm : m ∈ ids) (hp : m ∉ placed)
    (hf : ps.feeds m n = true) : 0 < count := by
  rw [← (h.get?_eq_some_iff.1 hcount).2]
  exact List.length_pos_of_mem (mem_waiting.2 ⟨hm, hf, hp⟩)

/-- The ready nodes are those that can come next. -/
theorem Remains.mem_ready_iff (h : Remains ps ids placed pending) (hps : ps.Describes ids R) :
    n ∈ pending.ready.keys ↔ Ready R ids placed n := by
  rw [← SortedMap.contains_iff_mem_keys, h.ready, h.get?_eq_some_iff, List.length_eq_zero_iff,
    waiting_eq_nil_iff hps, and_assoc]
  rfl

/-- The node that is taken is the least one that can come next. -/
theorem Remains.next?_iff (h : Remains ps ids placed pending) (hps : ps.Describes ids R) :
    pending.next? = some m ↔ IsLeast {k | Ready R ids placed k} m := by
  rw [next?, head?_eq_some_iff_isLeast pending.ready.keys_ascending]
  simp only [h.mem_ready_iff hps]

/-- The nodes with counts are those that are not placed. -/
theorem Remains.keys_counts (h : Remains ps ids placed pending) (hids : ids.Pairwise (· < ·)) :
    pending.counts.keys = ids.filter (· ∉ placed) := by
  refine pending.counts.keys_ascending.eq_of_mem_iff (hids.filter _) fun n => ?_
  simp [SortedMap.mem_keys_iff, h.get?_eq_some_iff]

/-! ## One round -/

theorem get?_counts_release (pending : Pending) (m n : NodeId) :
    (pending.release m).counts.get? n =
      if n = m then (pending.counts.get? n).map (· - 1) else pending.counts.get? n := by
  unfold release
  by_cases hn : n = m
  · subst hn
    cases hcount : pending.counts.get? n with
    | none => simpa using hcount
    | some count => simp [SortedMap.get?_insert]
  · cases pending.counts.get? m <;> simp [hn, SortedMap.get?_insert]

theorem contains_ready_release (pending : Pending) (m n : NodeId) :
    (pending.release m).ready.contains n = true ↔
      pending.ready.contains n = true ∨ n = m ∧ (pending.release m).counts.get? n = some 0 := by
  rw [get?_counts_release]
  unfold release
  by_cases hn : n = m
  · subst hn
    cases hcount : pending.counts.get? n with
    | none => simp
    | some count => by_cases hlast : count - 1 = 0 <;> simp [hlast, SortedMap.contains,
        SortedMap.get?_insert]
  · cases pending.counts.get? m with
    | none => simp [hn]
    | some count =>
      by_cases hlast : count - 1 = 0 <;> simp [hn, hlast, SortedMap.contains, SortedMap.get?_insert]

/-- Each of the nodes is released once. -/
theorem get?_counts_foldl_release {l : List NodeId} (hl : l.Nodup) (pending : Pending)
    (n : NodeId) : (l.foldl release pending).counts.get? n =
      if n ∈ l then (pending.counts.get? n).map (· - 1) else pending.counts.get? n := by
  induction l generalizing pending with
  | nil => simp
  | cons m l ih =>
    obtain ⟨hm, hl⟩ := List.nodup_cons.1 hl
    rw [List.foldl_cons, ih hl, get?_counts_release]
    by_cases hn : n = m
    · subst hn
      simp [hm]
    · simp [hn]

/-- Of the nodes that are released, those become ready whose count gets to zero. -/
theorem contains_ready_foldl_release {l : List NodeId} (hl : l.Nodup) (pending : Pending)
    (n : NodeId) : (l.foldl release pending).ready.contains n = true ↔
      pending.ready.contains n = true ∨
        n ∈ l ∧ (l.foldl release pending).counts.get? n = some 0 := by
  induction l generalizing pending with
  | nil => simp
  | cons m l ih =>
    have hcounts := get?_counts_foldl_release hl pending n
    obtain ⟨hm, hl⟩ := List.nodup_cons.1 hl
    rw [List.foldl_cons] at hcounts ⊢
    rw [ih hl, contains_ready_release, get?_counts_release, or_assoc]
    refine or_congr_right ?_
    by_cases hn : n = m
    · subst hn
      rw [if_pos List.mem_cons_self] at hcounts
      simp [hcounts, hm]
    · simp [hn]

/-- Placing a node takes it off the nodes that wait for it, and off no others. -/
theorem length_waiting_snoc (hids : ids.Nodup) (hm : m ∈ ids) (hp : m ∉ placed) :
    (waiting ps ids (placed ++ [m]) n).length =
      if ps.feeds m n then (waiting ps ids placed n).length - 1
      else (waiting ps ids placed n).length := by
  have hnd : (waiting ps ids placed n).Nodup := (hids.filter _).filter _
  have hsnoc : waiting ps ids (placed ++ [m]) n = (waiting ps ids placed n).erase m := by
    rw [hnd.erase_eq_filter, waiting, waiting, List.filter_filter]
    refine List.filter_congr fun k _ => ?_
    rw [Bool.eq_iff_iff]
    simp [and_comm]
  rw [hsnoc]
  by_cases hf : ps.feeds m n = true
  · rw [if_pos hf, List.length_erase_of_mem (mem_waiting.2 ⟨hm, hf, hp⟩)]
  · rw [if_neg hf, List.erase_of_not_mem fun hmem => hf (mem_waiting.1 hmem).2.1]

theorem Remains.place (h : Remains ps ids placed pending) (hids : ids.Nodup) (hm : m ∈ ids)
    (hp : m ∉ placed) : Remains ps ids (placed ++ [m]) (pending.place ps ids m) := by
  have hconsumers : (ps.consumers ids m).Nodup := hids.filter _
  have hcounts : ∀ n, (pending.place ps ids m).counts.get? n =
      if n ∈ ps.consumers ids m then ((pending.counts.erase m).get? n).map (· - 1)
      else (pending.counts.erase m).get? n :=
    get?_counts_foldl_release hconsumers _
  refine ⟨fun n => ?_, fun n => ?_⟩
  · rw [hcounts, SortedMap.get?_erase, h.counts, length_waiting_snoc hids hm hp]
    by_cases hn : n = m
    · simp [hn]
    · by_cases hin : n ∈ ids <;> by_cases hplaced : n ∈ placed <;>
        by_cases hf : ps.feeds m n = true <;>
        simp [Producers.consumers, hn, hin, hplaced, hf]
  · rw [Pending.place, contains_ready_foldl_release hconsumers, ← Pending.place]
    -- A node that was ready does not wait for the one that is placed.
    have hold : (pending.ready.erase m).contains n = true ↔
        n ∉ ps.consumers ids m ∧ (pending.place ps ids m).counts.get? n = some 0 := by
      have hready : (pending.ready.erase m).contains n = true ↔ n ≠ m ∧
          pending.counts.get? n = some 0 := by
        rw [← h.ready, SortedMap.contains, SortedMap.get?_erase]
        by_cases hn : n = m <;> simp [hn, SortedMap.contains]
      rw [hready, hcounts, SortedMap.get?_erase]
      constructor
      · rintro ⟨hn, hzero⟩
        have hfree : n ∉ ps.consumers ids m := fun hmem =>
          absurd (h.pos_of_feeds hzero hm hp (List.mem_filter.1 hmem).2) (Nat.lt_irrefl 0)
        exact ⟨hfree, by rwa [if_neg hfree, if_neg hn]⟩
      · rintro ⟨hfree, hzero⟩
        rw [if_neg hfree] at hzero
        split at hzero
        · cases hzero
        · rename_i hn
          exact ⟨hn, hzero⟩
    rw [hold]
    tauto

/-! ## The loop -/

/-- What the loop has placed, after what was placed before, takes the least node first; what it
leaves has the closed form; and it stops early only when no node is ready. -/
theorem Remains.drain (hpending : Remains ps ids placed pending) (h : ps.Describes ids R)
    (hplaced : LeastFirst R ids placed) (k : Nat) :
    Remains ps ids (placed ++ (pending.drain ps ids k).1) (pending.drain ps ids k).2 ∧
      LeastFirst R ids (placed ++ (pending.drain ps ids k).1) ∧
      ((pending.drain ps ids k).1.length = k ∨ (pending.drain ps ids k).2.next? = none) := by
  induction k generalizing placed pending with
  | zero => simpa [Pending.drain] using ⟨hpending, hplaced⟩
  | succ k ih =>
    rw [Pending.drain]
    cases hnext : pending.next? with
    | none => simpa [hnext] using ⟨hpending, hplaced⟩
    | some m =>
      have hm : IsLeast {k | Ready R ids placed k} m := (hpending.next?_iff h).1 hnext
      obtain ⟨hleft, hleast, hstop⟩ := ih (hpending.place h.nodup hm.1.1 hm.1.2.1) (hplaced.snoc hm)
      rw [List.append_assoc, List.singleton_append] at hleft hleast
      exact ⟨hleft, hleast, by simpa using hstop⟩

/-- The state of the loop after `k` rounds. -/
theorem drain_start (h : ps.Describes ids R) (k : Nat) :
    Remains ps ids ((start ps ids).drain ps ids k).1 ((start ps ids).drain ps ids k).2 ∧
      LeastFirst R ids ((start ps ids).drain ps ids k).1 ∧
      (((start ps ids).drain ps ids k).1.length = k ∨
        ((start ps ids).drain ps ids k).2.next? = none) :=
  (remains_start ps ids).drain h LeastFirst.nil k

/-- The counts of the nodes that a ready node feeds are not zero when it is placed. -/
theorem pos_of_next? (h : ps.Describes ids R) (k : Nat) {count : Nat}
    (hnext : ((start ps ids).drain ps ids k).2.next? = some m)
    (hcount : ((start ps ids).drain ps ids k).2.counts.get? n = some count)
    (hf : ps.feeds m n = true) : 0 < count := by
  obtain ⟨hleft, -, -⟩ := drain_start h k
  obtain ⟨hm, hp, -⟩ := ((hleft.next?_iff h).1 hnext).1
  exact hleft.pos_of_feeds hcount hm hp hf

/-- As many rounds as there are nodes are enough: then no node is ready. -/
theorem not_ready_drain (h : ps.Describes ids R) (n : NodeId) :
    ¬ Ready R ids ((start ps ids).drain ps ids ids.length).1 n := by
  obtain ⟨hleft, hleast, hstop⟩ := drain_start h ids.length
  generalize ((start ps ids).drain ps ids ids.length).1 = placed at *
  intro hn
  rcases hstop with hlen | hnone
  · -- All nodes are placed.
    have hsub : placed.Subperm ids :=
      List.subperm_of_subset hleast.nodup fun _ hk => hleast.mem_ids hk
    exact hn.2.1 ((hsub.perm_of_length_le hlen.ge).mem_iff.2 hn.1)
  · rw [next?, List.head?_eq_none_iff] at hnone
    simpa [hnone] using (hleft.mem_ready_iff h).2 hn

end Pending

/-- The order of the nodes, or the walk from the least node that is left. In both cases the nodes
placed take the least node first, and none can come next. -/
theorem Producers.order_cases (h : ps.Describes ids R) :
    ∃ placed, LeastFirst R ids placed ∧ (∀ n, ¬ Ready R ids placed n) ∧
      (placed.Perm ids ∧ ps.order ids = .ok placed ∨
        ∃ start rest, ids.filter (· ∉ placed) = start :: rest ∧
          ps.order ids =
            .error (Pending.walk ps (start :: rest) (start :: rest).length [] start)) := by
  obtain ⟨hleft, hleast, -⟩ := Pending.drain_start h ids.length
  refine ⟨_, hleast, Pending.not_ready_drain h, ?_⟩
  have hkeys := hleft.keys_counts h.ascending
  unfold Producers.order
  rcases hdrain : (Pending.start ps ids).drain ps ids ids.length with ⟨placed, pending⟩
  simp only [hdrain] at hkeys hleast ⊢
  rw [hkeys]
  cases hrest : ids.filter (· ∉ placed) with
  | nil =>
    refine .inl ⟨?_, rfl⟩
    have hall : ∀ n ∈ ids, n ∈ placed := by
      simpa [List.filter_eq_nil_iff] using hrest
    exact (List.perm_ext_iff_of_nodup hleast.nodup h.nodup).2
      fun n => ⟨fun hn => hleast.mem_ids hn, hall n⟩
  | cons start rest => exact .inr ⟨start, rest, rfl, rfl⟩

end ShaderNodes
