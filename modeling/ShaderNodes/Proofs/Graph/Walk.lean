import ShaderNodes.Proofs.Graph.Placement

/-!
# The walk to a cycle

Where each node that is left has a producer that is left, the walk against the links does not end
before a node comes again, and it does not need more steps than there are nodes left.

* `walk_eq_cycle`: the walk from any node that is left gives a `LoopBack`.
* `mem_left_iff_looped`: the nodes that are left are those that a cycle leads to.
-/

namespace ShaderNodes.Pending

open Precedence

variable {ps : Producers} {ids placed left during : List NodeId} {R : NodeId → NodeId → Prop}
  {start m n next : NodeId}

/-- The first feeder of a node is the least one. -/
theorem isLeast_of_feeders (h : ps.Describes ids R) (hleft : left.Pairwise (· < ·))
    {rest : List NodeId} (hnext : ps.feeders left m = next :: rest) :
    IsLeast {k | k ∈ left ∧ R k m} next := by
  have hfind : left.find? (ps.feeds · m) = some next := by
    rw [← List.head?_filter, ← Producers.feeders, hnext, List.head?_cons]
  have hleast := (find?_eq_some_iff_isLeast hleft _).1 hfind
  simpa only [h.feeds_iff] using hleast

theorem exists_feeders (h : ps.Describes ids R) (hm : ∃ k ∈ left, R k m) :
    ∃ next rest, ps.feeders left m = next :: rest := by
  obtain ⟨k, hk, hkm⟩ := hm
  have hmem : k ∈ ps.feeders left m := List.mem_filter.2 ⟨hk, (h.feeds_iff k m).2 hkm⟩
  exact List.exists_cons_of_ne_nil (List.ne_nil_of_mem hmem)

theorem walk_of_mem (k : Nat) (hm : m ∈ during) : walk ps left k during m = .cycle during m := by
  unfold walk
  rw [if_pos hm]

theorem walk_succ (k : Nat) (hm : m ∉ during) {rest : List NodeId}
    (hnext : ps.feeders left m = next :: rest) :
    walk ps left (k + 1) during m = walk ps left k (during ++ [m]) next := by
  rw [walk.eq_def]
  simp only [if_neg hm, hnext]

/-- A walk with a step left for each node it has not been to comes to a node again. -/
theorem walk_trail (h : ps.Describes ids R) (hleft : left.Pairwise (· < ·))
    (hstuck : ∀ n ∈ left, ∃ k ∈ left, R k n) (k : Nat) (htrail : Trail R left start during m)
    (hlen : during.length + k = left.length) :
    ∃ during' detected, walk ps left k during m = .cycle during' detected ∧
      LoopBack R left start during' detected := by
  induction k generalizing during m with
  | zero =>
    -- The walk has been to every node that is left.
    have hsub : during.Subperm left :=
      htrail.nodup.subperm fun n hn => htrail.mem_left n (List.mem_append_left _ hn)
    have hm : m ∈ during :=
      (hsub.perm_of_length_le (by omega)).mem_iff.2 (htrail.mem_left m (by simp))
    exact ⟨during, m, walk_of_mem 0 hm, htrail, hm⟩
  | succ k ih =>
    by_cases hm : m ∈ during
    · exact ⟨during, m, walk_of_mem (k + 1) hm, htrail, hm⟩
    · obtain ⟨next, rest, hnext⟩ := exists_feeders h (hstuck m (htrail.mem_left m (by simp)))
      rw [walk_succ k hm hnext]
      refine ih (htrail.snoc hm (isLeast_of_feeders h hleft hnext)) ?_
      rw [List.length_append, List.length_singleton]
      omega

theorem walk_eq_cycle (h : ps.Describes ids R) (hleft : left.Pairwise (· < ·))
    (hstuck : ∀ n ∈ left, ∃ k ∈ left, R k n) (hstart : start ∈ left) :
    ∃ during detected, walk ps left left.length [] start = .cycle during detected ∧
      LoopBack R left start during detected :=
  walk_trail h hleft hstuck left.length (.nil hstart) (Nat.zero_add _)

/-! ## The nodes that are left -/

/-- When no node can come next, each node that is left has a producer that is left. -/
theorem exists_producer_left (h : ps.Describes ids R) (hstuck : ∀ n, ¬ Ready R ids placed n)
    (hn : n ∈ ids.filter (· ∉ placed)) : ∃ k ∈ ids.filter (· ∉ placed), R k n := by
  obtain ⟨hids, hplaced⟩ : n ∈ ids ∧ n ∉ placed := by simpa using hn
  by_contra! hnone
  refine hstuck n ⟨hids, hplaced, fun k hk => ?_⟩
  by_contra hkp
  exact hnone k (by simpa using ⟨h.mem_ids k n hk, hkp⟩) hk

theorem left_ascending (h : ps.Describes ids R) (placed : List NodeId) :
    (ids.filter (· ∉ placed)).Pairwise (· < ·) :=
  h.ascending.filter _

theorem mem_left_iff_looped (h : ps.Describes ids R) (hplaced : LeastFirst R ids placed)
    (hstuck : ∀ n, ¬ Ready R ids placed n) :
    n ∈ ids.filter (· ∉ placed) ↔ n ∈ ids ∧ Looped R n := by
  constructor
  · intro hn
    -- The walk from the node finds the cycle.
    obtain ⟨during, detected, -, hloop⟩ := walk_eq_cycle h (left_ascending h placed)
      (fun k hk => exists_producer_left h hstuck hk) hn
    exact ⟨List.mem_of_mem_filter hn, hloop.looped⟩
  · rintro ⟨hids, hloop⟩
    have hn : n ∉ placed := fun hn => hplaced.not_looped hn hloop
    simpa using ⟨hids, hn⟩

end ShaderNodes.Pending
