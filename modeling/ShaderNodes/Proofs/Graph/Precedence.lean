import ShaderNodes.Graph.Basic
import Mathlib.Data.List.Chain
import Mathlib.Data.List.Lex
import Mathlib.Data.String.Basic
import Mathlib.Logic.Relation
import Mathlib.Order.Bounds.Basic

/-!
# Orders along a relation between nodes

`R m n` says that node `m` has to come before node `n`; `ids` are the nodes to place. Nothing here
knows of graphs: a relation may have cycles, and a list may hold some of the nodes only.

* `Topological R ids order`: all nodes, each after the nodes that have to come before it.
* `LeastFirst R ids order`: each place holds the least node that was ready there. Such a list, when
  it holds all nodes, is the least topological order (`LeastFirst.isLeast`).
* `Looped R n`: a cycle leads to `n`. No node of a `LeastFirst` list is looped
  (`LeastFirst.not_looped`).
* `Trail` and `LoopBack`: a walk against `R`, and one that comes to a node again, which closes a
  cycle (`LoopBack.exists_cycle`).
-/

namespace ShaderNodes.Precedence

open Relation

variable {R : NodeId → NodeId → Prop} {ids : List NodeId}

/-- After the nodes `placed`, node `n` can come next: it is not among them, and all nodes that have
to come before it are. -/
def Ready (R : NodeId → NodeId → Prop) (ids placed : List NodeId) (n : NodeId) : Prop :=
  n ∈ ids ∧ n ∉ placed ∧ ∀ m, R m n → m ∈ placed

/-- All nodes, each after the nodes that have to come before it. -/
structure Topological (R : NodeId → NodeId → Prop) (ids order : List NodeId) : Prop where
  perm : order.Perm ids
  before : ∀ placed n rest, order = placed ++ n :: rest → ∀ m, R m n → m ∈ placed

/-- Each place holds the least node that was ready there. -/
def LeastFirst (R : NodeId → NodeId → Prop) (ids order : List NodeId) : Prop :=
  ∀ placed n rest, order = placed ++ n :: rest → IsLeast {k | Ready R ids placed k} n

/-- A cycle leads to the node, or the node is on it. -/
def Looped (R : NodeId → NodeId → Prop) (n : NodeId) : Prop :=
  ∃ k, TransGen R k k ∧ ReflTransGen R k n

/-! ## Lists that take the least node first -/

namespace LeastFirst

variable {order placed rest : List NodeId} {m n : NodeId}

theorem nil : LeastFirst R ids [] := by
  intro placed n rest h
  simp at h

theorem snoc (h : LeastFirst R ids placed) (hn : IsLeast {k | Ready R ids placed k} n) :
    LeastFirst R ids (placed ++ [n]) := by
  intro placed' n' rest' heq
  -- The node in question is the new one, or one of the old list.
  rcases List.eq_nil_or_concat rest' with rfl | ⟨rest'', z, rfl⟩
  · obtain ⟨rfl, hz⟩ := List.append_inj' heq rfl
    obtain rfl : n = n' := by simpa using hz
    exact hn
  · have heq' : placed ++ [n] = (placed' ++ n' :: rest'') ++ [z] := by simpa using heq
    exact h placed' n' rest'' (List.append_inj' heq' rfl).1

theorem of_append (h : LeastFirst R ids (placed ++ rest)) : LeastFirst R ids placed := by
  intro placed' n rest' heq
  exact h placed' n (rest' ++ rest) (by simp [heq])

theorem ready (h : LeastFirst R ids (placed ++ n :: rest)) : Ready R ids placed n :=
  (h placed n rest rfl).1

theorem mem_ids (h : LeastFirst R ids order) (hn : n ∈ order) : n ∈ ids := by
  obtain ⟨placed, rest, rfl⟩ := List.append_of_mem hn
  exact h.ready.1

theorem nodup (h : LeastFirst R ids order) : order.Nodup := by
  induction order using List.reverseRecOn with
  | nil => exact List.nodup_nil
  | append_singleton placed n ih =>
    have hn : n ∉ placed := h.ready.2.1
    rw [List.nodup_append]
    refine ⟨ih h.of_append, by simp, ?_⟩
    intro a ha b hb hab
    obtain rfl : b = n := by simpa using hb
    exact hn (hab ▸ ha)

/-- All of a chain of dependencies stands before its end. -/
theorem mem_of_transGen (h : LeastFirst R ids (placed ++ n :: rest)) (hmn : TransGen R m n) :
    m ∈ placed := by
  induction hmn generalizing placed rest with
  | single hm => exact h.ready.2.2 _ hm
  | tail _ hb ih =>
    obtain ⟨front, back, rfl⟩ := List.append_of_mem (h.ready.2.2 _ hb)
    rw [List.append_assoc, List.cons_append] at h
    exact List.mem_append_left _ (ih h)

theorem not_looped (h : LeastFirst R ids order) (hn : n ∈ order) : ¬ Looped R n := by
  rintro ⟨k, hk, hkn⟩
  obtain ⟨placed, rest, rfl⟩ := List.append_of_mem hn
  have hmem : k ∈ placed ++ n :: rest := by
    rcases reflTransGen_iff_eq_or_transGen.1 hkn with rfl | hkn
    · exact hn
    · exact List.mem_append_left _ (h.mem_of_transGen hkn)
  obtain ⟨front, back, heq⟩ := List.append_of_mem hmem
  rw [heq] at h
  exact h.ready.2.1 (h.mem_of_transGen hk)

theorem topological (h : LeastFirst R ids order) (hperm : order.Perm ids) :
    Topological R ids order where
  perm := hperm
  before := by
    rintro placed n rest rfl m hm
    exact h.ready.2.2 m hm

/-- Without nodes that no other node waits for, the others stay as they stand. -/
theorem filter (h : LeastFirst R ids order) (keep : NodeId → Bool)
    (hkeep : ∀ m n, R m n → keep m = true) :
    LeastFirst R (ids.filter keep) (order.filter keep) := by
  intro placed n rest hsplit
  obtain ⟨front, back, rfl, hfront, hback⟩ := List.filter_eq_append_iff.1 hsplit
  obtain ⟨gone, after, rfl, hgone, hn, -⟩ := List.filter_eq_cons_iff.1 hback
  -- What stood before the node is what stands before it now, and some nodes that are not kept.
  have hplaced : ∀ m, keep m = true → (m ∈ front ++ gone ↔ m ∈ placed) := by
    intro m hm
    rw [← hfront, List.mem_filter, List.mem_append]
    constructor
    · rintro (hm' | hm')
      · exact ⟨hm', hm⟩
      · exact absurd hm (hgone m hm')
    · exact fun hm' => .inl hm'.1
  have hready : ∀ k, keep k = true →
      (Ready R ids (front ++ gone) k ↔ Ready R (ids.filter keep) placed k) := by
    intro k hk
    unfold Ready
    rw [List.mem_filter, and_iff_left hk, hplaced k hk]
    exact and_congr_right' (and_congr_right' (forall₂_congr fun m hm => hplaced m (hkeep m k hm)))
  have hleast := h (front ++ gone) n after (by simp)
  refine ⟨(hready n hn).1 hleast.1, fun k hk => hleast.2 ?_⟩
  exact (hready k (List.mem_filter.1 hk.1).2).2 hk

end LeastFirst

namespace Topological

variable {order placed rest : List NodeId} {k m n : NodeId}

theorem nodup (h : Topological R ids order) (hids : ids.Nodup) : order.Nodup :=
  h.perm.nodup_iff.2 hids

/-- What comes next in a topological order is ready. -/
theorem ready (h : Topological R ids (placed ++ n :: rest)) (hids : ids.Nodup) :
    Ready R ids placed n := by
  refine ⟨h.perm.subset (by simp), ?_, h.before placed n rest rfl⟩
  intro hn
  have hnd := h.nodup hids
  rw [List.nodup_append] at hnd
  exact hnd.2.2 n hn n (by simp) rfl

/-- Up to any place, what has to come before comes before that place. -/
theorem mem_placed (h : Topological R ids (placed ++ n :: rest)) (hk : k ∈ placed ++ [n])
    (hmk : R m k) : m ∈ placed := by
  rcases List.mem_append.1 hk with hk | hk
  · obtain ⟨front, back, rfl⟩ := List.append_of_mem hk
    have hm : m ∈ front := h.before front k (back ++ n :: rest) (by simp) m hmk
    exact List.mem_append_left _ hm
  · obtain rfl : k = n := List.mem_singleton.1 hk
    exact h.before placed k rest rfl m hmk

/-- A node stands strictly before each node that has to come after it. -/
theorem idxOf_lt (h : Topological R ids order) (hids : ids.Nodup) (hn : n ∈ ids) (hmn : R m n) :
    order.idxOf m < order.idxOf n := by
  obtain ⟨placed, rest, rfl⟩ := List.append_of_mem (h.perm.mem_iff.2 hn)
  have hm : m ∈ placed := h.before placed n rest rfl m hmn
  have hn' : n ∉ placed := (h.ready hids).2.1
  rw [List.idxOf_append_of_mem hm, List.idxOf_append_of_notMem hn', List.idxOf_cons_self]
  have := List.idxOf_lt_length_of_mem hm
  omega

end Topological

/-- Where both lists have placed the same nodes, a list that takes the least node first goes on at
most as high as a topological order. -/
private theorem LeastFirst.le_after (placed : List NodeId) {rest rest' : List NodeId}
    (hids : ids.Nodup) (h : LeastFirst R ids (placed ++ rest)) (hperm : (placed ++ rest).Perm ids)
    (h' : Topological R ids (placed ++ rest')) : rest ≤ rest' := by
  induction rest generalizing placed rest' with
  | nil => exact not_lt.1 (List.not_lt_nil rest')
  | cons n rest ih =>
    cases rest' with
    | nil =>
      have hlen := (hperm.trans h'.perm.symm).length_eq
      simp at hlen
    | cons n' rest' =>
      have hle : n ≤ n' := (h placed n rest rfl).2 (h'.ready hids)
      rcases lt_or_eq_of_le hle with hlt | rfl
      · exact le_of_lt (List.cons_lt_cons_iff.2 (.inl hlt))
      · refine List.cons_le_cons n (ih (placed ++ [n]) ?_ ?_ ?_) <;>
          rwa [List.append_assoc, List.singleton_append]

/-- Taking the least node first gives the least of all topological orders. -/
theorem LeastFirst.isLeast {order : List NodeId} (hids : ids.Nodup) (h : LeastFirst R ids order)
    (hperm : order.Perm ids) : IsLeast {other | Topological R ids other} order := by
  refine ⟨h.topological hperm, fun other hother => ?_⟩
  exact LeastFirst.le_after [] hids h hperm hother

/-! ## Walks against the relation -/

/-- A walk from `start` against the relation, through `during` and on to `next`. Each step goes to
the least node in `left` that has to come before. -/
structure Trail (R : NodeId → NodeId → Prop) (left : List NodeId) (start : NodeId)
    (during : List NodeId) (next : NodeId) : Prop where
  head : (during ++ [next]).head? = some start
  nodup : during.Nodup
  mem_left : ∀ n ∈ during ++ [next], n ∈ left
  steps : (during ++ [next]).IsChain fun n next => IsLeast {m | m ∈ left ∧ R m n} next

/-- A walk that comes to a node again. -/
structure LoopBack (R : NodeId → NodeId → Prop) (left : List NodeId) (start : NodeId)
    (during : List NodeId) (detected : NodeId) : Prop
    extends Trail R left start during detected where
  again : detected ∈ during

namespace Trail

variable {left during : List NodeId} {start m next : NodeId}

theorem nil (h : start ∈ left) : Trail R left start [] start where
  head := rfl
  nodup := List.nodup_nil
  mem_left := by simpa using h
  steps := List.isChain_singleton start

theorem snoc (h : Trail R left start during m) (hm : m ∉ during)
    (hnext : IsLeast {k | k ∈ left ∧ R k m} next) : Trail R left start (during ++ [m]) next where
  head := by
    rw [List.head?_append, h.head]
    rfl
  nodup := List.nodup_append.2 ⟨h.nodup, by simp, by rintro a ha b hb rfl; simp_all⟩
  mem_left := by
    intro n hn
    rcases List.mem_append.1 hn with hn | hn
    · exact h.mem_left n hn
    · obtain rfl : n = next := by simpa using hn
      exact hnext.1.1
  steps := by
    refine h.steps.append (List.isChain_singleton next) ?_
    intro a ha b hb
    obtain rfl : m = a := by simpa using ha
    obtain rfl : next = b := by simpa using hb
    exact hnext

end Trail

namespace LoopBack

variable {left during : List NodeId} {start detected : NodeId}

/-- The walk from the node that comes again on goes round a cycle. -/
theorem exists_cycle (h : LoopBack R left start during detected) :
    ∃ front back, during = front ++ detected :: back ∧
      (detected :: back ++ [detected]).IsChain fun n next => R next n := by
  obtain ⟨front, back, rfl⟩ := List.append_of_mem h.again
  refine ⟨front, back, rfl, ?_⟩
  have hsteps := h.steps
  rw [List.append_assoc] at hsteps
  exact hsteps.right_of_append.imp fun _ _ hnext => hnext.1.2

/-- The last node of the walk comes after the node that comes again. -/
theorem feeds_last (h : LoopBack R left start during detected) :
    ∃ last, during.getLast? = some last ∧ R detected last := by
  obtain ⟨front, last, rfl⟩ := during.eq_nil_or_concat.resolve_left (List.ne_nil_of_mem h.again)
  have hsteps := h.steps
  rw [List.concat_append] at hsteps
  have hlast := List.isChain_pair.1 hsteps.right_of_append
  exact ⟨last, by simp, hlast.1.2⟩

theorem head_during (h : LoopBack R left start during detected) : during.head? = some start := by
  have hhead := h.head
  rwa [List.head?_append_of_ne_nil _ (List.ne_nil_of_mem h.again)] at hhead

theorem reflTransGen (h : LoopBack R left start during detected) {n : NodeId} (hn : n ∈ during) :
    ReflTransGen R detected n :=
  h.steps.backwards_concat_induction (ReflTransGen R detected ·) during
    (fun _ _ hnext hreach => hreach.tail hnext.1.2) .refl n hn

/-- A walk that comes to a node again began behind a cycle. -/
theorem looped (h : LoopBack R left start during detected) : Looped R start := by
  refine ⟨detected, ?_, h.reflTransGen (List.mem_of_head? h.head_during)⟩
  obtain ⟨front, back, rfl, hcycle⟩ := h.exists_cycle
  cases back with
  | nil =>
    have hself : R detected detected := (List.isChain_cons_cons.1 hcycle).1
    exact .single hself
  | cons next back =>
    have hnext : R next detected := (List.isChain_cons_cons.1 hcycle).1
    exact .tail' (h.reflTransGen (by simp)) hnext

end LoopBack

end ShaderNodes.Precedence
