import ShaderNodes.Graph.Check
import ShaderNodes.Proofs.SortedMap
import Mathlib.Data.List.Induction

/-!
# Faults of single links

A list of links is sound when each link joins two nodes (`Joined`) and no two links end at one input
(`SingleFed`). What is wrong with a link is said by `LinkFault`, given the links before it.

* `sound_or_fault`: a list of links is sound, or it has a first faulty link.
* `addProducers_append`: over sound links the scan goes on, and what it has found are their ends.
* `addProducers_fault`: at a faulty link the scan stops with the fault.
-/

namespace ShaderNodes

/-- Each link begins and ends at a node. -/
def Joined (nodes : SortedMap NodeId Node) (links : List Link) : Prop :=
  ∀ l ∈ links, nodes.contains l.source.node = true ∧ nodes.contains l.target.node = true

/-- No two links end at one input. -/
def SingleFed (links : List Link) : Prop := (links.map (·.target)).Nodup

/-- What is wrong with a link after the links `earlier`. A missing source comes before a missing
target, and both before an input that is fed already. -/
inductive LinkFault (nodes : SortedMap NodeId Node) (earlier : List Link) (l : Link) :
    Graph.Error → Prop where
  | source : nodes.contains l.source.node = false →
      LinkFault nodes earlier l (.missingNode l.source)
  | target : nodes.contains l.source.node = true → nodes.contains l.target.node = false →
      LinkFault nodes earlier l (.missingNode l.target)
  | repeated (first : Link) : nodes.contains l.source.node = true →
      nodes.contains l.target.node = true → first ∈ earlier → first.target = l.target →
      LinkFault nodes earlier l (.multipleProducers l.target first.source l.source)

namespace Graph

/-- An output of node `m` feeds an input of node `n`. -/
def Feeds (g : Graph) (m n : NodeId) : Prop :=
  ∃ l ∈ g.connections, l.source.node = m ∧ l.target.node = n

/-- The first link with a fault has the fault `e`. -/
def FirstFault (g : Graph) (e : Error) : Prop :=
  ∃ earlier l rest, g.connections = earlier ++ l :: rest ∧ Joined g.nodes earlier ∧
    SingleFed earlier ∧ LinkFault g.nodes earlier l e

end Graph

variable {nodes : SortedMap NodeId Node} {earlier rest : List Link} {l : Link}

theorem Joined.of_append (h : Joined nodes (earlier ++ rest)) : Joined nodes earlier :=
  fun l hl => h l (List.mem_append_left _ hl)

theorem SingleFed.of_append (h : SingleFed (earlier ++ rest)) : SingleFed earlier := by
  rw [SingleFed, List.map_append] at h
  exact (List.nodup_append.1 h).1

theorem singleFed_snoc :
    SingleFed (earlier ++ [l]) ↔ SingleFed earlier ∧ ∀ first ∈ earlier,
    first.target ≠ l.target := by
  simp [SingleFed, List.nodup_append]

theorem joined_snoc : Joined nodes (earlier ++ [l]) ↔ Joined nodes earlier ∧
    nodes.contains l.source.node = true ∧ nodes.contains l.target.node = true := by
  constructor
  · intro h
    exact ⟨h.of_append, h l (by simp)⟩
  · rintro ⟨h, hl⟩ k hk
    rcases List.mem_append.1 hk with hk | hk
    · exact h k hk
    · obtain rfl : k = l := by simpa using hk
      exact hl

/-- A link with a fault keeps the list from being sound. -/
theorem LinkFault.not_sound {e : Graph.Error} (h : LinkFault nodes earlier l e) :
    ¬ (Joined nodes (earlier ++ l :: rest) ∧ SingleFed (earlier ++ l :: rest)) := by
  rintro ⟨hjoined, hsingle⟩
  rw [List.append_cons] at hjoined hsingle
  obtain ⟨-, hsource, htarget⟩ := joined_snoc.1 hjoined.of_append
  cases h with
  | source hs => simp [hs] at hsource
  | target _ ht => simp [ht] at htarget
  | repeated first _ _ hmem heq => exact (singleFed_snoc.1 hsingle.of_append).2 first hmem heq

/-- After sound links, a link keeps the list sound or has a fault. -/
theorem sound_snoc_or_fault (hjoined : Joined nodes earlier) (hsingle : SingleFed earlier)
    (l : Link) :
    Joined nodes (earlier ++ [l]) ∧ SingleFed (earlier ++ [l]) ∨
      ∃ e, LinkFault nodes earlier l e := by
  cases hsource : nodes.contains l.source.node with
  | false => exact .inr ⟨_, .source hsource⟩
  | true =>
    cases htarget : nodes.contains l.target.node with
    | false => exact .inr ⟨_, .target hsource htarget⟩
    | true =>
      by_cases hrep : ∃ first ∈ earlier, first.target = l.target
      · obtain ⟨first, hmem, heq⟩ := hrep
        exact .inr ⟨_, .repeated first hsource htarget hmem heq⟩
      · refine .inl ⟨joined_snoc.2 ⟨hjoined, hsource, htarget⟩, singleFed_snoc.2 ⟨hsingle, ?_⟩⟩
        exact fun first hmem heq => hrep ⟨first, hmem, heq⟩

/-- A list of links is sound, or it has a first faulty link. -/
theorem sound_or_fault (nodes : SortedMap NodeId Node) (links : List Link) :
    Joined nodes links ∧ SingleFed links ∨
      ∃ earlier l rest e, links = earlier ++ l :: rest ∧ Joined nodes earlier ∧ SingleFed earlier ∧
        LinkFault nodes earlier l e := by
  induction links using List.reverseRecOn with
  | nil => exact .inl ⟨by simp [Joined], by simp [SingleFed]⟩
  | append_singleton links l ih =>
    rcases ih with ⟨hjoined, hsingle⟩ | ⟨earlier, l', rest, e, rfl, hfault⟩
    · rcases sound_snoc_or_fault hjoined hsingle l with hsound | ⟨e, he⟩
      · exact .inl hsound
      · exact .inr ⟨links, l, [], e, rfl, hjoined, hsingle, he⟩
    · exact .inr ⟨earlier, l', rest ++ [l], e, by simp, hfault⟩

/-! ## The scan -/

/-- The map `found` holds the source of each target in `links`. -/
def Producers.Holds (found : Producers) (links : List Link) : Prop :=
  ∀ source target, found.get? target = some source ↔ ⟨source, target⟩ ∈ links

namespace Graph

variable {found : Producers}

theorem holds_empty : Producers.Holds .empty [] := by
  intro source target
  simp [SortedMap.get?_empty]

/-- A new target is put beside the others. -/
theorem holds_insert (h : found.Holds earlier) (hl : ∀ first ∈ earlier, first.target ≠ l.target) :
    Producers.Holds (found.insert l.target l.source) (earlier ++ [l]) := by
  intro source target
  rw [SortedMap.get?_insert, List.mem_append, List.mem_singleton]
  by_cases ht : target = l.target
  · subst ht
    have hnew : ⟨source, l.target⟩ ∉ earlier := fun hmem => hl _ hmem rfl
    rw [if_pos rfl, or_iff_right hnew, Option.some.injEq]
    exact ⟨fun hs => hs ▸ rfl, fun hs => (congrArg Link.source hs).symm⟩
  · have hne : (⟨source, target⟩ : Link) ≠ l := fun heq => ht (congrArg Link.target heq)
    rw [if_neg ht, h source target, or_iff_left hne]

/-- Over sound links the scan goes on, and holds them all. -/
theorem addProducers_append (links : List Link) (h : found.Holds earlier)
    (hjoined : Joined nodes (earlier ++ links)) (hsingle : SingleFed (earlier ++ links)) :
    ∃ found', Producers.Holds found' (earlier ++ links) ∧
      ∀ rest, addProducers nodes found (links ++ rest) = addProducers nodes found' rest := by
  induction links generalizing earlier found with
  | nil => exact ⟨found, by simpa using h, fun _ => rfl⟩
  | cons l links ih =>
    rw [List.append_cons] at hjoined hsingle ⊢
    obtain ⟨-, hsource, htarget⟩ := joined_snoc.1 hjoined.of_append
    have hnew := (singleFed_snoc.1 hsingle.of_append).2
    have hnone : found.get? l.target = none := by
      cases hget : found.get? l.target with
      | none => rfl
      | some source => exact absurd rfl (hnew ⟨source, l.target⟩ ((h source l.target).1 hget))
    obtain ⟨found', hfound', hrest⟩ := ih (holds_insert h hnew) hjoined hsingle
    refine ⟨found', hfound', fun rest => ?_⟩
    rw [List.cons_append, addProducers, hsource, htarget, hnone]
    exact hrest rest

/-- At a faulty link the scan stops with the fault. -/
theorem addProducers_fault {e : Error} (h : found.Holds earlier)
    (hl : LinkFault nodes earlier l e) : addProducers nodes found (l :: rest) = .error e := by
  rw [addProducers]
  cases hl with
  | source hsource => simp [hsource]
  | target hsource htarget => simp [hsource, htarget]
  | repeated first hsource htarget hmem heq =>
    have hget : found.get? l.target = some first.source := (h _ _).2 (heq ▸ hmem)
    simp [hsource, htarget, hget]

end Graph

end ShaderNodes
