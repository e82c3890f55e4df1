/-!
# Maps in key order

`SortedMap κ ν` is a finite map kept as the list of its entries, keys strictly ascending. That is
the order in which nodes, links and values are walked and printed, so it is part of the type; and
since equal contents have one list only, maps with the same look-ups are equal.

* `get?_eq_some_iff`: a look-up finds exactly the entries.
* `get?_insert`, `get?_erase`: what an insertion and a removal do to look-ups.
* `ext_get?`: a map is determined by its look-ups.
-/

open Std

namespace ShaderNodes

/-- A finite map, as its entries in strictly ascending key order. -/
structure SortedMap (κ ν : Type) [Ord κ] where
  entries : List (κ × ν)
  ascending : entries.Pairwise fun a b => compare a.1 b.1 = .lt

namespace SortedMap

variable {κ ν μ : Type} [Ord κ]

instance [DecidableEq κ] [DecidableEq ν] : DecidableEq (SortedMap κ ν) := fun m n =>
  decidable_of_iff (m.entries = n.entries) (by cases m; cases n; simp)

/-- The map without entries. -/
def empty : SortedMap κ ν := ⟨[], .nil⟩

instance : Inhabited (SortedMap κ ν) := ⟨empty⟩

instance : EmptyCollection (SortedMap κ ν) := ⟨empty⟩

/-- The keys, ascending. -/
def keys (m : SortedMap κ ν) : List κ := m.entries.map (·.1)

/-- The number of entries. -/
def size (m : SortedMap κ ν) : Nat := m.entries.length

/-- The value under a key. -/
def get? (m : SortedMap κ ν) (k : κ) : Option ν :=
  (m.entries.find? fun e => compare k e.1 == .eq).map (·.2)

/-- Whether a key has a value. -/
def contains (m : SortedMap κ ν) (k : κ) : Bool := (m.get? k).isSome

/-- The value under a key that has one. -/
def get (m : SortedMap κ ν) (k : κ) (h : m.contains k = true) : ν := (m.get? k).get h

/-- Puts an entry in its place, over an entry of the same key. -/
def insertEntry (k : κ) (v : ν) : List (κ × ν) → List (κ × ν)
  | [] => [(k, v)]
  | e :: rest =>
    match compare k e.1 with
    | .lt => (k, v) :: e :: rest
    | .eq => (k, v) :: rest
    | .gt => e :: insertEntry k v rest

/-- Keeps the entries whose value `f` keeps, with the value it gives. -/
def filterMap (f : κ → ν → Option μ) (m : SortedMap κ ν) : SortedMap κ μ where
  entries := m.entries.filterMap fun e => (f e.1 e.2).map (e.1, ·)
  ascending := by
    refine m.ascending.filterMap _ fun a b hab a' ha b' hb => ?_
    obtain ⟨x, -, rfl⟩ := Option.map_eq_some_iff.1 ha
    obtain ⟨y, -, rfl⟩ := Option.map_eq_some_iff.1 hb
    exact hab

/-- Removes a key. -/
def erase (m : SortedMap κ ν) (k : κ) : SortedMap κ ν where
  entries := m.entries.filter fun e => compare k e.1 != .eq
  ascending := m.ascending.filter _

theorem get?_empty (k : κ) : (empty : SortedMap κ ν).get? k = none := rfl

theorem get?_eq_some_iff [LawfulEqOrd κ] {m : SortedMap κ ν} {k : κ} {v : ν} :
    m.get? k = some v ↔ (k, v) ∈ m.entries := by
  obtain ⟨l, hl⟩ := m
  simp only [get?]
  induction l with
  | nil => simp
  | cons e rest ih =>
    obtain ⟨he, hrest⟩ := List.pairwise_cons.1 hl
    rw [List.find?_cons]
    cases hk : compare k e.1 == .eq with
    | true =>
      have hke : k = e.1 := by simpa using hk
      subst hke
      constructor
      · intro h
        have : e.2 = v := by simpa using h
        subst this
        simp
      · intro h
        rcases List.mem_cons.1 h with h | h
        · simp [show v = e.2 from congrArg Prod.snd h]
        · have := he _ h
          simp [ReflCmp.compare_self] at this
    | false =>
      simp only [ih hrest, List.mem_cons]
      constructor
      · exact .inr
      · rintro (h | h)
        · subst h
          simp [ReflCmp.compare_self] at hk
        · exact h

theorem get?_erase [LawfulEqOrd κ] [DecidableEq κ] (m : SortedMap κ ν) (k k' : κ) :
    (m.erase k).get? k' = if k' = k then none else m.get? k' := by
  apply Option.ext
  intro w
  rw [get?_eq_some_iff, erase, List.mem_filter]
  split
  · rename_i h
    subst h
    simp [ReflCmp.compare_self]
  · rename_i h
    have : compare k k' ≠ .eq := fun hc => h (LawfulEqCmp.eq_of_compare hc).symm
    simp [get?_eq_some_iff, this]

theorem mem_insertEntry {k : κ} {v : ν} {e : κ × ν} {l : List (κ × ν)}
    (h : e ∈ insertEntry k v l) : e = (k, v) ∨ e ∈ l := by
  induction l with
  | nil => simpa [insertEntry] using h
  | cons a rest ih =>
    rw [insertEntry] at h
    split at h <;> simp only [List.mem_cons] at h ⊢ <;> grind

theorem insertEntry_ascending [TransOrd κ] {k : κ} {v : ν} {l : List (κ × ν)}
    (h : l.Pairwise fun a b => compare a.1 b.1 = .lt) :
    (insertEntry k v l).Pairwise fun a b => compare a.1 b.1 = .lt := by
  induction l with
  | nil => simp [insertEntry]
  | cons a rest ih =>
    obtain ⟨ha, hrest⟩ := List.pairwise_cons.1 h
    rw [insertEntry]
    split
    · rename_i hk
      refine List.pairwise_cons.2 ⟨fun b hb => ?_, h⟩
      rcases List.mem_cons.1 hb with rfl | hb
      · exact hk
      · exact TransCmp.lt_trans hk (ha b hb)
    · rename_i hk
      exact List.pairwise_cons.2 ⟨fun b hb => TransCmp.lt_of_eq_of_lt hk (ha b hb), hrest⟩
    · rename_i hk
      refine List.pairwise_cons.2 ⟨fun b hb => ?_, ih hrest⟩
      rcases mem_insertEntry hb with rfl | hb
      · exact OrientedCmp.lt_of_gt hk
      · exact ha b hb

variable [TransOrd κ]

/-- Puts a value under a key, over the value that was there. -/
def insert (m : SortedMap κ ν) (k : κ) (v : ν) : SortedMap κ ν :=
  ⟨insertEntry k v m.entries, insertEntry_ascending m.ascending⟩

/-- Puts entries one after another; of one key the last stays. -/
def insertAll (m : SortedMap κ ν) (l : List (κ × ν)) : SortedMap κ ν :=
  l.foldl (fun m e => m.insert e.1 e.2) m

/-- The map of the given entries; of one key the last stays. -/
def ofList (l : List (κ × ν)) : SortedMap κ ν := empty.insertAll l

/-! ## Look-ups -/

theorem mem_insertEntry_iff [LawfulEqOrd κ] {k : κ} {v : ν} {e : κ × ν} {l : List (κ × ν)}
    (hl : l.Pairwise fun a b => compare a.1 b.1 = .lt) :
    e ∈ insertEntry k v l ↔ e = (k, v) ∨ e.1 ≠ k ∧ e ∈ l := by
  induction l with
  | nil => simp [insertEntry]
  | cons a rest ih =>
    obtain ⟨ha, hrest⟩ := List.pairwise_cons.1 hl
    rw [insertEntry]
    split
    · rename_i hk
      have hne : ∀ b ∈ a :: rest, b.1 ≠ k := by
        intro b hb hbk
        have hkb : compare k b.1 = .lt := by
          rcases List.mem_cons.1 hb with rfl | hb
          · exact hk
          · exact TransCmp.lt_trans hk (ha b hb)
        simp [hbk, ReflCmp.compare_self] at hkb
      grind
    · rename_i hk
      have hka : k = a.1 := LawfulEqCmp.eq_of_compare hk
      have hne : ∀ b ∈ rest, b.1 ≠ k := by
        intro b hb hbk
        have := ha b hb
        simp [hbk, hka, ReflCmp.compare_self] at this
      grind
    · rename_i hk
      have hne : a.1 ≠ k := by
        intro h
        simp [h, ReflCmp.compare_self] at hk
      have := ih hrest
      grind

theorem get?_insert [LawfulEqOrd κ] [DecidableEq κ] (m : SortedMap κ ν) (k k' : κ) (v : ν) :
    (m.insert k v).get? k' = if k' = k then some v else m.get? k' := by
  apply Option.ext
  intro w
  rw [get?_eq_some_iff, insert, mem_insertEntry_iff m.ascending]
  split
  · rename_i h
    subst h
    simp [eq_comm]
  · rename_i h
    simp [h, get?_eq_some_iff]

/-- Ascending lists with the same members are the same list. -/
theorem eq_of_mem_iff {l l' : List (κ × ν)} (hl : l.Pairwise fun a b => compare a.1 b.1 = .lt)
    (hl' : l'.Pairwise fun a b => compare a.1 b.1 = .lt) (h : ∀ e, e ∈ l ↔ e ∈ l') : l = l' := by
  induction l generalizing l' with
  | nil =>
    cases l' with
    | nil => rfl
    | cons b _ => simpa using (h b).2 (by simp)
  | cons a rest ih =>
    cases l' with
    | nil => simpa using (h a).1 (by simp)
    | cons b rest' =>
      obtain ⟨ha, hrest⟩ := List.pairwise_cons.1 hl
      obtain ⟨hb, hrest'⟩ := List.pairwise_cons.1 hl'
      have hab : a = b := by
        rcases List.mem_cons.1 ((h a).1 (by simp)) with h1 | h1
        · exact h1
        · rcases List.mem_cons.1 ((h b).2 (by simp)) with h2 | h2
          · exact h2.symm
          · have := TransCmp.lt_trans (ha b h2) (hb a h1)
            simp [ReflCmp.compare_self] at this
      subst hab
      refine congrArg _ (ih hrest hrest' fun e => ?_)
      have hne : ∀ t : List (κ × ν), (∀ b ∈ t, compare a.1 b.1 = .lt) → a ∉ t := by
        intro t ht hmem
        have := ht a hmem
        simp [ReflCmp.compare_self] at this
      have hx := h e
      have h1 := hne _ ha
      have h2 := hne _ hb
      simp only [List.mem_cons] at hx
      constructor
      · intro he
        rcases hx.1 (.inr he) with rfl | h'
        · exact absurd he h1
        · exact h'
      · intro he
        rcases hx.2 (.inr he) with rfl | h'
        · exact absurd he h2
        · exact h'

/-- A map is determined by its look-ups. -/
theorem ext_get? [LawfulEqOrd κ] {m n : SortedMap κ ν} (h : ∀ k, m.get? k = n.get? k) : m = n := by
  have : m.entries = n.entries := eq_of_mem_iff m.ascending n.ascending fun e => by
    rw [← get?_eq_some_iff (m := m) (k := e.1) (v := e.2), h, get?_eq_some_iff]
  cases m
  cases n
  simpa using this

end SortedMap

end ShaderNodes
