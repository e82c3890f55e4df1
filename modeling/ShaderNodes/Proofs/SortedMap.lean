import ShaderNodes.SortedMap
import Mathlib.Data.List.Nodup
import Mathlib.Data.String.Basic

/-!
# Look-ups in maps, continued

* `mem_keys_iff`, `contains_iff_mem_keys`: keys, look-ups and membership say the same.
* `get?_filterMap`: what a look-up finds among the entries that are kept.
* `get?_insertAll_of_mem_iff`: what many insertions do to a look-up.
* `get?_ofList_of_mem_iff`: what a look-up finds in a map made of entries.
* `map_get?_ofList`: what a look-up finds of a view of the values.
* `ofList_perm`, `entries_ofList_perm`: entries of different keys make the same map in any order,
  and it has all.
-/

open Std

namespace ShaderNodes.SortedMap

variable {κ ν : Type} [Ord κ]

section Keys

variable {m : SortedMap κ ν} {k : κ}

theorem exists_get? (h : m.contains k = true) : ∃ v, m.get? k = some v :=
  Option.isSome_iff_exists.1 h

variable [LawfulEqOrd κ]

theorem mem_keys_iff : k ∈ m.keys ↔ ∃ v, m.get? k = some v := by
  simp only [keys, List.mem_map, Prod.exists, exists_and_right, exists_eq_right, get?_eq_some_iff]

theorem contains_iff_mem_keys : m.contains k = true ↔ k ∈ m.keys := by
  rw [contains, Option.isSome_iff_exists, mem_keys_iff]

theorem get?_filterMap {μ : Type} (f : κ → ν → Option μ) (m : SortedMap κ ν) (k : κ) :
    (m.filterMap f).get? k = (m.get? k).bind (f k) := by
  refine Option.ext fun w => ?_
  simp only [get?_eq_some_iff, filterMap, List.mem_filterMap, Option.map_eq_some_iff,
    Option.bind_eq_some_iff, Prod.mk.injEq]
  constructor
  · rintro ⟨e, he, _, hf, rfl, rfl⟩
    exact ⟨e.2, he, hf⟩
  · rintro ⟨v, hv, hf⟩
    exact ⟨(k, v), hv, w, hf, rfl, rfl⟩

end Keys

theorem keys_ascending (m : SortedMap String ν) : m.keys.Pairwise (· < ·) :=
  List.pairwise_map.2 (m.ascending.imp compare_lt_iff_lt.1)

theorem keys_nodup (m : SortedMap String ν) : m.keys.Nodup := m.keys_ascending.imp LT.lt.ne

section Insert

variable [LawfulEqOrd κ] [TransOrd κ] {k : κ} {v : ν}

/-- After many insertions a look-up finds the last entry of the key, or what was there before. Where
entries of one key agree, the last one is any of them. -/
theorem get?_insertAll {l : List (κ × ν)} (m : SortedMap κ ν)
    (hl : ∀ v v', (k, v) ∈ l → (k, v') ∈ l → v = v') :
    (m.insertAll l).get? k = some v ↔
      (k, v) ∈ l ∨ k ∉ l.map (·.1) ∧ m.get? k = some v := by
  classical
  induction l generalizing m with
  | nil => simp [insertAll]
  | cons e l ih =>
    have hcons : m.insertAll (e :: l) = (m.insert e.1 e.2).insertAll l := rfl
    have hmem : k ∈ l.map (·.1) ↔ ∃ w, (k, w) ∈ l := by simp
    rw [hcons, ih _ fun v v' h h' => hl v v' (.tail _ h) (.tail _ h'), get?_insert]
    by_cases hk : k = e.1
    · -- The new entry has the key. It stays, since later entries of the key agree with it.
      subst hk
      have hagree : ∀ w, (e.1, w) ∈ l → w = e.2 := fun w hw => hl w e.2 (.tail _ hw) (.head _)
      rw [if_pos rfl, List.mem_cons, List.map_cons, List.mem_cons, hmem]
      constructor
      · rintro (h | ⟨-, h⟩)
        · exact .inl (.inr h)
        · exact .inl (.inl (by rw [← Option.some.inj h]))
      · rintro ((h | h) | ⟨hn, -⟩)
        · obtain rfl : v = e.2 := congrArg Prod.snd h
          by_cases hw : ∃ w, (e.1, w) ∈ l
          · obtain ⟨w, hw⟩ := hw
            exact .inl (hagree w hw ▸ hw)
          · exact .inr ⟨hw, rfl⟩
        · exact .inl h
        · exact absurd (.inl rfl) hn
    · have hne : (k, v) ≠ e := fun h => hk (congrArg Prod.fst h)
      rw [if_neg hk, List.mem_cons, List.map_cons, List.mem_cons, or_iff_right hne,
        or_iff_right hk]

/-- If the entries of a key are what `found` says, that is what a look-up finds, before what was
there already. -/
theorem get?_insertAll_of_mem_iff {l : List (κ × ν)} (m : SortedMap κ ν) {found : Option ν}
    (hl : ∀ v, (k, v) ∈ l ↔ found = some v) : (m.insertAll l).get? k = found.or (m.get? k) := by
  have hagree : ∀ v v', (k, v) ∈ l → (k, v') ∈ l → v = v' := fun v v' hv hv' =>
    Option.some.inj (((hl v).1 hv).symm.trans ((hl v').1 hv'))
  have hkey : k ∉ l.map (·.1) ↔ found = none := by
    rw [Option.eq_none_iff_forall_ne_some]
    simp [hl]
  refine Option.ext fun v => ?_
  rw [get?_insertAll m hagree, hl, hkey, Option.or_eq_some_iff]

theorem get?_ofList_of_mem_iff {l : List (κ × ν)} {found : Option ν}
    (hl : ∀ v, (k, v) ∈ l ↔ found = some v) : (ofList l).get? k = found := by
  rw [ofList, get?_insertAll_of_mem_iff empty hl, get?_empty, Option.or_none]

/-- What is found after insertions was inserted, or found before. -/
theorem mem_of_get?_insertAll {l : List (κ × ν)} {m : SortedMap κ ν}
    (h : (m.insertAll l).get? k = some v) : (k, v) ∈ l ∨ m.get? k = some v := by
  classical
  induction l generalizing m with
  | nil => exact .inr h
  | cons e l ih =>
    rcases ih h with hmem | hget
    · exact .inl (.tail _ hmem)
    · rw [get?_insert] at hget
      split at hget
      · rename_i hk
        obtain rfl := Option.some.inj hget
        exact .inl (hk ▸ .head _)
      · exact .inr hget

theorem mem_of_get?_ofList {l : List (κ × ν)} (h : (ofList l).get? k = some v) : (k, v) ∈ l :=
  (mem_of_get?_insertAll h).resolve_right nofun

/-- A view of the values may be taken before the insertions as well as after them. -/
theorem map_get?_insertAll {μ : Type} (view : ν → μ) {l : List (κ × ν)} {m : SortedMap κ ν}
    {m' : SortedMap κ μ} (h : ∀ k, (m.get? k).map view = m'.get? k) (k : κ) :
    ((m.insertAll l).get? k).map view = (m'.insertAll (l.map fun e => (e.1, view e.2))).get? k := by
  classical
  induction l generalizing m m' with
  | nil => exact h k
  | cons e l ih =>
    have hinsert : ∀ k, ((m.insert e.1 e.2).get? k).map view =
        (m'.insert e.1 (view e.2)).get? k := by
      intro k
      rw [get?_insert, get?_insert]
      split
      · rfl
      · exact h k
    exact ih hinsert

theorem map_get?_ofList {μ : Type} (view : ν → μ) (l : List (κ × ν)) (k : κ) :
    ((ofList l).get? k).map view = (ofList (l.map fun e => (e.1, view e.2))).get? k :=
  map_get?_insertAll view (fun _ => rfl) k

/-- A list of different keys is what its map holds. -/
theorem get?_ofList_eq_some_iff {l : List (κ × ν)} (hl : (l.map (·.1)).Nodup) :
    (ofList l).get? k = some v ↔ (k, v) ∈ l := by
  refine ⟨mem_of_get?_ofList, fun hv => get?_ofList_of_mem_iff fun w =>
    ⟨fun hw => ?_, fun hw => ?_⟩⟩
  · exact congrArg some (Prod.mk.inj (List.inj_on_of_nodup_map hl hv hw rfl)).2
  · exact Option.some.inj hw ▸ hv

/-- Lists of different keys may be permuted. -/
theorem ofList_perm {l l' : List (κ × ν)} (hl : (l.map (·.1)).Nodup) (h : l.Perm l') :
    ofList l = ofList l' := by
  have hl' : (l'.map (·.1)).Nodup := (h.map _).nodup_iff.1 hl
  refine ext_get? fun k => Option.ext fun v => ?_
  rw [get?_ofList_eq_some_iff hl, get?_ofList_eq_some_iff hl', h.mem_iff]

end Insert

theorem entries_ofList_perm {l : List (String × ν)} (hl : (l.map (·.1)).Nodup) :
    (ofList l).entries.Perm l := by
  refine (List.perm_ext_iff_of_nodup (ofList l).keys_nodup.of_map hl.of_map).2 fun e => ?_
  rw [← get?_eq_some_iff, get?_ofList_eq_some_iff hl]

theorem size_ofList {l : List (String × ν)} (hl : (l.map (·.1)).Nodup) :
    (ofList l).size = l.length :=
  (entries_ofList_perm hl).length_eq

end ShaderNodes.SortedMap
