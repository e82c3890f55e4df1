import Mathlib.Data.List.Induction
import ShaderNodes.Palette
import ShaderNodes.Proofs.Draft.Edits
import ShaderNodes.Proofs.Names
import ShaderNodes.Proofs.SortedMap

/-!
# The kinds of a palette

A palette holds kinds under their own names, and no other kinds than were registered. What is said
of the names in a palette is therefore said of the registered kinds one by one
(`forall_registerAll`).

The categories list the names in the order in which they were registered first. They have a closed
form in terms of all registrations (`grouped`), which a registration keeps (`listUnder_grouped`).

* `get?_registerAll`: of kinds of one name the last registered is found.
* `categories_registerAll`: the categories after any registrations.
* `registered_names_listed_once`: the kinds and the categories agree on the names.
-/

namespace ShaderNodes.Palette

open Text

theorem get?_register (p : Palette) (category : String) (kind : Kind) (key : Name) :
    (p.register category kind).get? key = if key = kind.name then some kind else p.get? key :=
  SortedMap.get?_insert _ _ _ _

/-- What holds of each registered kind under its own name holds of all kinds of the palette. -/
theorem forall_registerAll {P : Name → Kind → Prop} {kinds : List (String × Kind)} {p : Palette}
    (hp : ∀ key kind, p.get? key = some kind → P key kind)
    (hkinds : ∀ k ∈ kinds, P k.2.name k.2) :
    ∀ key kind, (p.registerAll kinds).get? key = some kind → P key kind := by
  induction kinds generalizing p with
  | nil => exact hp
  | cons k kinds ih =>
    refine ih (fun key kind hget => ?_) fun k' hk' => hkinds k' (.tail _ hk')
    rw [get?_register] at hget
    split at hget
    · rename_i hkey
      obtain rfl := Option.some.inj hget
      exact hkey ▸ hkinds k (.head _)
    · exact hp key kind hget

/-- What holds of all kinds that come with the library holds of the standard palette. -/
theorem forall_standard {P : Name → Kind → Prop} (hbuiltins : ∀ k ∈ builtins, P k.2.name k.2)
    (hcurves : ∀ f ∈ ToneMapping.all, P f.name (.function f)) :
    ∀ key kind, standard.get? key = some kind → P key kind := by
  refine forall_registerAll nofun fun k hk => ?_
  rcases List.mem_append.1 hk with hk | hk
  · exact hbuiltins k hk
  · obtain ⟨f, hf, rfl⟩ := List.mem_map.1 hk
    exact hcurves f hf

/-- Each kind stands under its own name. -/
def Named (p : Palette) : Prop := ∀ key kind, p.get? key = some kind → kind.name = key

theorem named_registerAll (kinds : List (String × Kind)) : (empty.registerAll kinds).Named :=
  forall_registerAll nofun fun _ _ => rfl

theorem named_standard : standard.Named := named_registerAll _

/-- No kind has an underscore in its name. -/
def UnderscoreFree (p : Palette) : Prop :=
  ∀ key kind, p.get? key = some kind → '_' ∉ kind.name.toList

theorem underscoreFree_standard : standard.UnderscoreFree :=
  forall_standard (by decide) (by decide +kernel)

/-- No name of a kind goes on after that of another with an underscore, both in lower case. -/
def Separate (p : Palette) : Prop :=
  ∀ key kind key' kind', p.get? key = some kind → p.get? key' = some kind' →
    ¬ Extends kind.name kind'.name

theorem UnderscoreFree.separate {p : Palette} (h : p.UnderscoreFree) : p.Separate :=
  fun _ _ key' kind' _ hkind' => not_extends_of_underscore_not_mem (h key' kind' hkind')

/-- The names of all kinds are identifiers. -/
def Identified (p : Palette) : Prop :=
  ∀ key kind, p.get? key = some kind → isIdentifier kind.name = true

theorem identified_standard : standard.Identified :=
  forall_standard (by decide) (by decide +kernel)

/-! ## Kinds of one name -/

variable {category : String} {name : Name} {kinds : List (String × Kind)}

theorem registerAll_append (p : Palette) (kinds kinds' : List (String × Kind)) :
    p.registerAll (kinds ++ kinds') = (p.registerAll kinds).registerAll kinds' := List.foldl_append

/-- Of kinds of one name the palette has the one that was registered last. -/
theorem get?_registerAll (kinds : List (String × Kind)) (name : Name) :
    (empty.registerAll kinds).get? name = (kinds.reverse.find? (·.2.name == name)).map (·.2) := by
  induction kinds using List.reverseRecOn with
  | nil => rfl
  | append_singleton kinds k ih =>
    rw [registerAll_append, List.reverse_append, List.reverse_singleton, List.singleton_append]
    refine (get?_register _ k.1 k.2 name).trans ?_
    by_cases hname : k.2.name = name
    · rw [if_pos hname.symm, List.find?_cons_of_pos (by simpa using hname), Option.map_some]
    · rw [if_neg (Ne.symm hname), List.find?_cons_of_neg (by simpa using hname), ih]

theorem contains_registerAll_iff :
    (empty.registerAll kinds).contains name = true ↔ name ∈ kinds.map (·.2.name) := by
  change ((empty.registerAll kinds).get? name).isSome = true ↔ _
  rw [get?_registerAll, Option.isSome_map, List.find?_isSome]
  simp

/-! ## Names under categories -/

theorem nodup_eraseDups {α : Type} [DecidableEq α] (l : List α) : l.eraseDups.Nodup := by
  induction hlength : l.length using Nat.strong_induction_on generalizing l with
  | _ n ih =>
    cases l with
    | nil => exact List.nodup_nil
    | cons a l =>
      have hshorter := List.length_filter_le (fun b => !b == a) l
      rw [List.length_cons] at hlength
      rw [List.eraseDups_cons, List.nodup_cons, List.mem_eraseDups, List.mem_filter]
      exact ⟨by simp, ih _ (by omega) _ rfl⟩

/-- Names under their categories, both in the order in which they come first. -/
def grouped (l : List (Name × String)) : List (String × List Name) :=
  (l.map (·.2)).eraseDups.map fun c => (c, (l.filter (·.2 == c)).map (·.1))

/-- A name is listed at the end of its category, or in a new category at the end. -/
theorem listUnder_map {cs : List String} (hcs : cs.Nodup) (f : String → List Name) :
    listUnder category name (cs.map fun c => (c, f c)) =
      if category ∈ cs then cs.map fun c => (c, if c = category then f c ++ [name] else f c)
      else cs.map (fun c => (c, f c)) ++ [(category, [name])] := by
  induction cs with
  | nil => rfl
  | cons c cs ih =>
    obtain ⟨hc, hcs⟩ := List.nodup_cons.1 hcs
    rw [List.map_cons, listUnder]
    by_cases heq : c = category
    · subst heq
      have hrest : cs.map (fun c' => (c', f c')) =
          cs.map fun c' => (c', if c' = c then f c' ++ [name] else f c') :=
        List.map_congr_left fun c' hc' => by rw [if_neg (ne_of_mem_of_not_mem hc' hc)]
      rw [if_pos rfl, if_pos (.head _), List.map_cons, if_pos rfl, hrest]
    · have hmem : category ∈ c :: cs ↔ category ∈ cs := by
        rw [List.mem_cons, or_iff_right (Ne.symm heq)]
      simp only [heq, if_false, ih hcs, hmem, List.map_cons]
      split <;> rfl

/-- Listing one more name keeps the form. -/
theorem listUnder_grouped (l : List (Name × String)) :
    listUnder category name (grouped l) = grouped (l ++ [(name, category)]) := by
  have hgroup : ∀ c, ((l ++ [(name, category)]).filter (·.2 == c)).map (·.1) =
      if c = category then (l.filter (·.2 == c)).map (·.1) ++ [name]
        else (l.filter (·.2 == c)).map (·.1) := by
    intro c
    rw [List.filter_append, List.map_append]
    split
    · rename_i hc
      simp [hc]
    · rename_i hc
      simp [Ne.symm hc]
  unfold grouped
  simp only [hgroup]
  rw [listUnder_map (nodup_eraseDups _), List.map_append, List.eraseDups_append]
  by_cases hold : category ∈ l.map (·.2)
  · have hnone : ([(name, category)].map (·.2)).removeAll (l.map (·.2)) = [] := by
      simpa [List.removeAll] using hold
    rw [if_pos (List.mem_eraseDups.2 hold), hnone, List.eraseDups_nil, List.append_nil]
  · have hnew : ([(name, category)].map (·.2)).removeAll (l.map (·.2)) = [category] := by
      simpa [List.removeAll] using hold
    have hempty : l.filter (·.2 == category) = [] := by
      refine List.filter_eq_nil_iff.2 fun e he heq => hold ?_
      exact List.mem_map.2 ⟨e, he, beq_iff_eq.1 heq⟩
    rw [if_neg (mt List.mem_eraseDups.1 hold), hnew, List.map_append]
    congr 1
    · refine List.map_congr_left fun c hc => ?_
      rw [if_neg (ne_of_mem_of_not_mem (List.mem_eraseDups.1 hc) hold)]
    · simp [List.eraseDups_cons, hempty]

variable {l : List (Name × String)}

theorem mem_flatMap_grouped_iff : name ∈ (grouped l).flatMap (·.2) ↔ name ∈ l.map (·.1) := by
  simp only [grouped, List.flatMap_map, List.mem_flatMap, List.mem_eraseDups, List.mem_map,
    List.mem_filter, beq_iff_eq]
  constructor
  · rintro ⟨c, -, e, ⟨he, -⟩, rfl⟩
    exact ⟨e, he, rfl⟩
  · rintro ⟨e, he, rfl⟩
    exact ⟨e.2, ⟨e, he, rfl⟩, e, ⟨he, rfl⟩, rfl⟩

/-- Different names stand in one category each, and once. -/
theorem flatMap_grouped_nodup (hl : (l.map (·.1)).Nodup) : ((grouped l).flatMap (·.2)).Nodup := by
  rw [grouped, List.flatMap_map, List.nodup_flatMap]
  refine ⟨fun c _ => hl.sublist (List.filter_sublist.map _), ?_⟩
  refine (nodup_eraseDups _).imp fun {c c'} hne n hn hn' => ?_
  obtain ⟨e, he, rfl⟩ := List.mem_map.1 hn
  obtain ⟨e', he', hname⟩ := List.mem_map.1 hn'
  rw [List.mem_filter, beq_iff_eq] at he he'
  obtain rfl := List.inj_on_of_nodup_map hl he'.1 he.1 hname
  exact hne (he.2.symm.trans he'.2)

theorem ne_nil_of_mem_grouped {c : String × List Name} (h : c ∈ grouped l) : c.2 ≠ [] := by
  obtain ⟨category, hcategory, rfl⟩ := List.mem_map.1 h
  obtain ⟨e, he, rfl⟩ := List.mem_map.1 (List.mem_eraseDups.1 hcategory)
  exact List.ne_nil_of_mem (List.mem_map_of_mem (List.mem_filter.2 ⟨he, beq_self_eq_true e.2⟩))

theorem map_fst_grouped (l : List (Name × String)) :
    (grouped l).map (·.1) = (l.map (·.2)).eraseDups := by
  rw [grouped, List.map_map]
  exact List.map_id _

/-! ## First registrations -/

/-- The category under which a name was registered first. -/
def firstCategory? (kinds : List (String × Kind)) (name : Name) : Option String :=
  (kinds.find? (·.2.name == name)).map (·.1)

/-- The names, in the order in which they were registered first, each with its category then. -/
def listing (kinds : List (String × Kind)) : List (Name × String) :=
  (kinds.map fun k => (k.2.name, k.1)).foldl joinNew []

theorem map_fst_listing (kinds : List (String × Kind)) :
    (listing kinds).map (·.1) = (kinds.map (·.2.name)).eraseDups := by
  rw [listing, map_fst_foldl_joinNew, List.map_map]
  simp [Function.comp_def]

theorem firstCategory?_of_mem_listing {e : Name × String} (h : e ∈ listing kinds) :
    firstCategory? kinds e.1 = some e.2 := by
  rw [listing, mem_foldl_joinNew_iff, List.find?_map] at h
  obtain ⟨-, h⟩ := h.resolve_left List.not_mem_nil
  obtain ⟨k, hk, rfl⟩ := Option.map_eq_some_iff.1 h
  exact Option.map_eq_some_iff.2 ⟨k, hk, rfl⟩

/-- The closed form, in terms of the names alone. -/
theorem grouped_listing (kinds : List (String × Kind)) :
    let names := (kinds.map (·.2.name)).eraseDups
    grouped (listing kinds) = (names.filterMap (firstCategory? kinds)).eraseDups.map fun c =>
      (c, names.filter fun name => firstCategory? kinds name == some c) := by
  intro names
  have hnames : (listing kinds).map (·.1) = names := map_fst_listing kinds
  have hcategories : names.filterMap (firstCategory? kinds) = (listing kinds).map (·.2) := by
    rw [← hnames, List.filterMap_map]
    exact (List.filterMap_congr fun e => firstCategory?_of_mem_listing).trans
      (congrFun List.filterMap_eq_map' _)
  have hlisted : ∀ c, names.filter (fun name => firstCategory? kinds name == some c) =
      ((listing kinds).filter (·.2 == c)).map (·.1) := by
    intro c
    rw [← hnames, List.filter_map]
    refine congrArg _ (List.filter_congr fun e he => ?_)
    rw [Function.comp_apply, firstCategory?_of_mem_listing he]
    rfl
  simp only [hcategories, hlisted, grouped]

/-- A name that is registered again stays where it is; a new one is listed under its category. -/
theorem categories_registerAll (kinds : List (String × Kind)) :
    (empty.registerAll kinds).categories = grouped (listing kinds) := by
  induction kinds using List.reverseRecOn with
  | nil => rfl
  | append_singleton kinds k ih =>
    have hlisting : listing (kinds ++ [k]) = joinNew (listing kinds) (k.2.name, k.1) := by
      rw [listing, List.map_append, List.foldl_append]
      rfl
    have hknown : (empty.registerAll kinds).contains k.2.name = true ↔
        k.2.name ∈ (listing kinds).map (·.1) := by
      rw [contains_registerAll_iff, map_fst_listing, List.mem_eraseDups]
    rw [registerAll_append, hlisting]
    change (if (empty.registerAll kinds).contains k.2.name then _ else _) = _
    by_cases hk : k.2.name ∈ (listing kinds).map (·.1)
    · rw [if_pos (hknown.2 hk), joinNew_of_mem hk, ih]
    · rw [if_neg (mt hknown.1 hk), joinNew_of_notMem hk, ih, listUnder_grouped]

/-! ## Main result -/

/-- After any registrations, the names of the kinds are those in the categories, where each of them
stands once. No category is empty, and no two are of one name. Each kind stands under its own name
and is the one that was registered last, while its name stands in the category of the first
registration. The names of a category, and the categories, are in the order of these first
registrations. -/
theorem registered_names_listed_once (kinds : List (String × Kind)) :
    let p := empty.registerAll kinds
    let names := (kinds.map (·.2.name)).eraseDups
    (∀ name, p.contains name = true ↔ ∃ c ∈ p.categories, name ∈ c.2) ∧
      (p.categories.flatMap (·.2)).Perm p.names ∧ (p.categories.flatMap (·.2)).Nodup ∧
      (p.categories.map (·.1)).Nodup ∧ (∀ c ∈ p.categories, c.2 ≠ []) ∧
      (∀ name kind, p.get? name = some kind → kind.name = name) ∧
      (∀ name, p.get? name = (kinds.reverse.find? (·.2.name == name)).map (·.2)) ∧
      p.categories = (names.filterMap (firstCategory? kinds)).eraseDups.map fun c =>
        (c, names.filter fun name => firstCategory? kinds name == some c) := by
  intro p names
  have hcategories : p.categories = grouped (listing kinds) := categories_registerAll kinds
  have hlisted : ∀ name, name ∈ p.categories.flatMap (·.2) ↔ p.contains name = true := by
    intro name
    rw [hcategories, mem_flatMap_grouped_iff, map_fst_listing, List.mem_eraseDups,
      contains_registerAll_iff]
  have hnodup : (p.categories.flatMap (·.2)).Nodup := by
    rw [hcategories]
    exact flatMap_grouped_nodup (nodup_foldl_joinNew _ List.nodup_nil)
  refine ⟨fun name => ?_, ?_, hnodup, ?_, fun c hc => ?_, named_registerAll kinds,
    get?_registerAll kinds, hcategories.trans (grouped_listing kinds)⟩
  · rw [← hlisted, List.mem_flatMap]
  · refine (List.perm_ext_iff_of_nodup hnodup p.kinds.keys_nodup).2 fun name => ?_
    rw [hlisted]
    exact SortedMap.contains_iff_mem_keys
  · rw [hcategories, map_fst_grouped]
    exact nodup_eraseDups _
  · exact ne_nil_of_mem_grouped (hcategories ▸ hc)

/-- Two kinds that are registered again under other categories, one of them with another kind of its
name. -/
def moved : List (String × Kind) :=
  [("Math", .operator .add), ("Input", .geometry), ("Math", .operator .dot),
    ("Other", .function ⟨.float, "Add", [], "float Add() \x7b return 1.0; \x7d"⟩),
    ("Input", .operator .dot)]

theorem registered_names_listed_once_moved :
    let p := empty.registerAll moved
    p.names = ["Add", "Dot", "Geometry"] ∧
      p.categories = [("Math", ["Add", "Dot"]), ("Input", ["Geometry"])] ∧
      p.get? "Add" = some (.function ⟨.float, "Add", [], "float Add() \x7b return 1.0; \x7d"⟩) ∧
      (p.categories.flatMap (·.2)).Perm p.names := by
  intro p
  obtain ⟨-, hperm, -, -, -, -, hget, hcategories⟩ := registered_names_listed_once moved
  exact ⟨by decide, hcategories.trans (by decide), (hget "Add").trans rfl, hperm⟩

end ShaderNodes.Palette
