import Mathlib.Data.List.Nodup
import ShaderNodes.Draft.Basic

/-!
# Drafts after edits

An edit adds to one part of a draft and leaves the others as they are. So each part of a draft after
a run of edits is told by the edits that are about it, whatever came between them.

* `mem_foldl_joinNew_iff`, `map_fst_foldl_joinNew`: of entries of one name the first is kept, and
  the names stand in the order in which they came first.
* `Draft.run_eq`: a draft after edits, part by part. `Draft.statements_run`,
  `Draft.uniforms_run_eq`, `Draft.functions_run_eq` and `Draft.isEnabled_run_iff` are read off it.
-/

namespace ShaderNodes

/-! ## What an edit is about -/

namespace Edit

/-- The statement that an edit adds. -/
def statement? : Edit → Option Statement
  | .statement s => some s
  | _ => none

/-- The uniform that an edit binds. -/
def uniform? : Edit → Option (Name × Binding)
  | .uniform name binding => some (name, binding)
  | _ => none

/-- The function that an edit adds. -/
def function? : Edit → Option (Name × String)
  | .function name source => some (name, source)
  | _ => none

/-- The feature that an edit turns on. -/
def feature? : Edit → Option Feature
  | .enable feature => some feature
  | _ => none

variable {edits : List Edit}

theorem mem_functions_iff {name : Name} {source : String} :
    (name, source) ∈ edits.filterMap function? ↔ .function name source ∈ edits := by
  rw [List.mem_filterMap]
  constructor
  · rintro ⟨e, he, heq⟩
    cases e with
    | function name' source' =>
      obtain ⟨rfl, rfl⟩ := Prod.mk.inj (Option.some.inj heq)
      exact he
    | _ => cases heq
  · intro h
    exact ⟨_, h, rfl⟩

theorem mem_features_iff {f : Feature} : f ∈ edits.filterMap feature? ↔ .enable f ∈ edits := by
  rw [List.mem_filterMap]
  constructor
  · rintro ⟨e, he, heq⟩
    cases e with
    | enable f' =>
      obtain rfl := Option.some.inj heq
      exact he
    | _ => cases heq
  · intro h
    exact ⟨_, h, rfl⟩

end Edit

/-! ## Entries of different names -/

section JoinNew

variable {α : Type} {known l : List (Name × α)}

/-- Takes over an entry, unless its name is taken. -/
def joinNew {α : Type} (known : List (Name × α)) (e : Name × α) : List (Name × α) :=
  if known.any (·.1 == e.1) then known else known ++ [e]

theorem joinNew_of_mem {e : Name × α} (h : e.1 ∈ known.map (·.1)) : joinNew known e = known :=
  if_pos (by simpa using h)

theorem joinNew_of_notMem {e : Name × α} (h : e.1 ∉ known.map (·.1)) :
    joinNew known e = known ++ [e] :=
  if_neg (by simpa using h)

theorem foldl_joinNew_toList (known : List (Name × α)) (e? : Option (Name × α)) :
    e?.toList.foldl joinNew known =
      known ++ (e?.filter fun e => !known.any (·.1 == e.1)).toList := by
  cases e? with
  | none => simp
  | some e =>
    simp only [Option.toList_some, List.foldl_cons, List.foldl_nil, joinNew, Option.filter_some]
    cases known.any (·.1 == e.1) <;> simp

theorem nodup_joinNew (h : (known.map (·.1)).Nodup) (e : Name × α) :
    ((joinNew known e).map (·.1)).Nodup := by
  by_cases he : e.1 ∈ known.map (·.1)
  · rwa [joinNew_of_mem he]
  · rw [joinNew_of_notMem he, List.map_append]
    exact h.append (List.nodup_singleton e.1) (List.disjoint_singleton.2 he)

/-- Of entries of one name only the first is taken over. -/
theorem nodup_foldl_joinNew (l : List (Name × α)) {known : List (Name × α)}
    (h : (known.map (·.1)).Nodup) : ((l.foldl joinNew known).map (·.1)).Nodup := by
  induction l generalizing known with
  | nil => exact h
  | cons e l ih => exact ih (nodup_joinNew h e)

/-- The names of entries that are taken over one after another, each name once. -/
theorem map_fst_foldl_joinNew (l known : List (Name × α)) :
    (l.foldl joinNew known).map (·.1) =
      known.map (·.1) ++ ((l.map (·.1)).filter fun x => x ∉ known.map (·.1)).eraseDups := by
  induction l generalizing known with
  | nil => simp
  | cons e l ih =>
    rw [List.foldl_cons, ih, List.map_cons]
    by_cases hknown : e.1 ∈ known.map (·.1)
    · rw [joinNew_of_mem hknown, List.filter_cons_of_neg (by simpa using hknown)]
    · -- What comes after the new name is neither known nor the name itself.
      have hfilter : (l.map (·.1)).filter (fun x => x ∉ (known ++ [e]).map (·.1)) =
          ((l.map (·.1)).filter fun x => x ∉ known.map (·.1)).filter fun x => !x == e.1 := by
        rw [List.filter_filter]
        refine List.filter_congr fun x _ => ?_
        simp only [List.map_append, List.mem_append, List.map_cons, List.map_nil,
          List.mem_singleton, not_or]
        by_cases hx : x = e.1 <;> simp [hx]
      rw [joinNew_of_notMem hknown, hfilter, List.filter_cons_of_pos (by simpa using hknown),
        List.eraseDups_cons]
      simp

/-- An entry is there if it was, or if its name was free and it is the first of its name. -/
theorem mem_foldl_joinNew_iff {e : Name × α} :
    e ∈ l.foldl joinNew known ↔
      e ∈ known ∨ e.1 ∉ known.map (·.1) ∧ l.find? (·.1 == e.1) = some e := by
  induction l generalizing known with
  | nil => simp
  | cons d l ih =>
    rw [List.foldl_cons, ih]
    by_cases hd : d.1 ∈ known.map (·.1)
    · rw [joinNew_of_mem hd]
      refine or_congr_right (and_congr_right fun he => ?_)
      -- The name of `d` is taken, so `d` is not the entry looked for.
      have hne : (d.1 == e.1) = false := by
        rw [beq_eq_false_iff_ne]
        rintro heq
        exact he (heq ▸ hd)
      rw [List.find?_cons_of_neg (by simp [hne])]
    · rw [joinNew_of_notMem hd, List.mem_append, List.mem_singleton, List.map_append,
        List.mem_append]
      by_cases hde : d.1 = e.1
      · rw [List.find?_cons_of_pos (by simp [hde])]
        simp only [List.map_cons, List.map_nil, List.mem_singleton, hde, or_true, not_true,
          false_and, or_false, Option.some.injEq, eq_comm (a := d)]
        rw [hde] at hd
        simp [hd]
      · have hne : e ≠ d := fun h => hde (h ▸ rfl)
        have hsingle : e.1 ∉ [d].map (·.1) := by simpa using Ne.symm hde
        rw [List.find?_cons_of_neg (by simpa using hde), or_iff_left hne, or_iff_left hsingle]

theorem mem_of_mem_foldl_joinNew {e : Name × α} (h : e ∈ l.foldl joinNew known) :
    e ∈ known ∨ e ∈ l :=
  (mem_foldl_joinNew_iff.1 h).imp_right fun h => List.mem_of_find?_eq_some h.2

/-- Each name that was given has an entry. -/
theorem exists_mem_foldl_joinNew (known : List (Name × α)) {e : Name × α} (h : e ∈ l) :
    ∃ e' ∈ l.foldl joinNew known, e'.1 = e.1 := by
  have hmem : e.1 ∈ (l.foldl joinNew known).map (·.1) := by
    rw [map_fst_foldl_joinNew, List.mem_append, List.mem_eraseDups, List.mem_filter,
      decide_eq_true_eq]
    by_cases he : e.1 ∈ known.map (·.1)
    · exact .inl he
    · exact .inr ⟨List.mem_map_of_mem h, he⟩
  exact List.mem_map.1 hmem

/-- Entries of different names are all taken over. -/
theorem foldl_joinNew_of_nodup (h : (known.map (·.1) ++ l.map (·.1)).Nodup) :
    l.foldl joinNew known = known ++ l := by
  induction l generalizing known with
  | nil => simp
  | cons e l ih =>
    have he : e.1 ∉ known.map (·.1) :=
      fun hmem => (List.nodup_append.1 h).2.2 _ hmem _ (.head _) rfl
    rw [List.foldl_cons, joinNew_of_notMem he, ih (by simpa using h), List.append_assoc]
    rfl

end JoinNew

/-! ## Features -/

namespace Features

theorem ext_isEnabled {fs fs' : Features} (h : ∀ f, fs.isEnabled f = fs'.isEnabled f) :
    fs = fs' := by
  cases fs
  cases fs'
  congr
  exacts [h .normal, h .uv, h .position, h .light, h .normalMap, h .fresnel]

theorem isEnabled_foldl_enable {l : List Feature} {fs : Features} {f : Feature} :
    (l.foldl enable fs).isEnabled f = true ↔ fs.isEnabled f = true ∨ f ∈ l := by
  induction l generalizing fs with
  | nil => simp
  | cons f' l ih =>
    rw [List.foldl_cons, ih, isEnabled_enable, Bool.or_eq_true, beq_iff_eq, List.mem_cons, or_assoc]

end Features

/-! ## Parts of a draft -/

namespace Draft

/-- A draft after one edit. -/
theorem apply_eq (d : Draft) (e : Edit) :
    d.apply e =
      { config := d.config
        statements := d.statements ++ e.statement?.toList
        uniforms := e.uniform?.toList.foldl joinNew d.uniforms
        functions := e.function?.toList.foldl joinNew d.functions
        features := e.feature?.toList.foldl Features.enable d.features } := by
  have hkeep : d = { d with statements := d.statements ++ [] } := by rw [List.append_nil]
  cases e with
  | statement s => rfl
  | uniform name binding =>
    change (if d.hasUniform name then d else _) = { d with
      statements := d.statements ++ []
      uniforms := if d.hasUniform name then d.uniforms else d.uniforms ++ [(name, binding)] }
    split
    · exact hkeep
    · rw [List.append_nil]
  | function name source =>
    change (if d.hasFunction name then d else _) = { d with
      statements := d.statements ++ []
      functions := if d.hasFunction name then d.functions else d.functions ++ [(name, source)] }
    split
    · exact hkeep
    · rw [List.append_nil]
  | enable feature =>
    change { d with features := d.features.enable feature } = { d with
      statements := d.statements ++ []
      features := d.features.enable feature }
    rw [List.append_nil]

/-- A draft after edits: each part by the edits that are about it. -/
theorem run_eq (d : Draft) (edits : List Edit) :
    d.run edits =
      { config := d.config
        statements := d.statements ++ edits.filterMap Edit.statement?
        uniforms := (edits.filterMap Edit.uniform?).foldl joinNew d.uniforms
        functions := (edits.filterMap Edit.function?).foldl joinNew d.functions
        features := (edits.filterMap Edit.feature?).foldl Features.enable d.features } := by
  induction edits generalizing d with
  | nil => simp [run_nil]
  | cons e edits ih =>
    rw [run_cons, ih, apply_eq]
    simp only [List.filterMap_eq_flatMap_toList, List.flatMap_cons, List.foldl_append,
      List.append_assoc]

variable {d : Draft} {edits : List Edit}

theorem config_run (d : Draft) (edits : List Edit) : (d.run edits).config = d.config := by
  rw [run_eq]

theorem statements_run (d : Draft) (edits : List Edit) :
    (d.run edits).statements = d.statements ++ edits.filterMap Edit.statement? := by
  rw [run_eq]

/-- Of uniforms of one name the first stays. -/
theorem uniforms_run_eq (d : Draft) (edits : List Edit) :
    (d.run edits).uniforms = (edits.filterMap Edit.uniform?).foldl joinNew d.uniforms := by
  rw [run_eq]

/-- Of functions of one name the first stays. -/
theorem functions_run_eq (d : Draft) (edits : List Edit) :
    (d.run edits).functions = (edits.filterMap Edit.function?).foldl joinNew d.functions := by
  rw [run_eq]

/-- A feature is on if it was, or if an edit turned it on. -/
theorem isEnabled_run_iff {f : Feature} :
    (d.run edits).features.isEnabled f = true ↔
      d.features.isEnabled f = true ∨ .enable f ∈ edits := by
  rw [run_eq, Features.isEnabled_foldl_enable, Edit.mem_features_iff]

/-- Uniforms of different names are all taken over. -/
theorem uniforms_run (d : Draft)
    (h : (d.uniforms.map (·.1) ++ (edits.filterMap Edit.uniform?).map (·.1)).Nodup) :
    (d.run edits).uniforms = d.uniforms ++ edits.filterMap Edit.uniform? := by
  rw [uniforms_run_eq, foldl_joinNew_of_nodup h]

/-- A function of the draft was there, or one of the edits added it. -/
theorem mem_functions_of_run {name : Name} {source : String}
    (h : (name, source) ∈ (d.run edits).functions) :
    (name, source) ∈ d.functions ∨ .function name source ∈ edits := by
  rw [functions_run_eq] at h
  exact (mem_of_mem_foldl_joinNew h).imp_right Edit.mem_functions_iff.1

/-- A function that was to be added is there, maybe with the source of an earlier one. -/
theorem exists_mem_functions_run {name : Name} {source : String}
    (h : .function name source ∈ edits) : ∃ source', (name, source') ∈ (d.run edits).functions := by
  obtain ⟨f, hf, rfl⟩ := exists_mem_foldl_joinNew d.functions (Edit.mem_functions_iff.2 h)
  rw [functions_run_eq]
  exact ⟨f.2, hf⟩

end Draft

end ShaderNodes
