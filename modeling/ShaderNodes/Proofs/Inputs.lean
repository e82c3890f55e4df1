import Mathlib.Data.List.FinRange
import ShaderNodes.Proofs.Kind.Evaluate

/-!
# Two ways to gather inputs

Operators gather their inputs through a template, whatever the types. Calls and shading models
gather theirs with the types they need. The first way collects values and absent slots in one pass;
the second looks for absent slots first, and then takes the values one by one.

* `Inputs.exists_gather`, `Inputs.gather_of_absent`: one pass finds a value for each slot, or all
  slots without one.
* `Inputs.typed_eq_ok_iff`, `Inputs.typed_of_mismatch`: values are taken up to the first of another
  type.
* `Inputs.resolve_and_require_agree`: where slots are absent, both ways report the same, and where
  none is, they find the same values.
-/

namespace ShaderNodes

namespace Inputs

variable {inputs : Inputs}

/-! ## One pass -/

theorem absent_cons_of_none {slot : Name} (h : inputs.get? slot = none) (rest : List Name) :
    inputs.absent (slot :: rest) = slot :: inputs.absent rest := by
  simp [absent, SortedMap.contains, h]

theorem absent_cons_of_some {slot : Name} {v : Value} (h : inputs.get? slot = some v)
    (rest : List Name) : inputs.absent (slot :: rest) = inputs.absent rest := by
  simp [absent, SortedMap.contains, h]

theorem exists_gather {slots : List Name} (h : inputs.absent slots = []) :
    ∃ values, inputs.gather slots = .ok values := by
  induction slots with
  | nil => exact ⟨[], rfl⟩
  | cons slot rest ih =>
    cases hget : inputs.get? slot with
    | none =>
      rw [absent_cons_of_none hget] at h
      cases h
    | some v =>
      rw [absent_cons_of_some hget] at h
      obtain ⟨vs, hvs⟩ := ih h
      exact ⟨v :: vs, by rw [gather, hget, hvs]⟩

theorem gather_of_absent {slots : List Name} (h : inputs.absent slots ≠ []) :
    inputs.gather slots = .error (inputs.absent slots) := by
  induction slots with
  | nil => exact absurd rfl h
  | cons slot rest ih =>
    cases hget : inputs.get? slot with
    | none =>
      rw [absent_cons_of_none hget, gather, hget]
      by_cases hrest : inputs.absent rest = []
      · obtain ⟨vs, hvs⟩ := exists_gather hrest
        rw [hvs, hrest]
      · rw [ih hrest]
    | some v =>
      rw [absent_cons_of_some hget] at h ⊢
      rw [gather, hget, ih h]

/-! ## One by one -/

theorem typed_cons {name : Name} {type : SocketType} {rest : List (Name × SocketType)} {v : Value}
    (h : inputs.get? name = some v) (hfed : ∀ s ∈ (name, type) :: rest, inputs.contains s.1 =
      true) :
    inputs.typed ((name, type) :: rest) hfed =
      if v.type = type then (inputs.typed rest fun s hs => hfed s (.tail _ hs)).map (v :: ·)
      else .error (.invalidType name v.type type) := by
  have hv : inputs.get name (hfed (name, type) (.head _)) = v :=
    Option.some.inj ((get?_eq_some_get _).symm.trans h)
  simp only [typed, hv, Value.expect, bind, Except.bind]
  by_cases htype : v.type = type
  · rw [if_pos htype, if_pos htype]
    cases inputs.typed rest _ <;> rfl
  · rw [if_neg htype, if_neg htype]

theorem typed_eq_ok_iff {sockets : List (Name × SocketType)} {values : List Value}
    {hfed : ∀ s ∈ sockets, inputs.contains s.1 = true} :
    inputs.typed sockets hfed = .ok values ↔
      List.Forall₂ (fun socket v => inputs.get? socket.1 = some v ∧
        v.type = socket.2) sockets values := by
  refine ⟨typed_ok, fun h => ?_⟩
  induction h with
  | nil => rfl
  | @cons socket v rest vs hfits _ ih =>
    obtain ⟨name, type⟩ := socket
    obtain ⟨hget, rfl⟩ := hfits
    rw [typed_cons hget, if_pos rfl, ih]
    rfl

/-- The first value of another type is reported, whatever comes after it. -/
theorem typed_of_mismatch {sockets : List (Name × SocketType)}
    {hfed : ∀ s ∈ sockets, inputs.contains s.1 = true} {i : Nat} {name : Name} {type : SocketType}
    {v : Value} (hsocket : sockets[i]? = some (name, type)) (hget : inputs.get? name = some v)
    (htype : v.type ≠ type)
    (hbefore : ∀ j < i, ∀ socket, sockets[j]? = some socket →
      ∃ w, inputs.get? socket.1 = some w ∧ w.type = socket.2) :
    inputs.typed sockets hfed = .error (.invalidType name v.type type) := by
  induction sockets generalizing i with
  | nil => cases hsocket
  | cons socket rest ih =>
    cases i with
    | zero =>
      obtain rfl : socket = (name, type) := Option.some.inj hsocket
      rw [typed_cons hget, if_neg htype]
    | succ i =>
      obtain ⟨w, hw, hfits⟩ := hbefore 0 (Nat.succ_pos i) socket rfl
      obtain ⟨name', type'⟩ := socket
      rw [typed_cons hw, if_pos hfits, ih hsocket fun j hj => hbefore (j + 1) (Nat.succ_lt_succ hj)]
      rfl

end Inputs

/-! ## What is reported -/

variable {inputs : Inputs} {n : Nat}

theorem Skip.ofAbsent_of_two_le {names : List Name} (h : 2 ≤ names.length) :
    ofAbsent names = some (.missingMany .input names) := by
  obtain _ | ⟨_, _ | _⟩ := names
  · simp at h
  · simp at h
  · rfl

theorem Template.exists_resolve {t : Template n} {vs : List Value}
    (h : inputs.gather t.slots.toList = .ok vs) :
    ∃ values : Vector Value n, t.resolve inputs = .ok values ∧ values.toList = vs := by
  unfold resolve
  split
  · rename_i vs' hgather
    obtain rfl : vs = vs' := Except.ok.inj (h.symm.trans hgather)
    exact ⟨_, rfl, rfl⟩
  · rename_i hgather
    cases h.symm.trans hgather
  · rename_i hgather
    cases h.symm.trans hgather

theorem Template.resolve_of_absent {t : Template n} {skip : Skip}
    (h : Skip.ofAbsent (inputs.absent t.slots.toList) = some skip) :
    t.resolve inputs = .error skip := by
  have hne : inputs.absent t.slots.toList ≠ [] := by
    intro hnil
    rw [hnil] at h
    cases h
  have habsent := Inputs.gather_of_absent hne
  unfold resolve
  split
  · rename_i hgather
    cases habsent.symm.trans hgather
  · rename_i hgather
    rw [Except.error.inj (habsent.symm.trans hgather)] at h
    cases h
    rfl
  · rename_i names hmany hgather
    rw [Except.error.inj (habsent.symm.trans hgather)] at h hne
    have htwo : 2 ≤ names.length := by
      obtain _ | ⟨name, _ | _⟩ := names
      · exact absurd rfl hne
      · exact (hmany name rfl).elim
      · simp
    rw [Skip.ofAbsent_of_two_le htwo] at h
    rw [Option.some.inj h]

namespace Inputs

/-! ## By position -/

/-- The positions of the slots without a value. -/
def absentAt (inputs : Inputs) (slots : Vector Name n) : List (Fin n) :=
  (List.finRange n).filter fun i => (inputs.get? slots[i]).isNone

theorem map_absentAt (inputs : Inputs) (slots : Vector Name n) :
    (inputs.absentAt slots).map (slots[·]) = inputs.absent slots.toList := by
  have hslots : (List.finRange n).map (fun i => slots[i]) = slots.toList :=
    List.ext_getElem (by simp) (by simp)
  rw [absent, ← hslots, List.filter_map]
  refine congrArg (List.map _) (List.filter_congr fun i _ => ?_)
  simp [SortedMap.contains]

theorem forall₂_toList_iff {α β : Type} {R : α → β → Prop} {xs : Vector α n} {ys : Vector β n} :
    List.Forall₂ R xs.toList ys.toList ↔ ∀ i : Fin n, R xs[i] ys[i] := by
  rw [List.forall₂_iff_get]
  simp [Fin.forall_iff]

theorem map_fst_zip (slots : Vector Name n) (types : Vector SocketType n) :
    (slots.zip types).toList.map (·.1) = slots.toList := by
  rw [Vector.toList_zip]
  exact List.map_fst_zip (by simp)

section Found

variable {slots : Vector Name n} {types : Vector SocketType n} {values : Vector Value n}
  (hvalues : ∀ i : Fin n, inputs.get? slots[i] = some values[i])

include hvalues

theorem require_zip_eq_typed (types : Vector SocketType n) :
    ∃ hfed, inputs.require (slots.zip types).toList =
      inputs.typed (slots.zip types).toList hfed := by
  have hnone : inputs.absentAt slots = [] := by
    refine List.filter_eq_nil_iff.2 fun i _ => ?_
    rw [hvalues i]
    simp
  have habsent : inputs.absent ((slots.zip types).toList.map (·.1)) = [] := by
    rw [map_fst_zip, ← map_absentAt, hnone, List.map_nil]
  exact ⟨contains_of_absent habsent, require_of_present habsent⟩

theorem require_zip_eq_ok_iff :
    inputs.require (slots.zip types).toList = .ok values.toList ↔
    ∀ i : Fin n, values[i].type = types[i] := by
  obtain ⟨hfed, htyped⟩ := require_zip_eq_typed hvalues types
  rw [htyped, typed_eq_ok_iff, forall₂_toList_iff]
  refine forall_congr' fun i => ?_
  have hsocket : (slots.zip types)[i] = (slots[i], types[i]) := by simp
  rw [hsocket]
  exact and_iff_right (hvalues i)

theorem require_zip_of_mismatch {i : Fin n} (htype : values[i].type ≠ types[i])
    (hbefore : ∀ j < i, values[j].type = types[j]) :
    inputs.require (slots.zip types).toList =
      .error (.invalidType slots[i] values[i].type types[i]) := by
  obtain ⟨hfed, htyped⟩ := require_zip_eq_typed hvalues types
  rw [htyped]
  refine typed_of_mismatch (i := i) (by simp) (hvalues i) htype fun j hj socket hsocket => ?_
  have hn : j < n := hj.trans i.isLt
  obtain rfl : (slots[j], types[j]) = socket := by simpa [hn] using hsocket
  exact ⟨values[j], hvalues ⟨j, hn⟩, hbefore ⟨j, hn⟩ hj⟩

end Found

/-- Both ways to gather inputs report the same slots, position by position: the only one without a
value by itself, several of them together in order, and whatever the types of the others are. If
none is absent, an expression gets a value for each of its slots. Inputs with types are the same
values if each has its type, and otherwise the first one of another type is reported. -/
theorem resolve_and_require_agree (inputs : Inputs) (t : Template n) (types : Vector SocketType n) :
    let sockets := (t.slots.zip types).toList
    let positions := inputs.absentAt t.slots
    (∀ i, positions = [i] →
        t.resolve inputs = .error (.missing .input t.slots[i]) ∧
        inputs.require sockets = .error (.missing .input t.slots[i])) ∧
      (2 ≤ positions.length →
        t.resolve inputs = .error (.missingMany .input (positions.map (t.slots[·]))) ∧
        inputs.require sockets = .error (.missingMany .input (positions.map (t.slots[·])))) ∧
      (positions = [] → ∃ values : Vector Value n,
        (∀ i : Fin n, inputs.get? t.slots[i] = some values[i]) ∧
        t.resolve inputs = .ok values ∧
        (inputs.require sockets = .ok values.toList ↔ ∀ i : Fin n, values[i].type = types[i]) ∧
        ∀ i : Fin n, values[i].type ≠ types[i] → (∀ j < i, values[j].type = types[j]) →
          inputs.require sockets = .error (.invalidType t.slots[i] values[i].type types[i])) := by
  intro sockets positions
  have habsent : positions.map (t.slots[·]) = inputs.absent t.slots.toList :=
    map_absentAt inputs t.slots
  have hreport : ∀ skip, Skip.ofAbsent (positions.map (t.slots[·])) = some skip →
      t.resolve inputs = .error skip ∧ inputs.require sockets = .error skip := by
    intro skip hskip
    rw [habsent] at hskip
    exact ⟨Template.resolve_of_absent hskip, require_of_absent (by rw [map_fst_zip, hskip])⟩
  refine ⟨fun i hi => hreport _ (by rw [hi]; rfl), fun htwo => hreport _ ?_, fun hnil => ?_⟩
  · exact Skip.ofAbsent_of_two_le (by rwa [List.length_map])
  · rw [hnil, List.map_nil] at habsent
    obtain ⟨vs, hvs⟩ := exists_gather habsent.symm
    obtain ⟨values, hresolve, rfl⟩ := Template.exists_resolve hvs
    have hvalues := forall₂_toList_iff.1 (gather_ok hvs)
    exact ⟨values, hvalues, hresolve, require_zip_eq_ok_iff hvalues,
      fun _ => require_zip_of_mismatch hvalues⟩

/-- A slot that is absent twice is reported twice, before the mistyped one between. A present one is
taken twice, and the first mistyped one is reported. -/
theorem resolve_and_require_agree_repeated :
    let inputs : Inputs := .ofList [("a", ⟨"x", .vec3⟩), ("b", ⟨"y", .float⟩)]
    inputs.require [("c", .float), ("a", .float), ("c", .vec2)] =
      .error (.missingMany .input ["c", "c"]) ∧
      (Operator.calling "mix" #v["a", "b", "a"]).resolve inputs =
        .ok #v[⟨"x", .vec3⟩, ⟨"y", .float⟩, ⟨"x", .vec3⟩] ∧
      inputs.require [("a", .vec3), ("b", .vec2), ("a", .float)] =
        .error (.invalidType "b" .float .vec2) := by
  intro inputs
  have hmissing := (resolve_and_require_agree inputs (Operator.calling "mix" #v["c", "a", "c"])
    #v[.float, .float, .vec2]).2.1 (by decide)
  have habsent : inputs.absentAt #v["c", "a", "c"] = [0, 2] := by decide
  obtain ⟨values, hvalues, hresolve, -, hmismatch⟩ := (resolve_and_require_agree inputs
    (Operator.calling "mix" #v["a", "b", "a"]) #v[.vec3, .vec2, .float]).2.2 (by decide)
  have hget : ∀ i : Fin 3, inputs.get? #v["a", "b", "a"][i] =
      some (#v[⟨"x", .vec3⟩, ⟨"y", .float⟩, ⟨"x", .vec3⟩] : Vector Value 3)[i] := by decide
  obtain rfl : #v[⟨"x", .vec3⟩, ⟨"y", .float⟩, ⟨"x", .vec3⟩] = values :=
    Vector.ext fun i hi => Option.some.inj ((hget ⟨i, hi⟩).symm.trans (hvalues ⟨i, hi⟩))
  have hfirst := hmismatch 1 (by decide) (by decide)
  rw [Vector.toList_zip] at hmissing hfirst
  rw [Operator.calling, habsent] at hmissing
  exact ⟨hmissing.2, hresolve, hfirst⟩

end Inputs

end ShaderNodes
