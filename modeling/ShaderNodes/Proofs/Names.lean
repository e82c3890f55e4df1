import ShaderNodes.Kind
import ShaderNodes.Proofs.Text.Identifier
import ShaderNodes.Proofs.Text.Mangled

/-!
# The names that nodes declare

The variable of a node is named by its kind, in lower case, and its id, encoded, with an underscore
between them. Beside it stand the variable of a material and the uniform of a sampler, told by a
suffix.

The id can be told from a suffix, since an encoding has no underscore but in escapes. It can be told
from the kind unless the name of one kind goes on, after that of the other, with an underscore.

* `Context.variableName_eq_iff_clash`: the nodes that share a variable name.
* `Context.roleName_inj`: otherwise a name tells the id of its node and what it is for.
-/

namespace ShaderNodes

open Text

/-- What a node declares a name for. -/
inductive Role where
  /-- The variable of its result. -/
  | result
  /-- The variable of its material. -/
  | material
  /-- The uniform of its texture. -/
  | sampler
  deriving DecidableEq, Repr

namespace Role

/-- The name for a role, of a node with the given variable name. -/
def name (role : Role) (variableName : String) : Name :=
  match role with
  | result => variableName
  | material => Lighting.materialName variableName
  | sampler => Sampler.uniformName variableName

/-- What the name for a role has after the variable name. -/
def suffix : Role → List Char
  | result => []
  | material => ['_', 'm', 'a', 't', 'e', 'r', 'i', 'a', 'l']
  | sampler => ['_', 'm', 'a', 'p']

theorem toList_name (role : Role) (variableName : String) :
    (role.name variableName).toList = variableName.toList ++ role.suffix := by
  cases role with
  | result => exact (List.append_nil _).symm
  | material => exact String.toList_append
  | sampler => exact String.toList_append

/-- An encoding followed by a suffix tells both. -/
theorem mangle_suffix_inj {i j : NodeId} {r r' : Role}
    (h : (mangle i).toList ++ r.suffix = (mangle j).toList ++ r'.suffix) : i = j ∧ r = r' := by
  have hsame : ∀ {t : List Char}, (mangle i).toList ++ t = (mangle j).toList ++ t → i = j :=
    fun heq => mangle_injective (String.toList_inj.1 (List.append_cancel_right heq))
  -- Both suffixes begin with an underscore that begins no escape.
  have hescape : ∀ {a b : NodeId} {t : List Char},
      (mangle a).toList ≠ (mangle b).toList ++ '_' :: 'm' :: t := fun {a b _} =>
    mangle_ne_append_suffix a b (by simp) (by simp)
  have hlast := congrArg List.getLast? h
  cases r <;> cases r' <;> simp only [suffix, List.append_nil] at h
  · exact ⟨hsame (t := []) (by simpa using h), rfl⟩
  · exact absurd h hescape
  · exact absurd h hescape
  · exact absurd h.symm hescape
  · exact ⟨hsame h, rfl⟩
  · simp [suffix] at hlast
  · exact absurd h.symm hescape
  · simp [suffix] at hlast
  · exact ⟨hsame h, rfl⟩

end Role

/-! ## Kind and id -/

/-- The name of `k'` goes on after that of `k` with an underscore, both in lower case. -/
def Extends (k k' : Name) : Prop := ∃ part, lowercase k' = lowercase k ++ "_" ++ part

theorem not_extends_of_underscore_not_mem {k k' : Name} (h : '_' ∉ k'.toList) : ¬ Extends k k' := by
  rintro ⟨part, hpart⟩
  refine h (underscore_mem_lowercase ?_)
  simp [hpart]

/-- The name of `k'` takes up a part of the id `i`, and what is left of `i` reads as the id `j`. -/
def Clash (k k' : Name) (i j : NodeId) : Prop :=
  ∃ part, lowercase k' = lowercase k ++ "_" ++ part ∧ mangle i = part ++ "_" ++ mangle j

theorem Clash.extends {k k' : Name} {i j : NodeId} (h : Clash k k' i j) : Extends k k' :=
  h.imp fun _ hpart => hpart.1

/-- Two lists with a common separator: it is at the same place, or further on in one of them. -/
theorem append_cons_eq_append_cons_iff {α : Type} {a b p q : List α} {x : α} :
    a ++ x :: p = b ++ x :: q ↔
      a = b ∧ p = q ∨ (∃ t, b = a ++ x :: t ∧ p = t ++ x :: q) ∨
        ∃ t, a = b ++ x :: t ∧ q = t ++ x :: p := by
  rw [List.append_eq_append_iff]
  constructor
  · rintro (⟨t, ht, hp⟩ | ⟨t, ht, hq⟩)
    · rcases t with _ | ⟨y, t⟩
      · exact .inl ⟨by simpa using ht.symm, by simpa using hp⟩
      · obtain ⟨rfl, rfl⟩ := List.cons.inj hp
        exact .inr (.inl ⟨t, ht, rfl⟩)
    · rcases t with _ | ⟨y, t⟩
      · exact .inl ⟨by simpa using ht, by simpa using hq.symm⟩
      · obtain ⟨rfl, rfl⟩ := List.cons.inj hq
        exact .inr (.inr ⟨t, ht, rfl⟩)
  · rintro (⟨rfl, rfl⟩ | ⟨t, rfl, rfl⟩ | ⟨t, rfl, rfl⟩)
    · exact .inl ⟨[], by simp, rfl⟩
    · exact .inl ⟨x :: t, rfl, rfl⟩
    · exact .inr ⟨x :: t, rfl, rfl⟩

namespace Context

theorem toList_variableName (node : Context) (k : Name) :
    (node.variableName k).toList = (lowercase k).toList ++ '_' :: (mangle node.id).toList := by
  simp [variableName]

variable {n m : Context} {k k' : Name} {r r' : Role}

/-- Where no name of a kind goes on after the other, a name tells the id of its node and its
role. -/
theorem roleName_inj (hk : ¬ Extends k k') (hk' : ¬ Extends k' k)
    (h : r.name (n.variableName k) = r'.name (m.variableName k')) : n.id = m.id ∧ r = r' := by
  have hlist := congrArg String.toList h
  rw [Role.toList_name, Role.toList_name, toList_variableName, toList_variableName,
    List.append_assoc, List.append_assoc, List.cons_append, List.cons_append,
    append_cons_eq_append_cons_iff] at hlist
  have hextends : ∀ {k k' : Name} {t : List Char},
      (lowercase k').toList = (lowercase k).toList ++ '_' :: t → Extends k k' := fun {_ _ t} ht =>
    ⟨String.ofList t, String.toList_inj.1 (by simpa using ht)⟩
  rcases hlist with ⟨-, hlist⟩ | ⟨t, ht, -⟩ | ⟨t, ht, -⟩
  · exact Role.mangle_suffix_inj hlist
  · exact absurd (hextends ht) hk
  · exact absurd (hextends ht) hk'

/-- Two nodes share a variable name just if they agree in id and kind, up to case, or clash. -/
theorem variableName_eq_iff_clash (n m : Context) (k k' : Name) :
    n.variableName k = m.variableName k' ↔
      lowercase k = lowercase k' ∧ n.id = m.id ∨ Clash k k' n.id m.id ∨ Clash k' k m.id n.id := by
  have hclash : ∀ {k k' : Name} {i j : NodeId},
      (∃ t, (lowercase k').toList = (lowercase k).toList ++ '_' :: t ∧
        (mangle i).toList = t ++ '_' :: (mangle j).toList) ↔ Clash k k' i j := by
    intro k k' i j
    constructor
    · rintro ⟨t, hk, hi⟩
      exact ⟨String.ofList t, String.toList_inj.1 (by simpa using hk),
        String.toList_inj.1 (by simpa using hi)⟩
    · rintro ⟨part, hk, hi⟩
      exact ⟨part.toList, by simp [hk], by simp [hi]⟩
  rw [← String.toList_inj, toList_variableName, toList_variableName,
    append_cons_eq_append_cons_iff, hclash, hclash, String.toList_inj, String.toList_inj,
    mangle_injective.eq_iff]

end Context

end ShaderNodes
