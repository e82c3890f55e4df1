import Mathlib.Data.List.Basic
import ShaderNodes.Grammar.Token
import ShaderNodes.Text.Lowercase

/-!
# Identifiers and lower case

Lower case keeps an identifier an identifier, and makes no underscore of another character.

* `isIdentifier_lowercase`, `isIdentifier_append`: how identifiers are made of others.
* `underscore_mem_lowercase`: the underscores of a text in lower case are those of the text.
-/

namespace ShaderNodes.Text

open Grammar

/-- Whether a text is an identifier: word characters, of which the first is no digit. -/
def isIdentifier (s : String) : Bool :=
  match s.toList with
  | [] => false
  | c :: rest => isWordStart c && rest.all isWordChar

theorem isIdentifier_iff {s : String} :
    isIdentifier s = true ↔
      ∃ c rest, s.toList = c :: rest ∧ isWordStart c = true ∧ ∀ d ∈ rest, isWordChar d = true := by
  rw [isIdentifier]
  cases s.toList with
  | nil => simp
  | cons c rest => simp

theorem isWordChar_of_isWordStart {c : Char} (h : isWordStart c = true) : isWordChar c = true := by
  simp only [isWordStart, isWordChar, Char.isAlphanum, Bool.or_eq_true] at h ⊢
  exact h.imp_left .inl

theorem isWordChar_of_isIdentifier {s : String} (h : isIdentifier s = true) :
    ∀ c ∈ s.toList, isWordChar c = true := by
  obtain ⟨c, rest, hs, hc, hrest⟩ := isIdentifier_iff.1 h
  rw [hs]
  intro d hd
  rcases List.mem_cons.1 hd with rfl | hd
  · exact isWordChar_of_isWordStart hc
  · exact hrest d hd

theorem isIdentifier_append {s t : String} (hs : isIdentifier s = true)
    (ht : ∀ c ∈ t.toList, isWordChar c = true) : isIdentifier (s ++ t) = true := by
  obtain ⟨c, rest, hs, hc, hrest⟩ := isIdentifier_iff.1 hs
  refine isIdentifier_iff.2 ⟨c, rest ++ t.toList, ?_, hc, fun d hd => ?_⟩
  · rw [String.toList_append, hs, List.cons_append]
  · rcases List.mem_append.1 hd with hd | hd
    · exact hrest d hd
    · exact ht d hd

/-! ## ASCII -/

/-- A property of the ASCII characters, from all of them. -/
theorem ascii_forall {P : Char → Prop} (h : ∀ n < 0x80, P (Char.ofNat n)) {c : Char}
    (hc : c.toNat < 0x80) : P c := by
  have := h c.toNat hc
  rwa [Char.ofNat_toNat] at this

theorem lt_of_isWordChar {c : Char} (h : isWordChar c = true) : c.toNat < 0x80 := by
  have hbound : ∀ {d : Char}, c.val ≤ d.val → d.toNat < 0x80 → c.toNat < 0x80 := fun hle hlt =>
    Nat.lt_of_le_of_lt (UInt32.le_iff_toNat_le.1 hle) hlt
  unfold isWordChar Char.isAlphanum Char.isAlpha Char.isUpper Char.isLower Char.isDigit at h
  simp only [Bool.or_eq_true, Bool.and_eq_true, decide_eq_true_eq] at h
  rcases h with ((⟨-, h⟩ | ⟨-, h⟩) | ⟨-, h⟩) | rfl
  · exact hbound (d := 'Z') h (by decide)
  · exact hbound (d := 'z') h (by decide)
  · exact hbound (d := '9') h (by decide)
  · decide

/-- What lower case keeps of an ASCII character. -/
theorem toLower_ascii {c : Char} (hc : c.toNat < 0x80) :
    (isWordChar c = true → isWordChar c.toLower = true) ∧
      (isWordStart c = true → isWordStart c.toLower = true) ∧ (c.toLower = '_' → c = '_') :=
  ascii_forall (P := fun c => (isWordChar c = true → isWordChar c.toLower = true) ∧
    (isWordStart c = true → isWordStart c.toLower = true) ∧ (c.toLower = '_' → c = '_'))
    (by decide +kernel) hc

theorem lowerChar_ascii {c : Char} (hc : c.toNat < 0x80) : lowerChar c = [c.toLower] := by
  rw [lowerChar, if_pos hc]

theorem lowerFrom_ascii {l : List Char} (before : List Char) (h : ∀ c ∈ l, c.toNat < 0x80) :
    lowerFrom before l = l.map Char.toLower := by
  induction l generalizing before with
  | nil => rfl
  | cons c rest ih =>
    have hc := h c (.head _)
    have hsigma : c ≠ 'Σ' := by
      rintro rfl
      exact absurd hc (by decide)
    rw [lowerFrom, if_neg hsigma, lowerChar_ascii hc, ih _ fun d hd => h d (.tail _ hd)]
    rfl

theorem isIdentifier_lowercase {s : String} (h : isIdentifier s = true) :
    isIdentifier (lowercase s) = true := by
  have hword := isWordChar_of_isIdentifier h
  have hascii : ∀ c ∈ s.toList, c.toNat < 0x80 := fun c hc => lt_of_isWordChar (hword c hc)
  obtain ⟨c, rest, hs, hc, -⟩ := isIdentifier_iff.1 h
  have hlist : (lowercase s).toList = c.toLower :: rest.map Char.toLower := by
    rw [lowercase, String.toList_ofList, lowerFrom_ascii [] hascii, hs, List.map_cons]
  rw [hs] at hascii hword
  refine isIdentifier_iff.2 ⟨_, _, hlist, (toLower_ascii (hascii c (.head _))).2.1 hc, ?_⟩
  intro d hd
  obtain ⟨e, he, rfl⟩ := List.mem_map.1 hd
  exact (toLower_ascii (hascii e (.tail _ he))).1 (hword e (.tail _ he))

/-! ## Underscores -/

theorem ofNat_ne_underscore {n : Nat} (h : '_'.toNat < n) : Char.ofNat n ≠ '_' := by
  intro heq
  have hn : (Char.ofNat n).toNat = '_'.toNat := by rw [heq]
  by_cases hvalid : n.isValidChar
  · rw [Char.ofNat, dif_pos hvalid] at hn
    change n = _ at hn
    omega
  · rw [Char.ofNat, dif_neg hvalid] at hn
    exact absurd hn (by decide)

/-- All lower-case partners outside ASCII come after the underscore. -/
theorem lowerRuns_after_underscore : ∀ r ∈ lowerRuns, '_'.toNat < r.lower := by
  decide +kernel

theorem underscore_mem_lowerChar {c : Char} (h : '_' ∈ lowerChar c) : c = '_' := by
  rw [lowerChar] at h
  split at h
  · rename_i hc
    exact (toLower_ascii hc).2.2 (List.mem_singleton.1 h).symm
  · split at h
    · exact absurd h (by decide)
    · split at h
      · rename_i n hn
        obtain ⟨r, hr, hfind⟩ := List.exists_of_findSome?_eq_some hn
        rw [CaseRun.find?] at hfind
        split at hfind
        · have hlower := lowerRuns_after_underscore r hr
          have hn : '_'.toNat < n := by
            have := Option.some.inj hfind
            omega
          exact absurd (List.mem_singleton.1 h).symm (ofNat_ne_underscore hn)
        · cases hfind
      · exact (List.mem_singleton.1 h).symm

theorem underscore_mem_lowerFrom {before l : List Char} (h : '_' ∈ lowerFrom before l) :
    '_' ∈ l := by
  induction l generalizing before with
  | nil => exact h
  | cons c rest ih =>
    rw [lowerFrom] at h
    rcases List.mem_append.1 h with h | h
    · split at h
      · split at h <;> exact absurd h (by decide)
      · rw [underscore_mem_lowerChar h]
        exact .head _
    · exact .tail _ (ih h)

/-- Lower case makes no underscore of another character. -/
theorem underscore_mem_lowercase {s : String} (h : '_' ∈ (lowercase s).toList) :
    '_' ∈ s.toList := by
  rw [lowercase, String.toList_ofList] at h
  exact underscore_mem_lowerFrom h

end ShaderNodes.Text
