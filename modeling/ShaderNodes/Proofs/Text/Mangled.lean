import Mathlib.Data.String.Basic
import ShaderNodes.Grammar.Token
import ShaderNodes.Text.Mangled

/-!
# Identifier-safe text, continued

The encoding is read back byte by byte, so different texts have different encodings. Only an escape
has an underscore in it, at its start, so what follows an underscore tells an encoding from a
suffix.

* `mangle_injective`: `unmangle` gives the bytes of the text again.
* `escape_of_mangle`: an underscore is followed by `u`, or by `x` and two hexadecimal digits.
* `mangle_ne_append_suffix`: so no suffix that begins otherwise can be taken for a part of an
  encoding.
* `isWordChar_of_mem_mangle`: letters, digits and underscores are all there is.
-/

namespace ShaderNodes.Text

open Grammar

/-! ## One byte -/

/-- The hexadecimal digits, in lower case. -/
def isHexDigit (c : Char) : Bool := c.isDigit || 'a' ≤ c && c ≤ 'f'

/-- The value of a hexadecimal digit. -/
def hexValue (c : Char) : Nat := if c.isDigit then c.toNat - '0'.toNat else c.toNat - 'a'.toNat + 10

theorem hexDigit_digitChar :
    ∀ d < 16, isHexDigit (Nat.digitChar d) = true ∧ hexValue (Nat.digitChar d) = d := by
  decide

/-- How a byte can be written. -/
inductive Spelled (b : UInt8) : List Char → Prop where
  | kept (c : Char) : c.isAlphanum = true → c.toNat = b.toNat → Spelled b [c]
  | underscore : b.toNat = '_'.toNat → Spelled b ['_', 'u']
  | escaped (high low : Char) : isHexDigit high = true → isHexDigit low = true →
    16 * hexValue high + hexValue low = b.toNat → Spelled b ['_', 'x', high, low]

theorem spelled_mangleByte (b : UInt8) : Spelled b (mangleByte b) := by
  have hlt : b.toNat < 256 := b.toNat_lt
  have hchar : (Char.ofNat b.toNat).toNat = b.toNat := by
    rw [Char.ofNat, dif_pos (.inl (by omega))]
    rfl
  simp only [mangleByte]
  split
  · rename_i h
    exact .underscore (by rw [← hchar, h])
  · split
    · rename_i h
      exact .kept _ h hchar
    · obtain ⟨hhigh, hhigh'⟩ := hexDigit_digitChar (b.toNat / 16) (by omega)
      obtain ⟨hlow, hlow'⟩ := hexDigit_digitChar (b.toNat % 16) (by omega)
      exact .escaped _ _ hhigh hlow (by rw [hhigh', hlow']; omega)

theorem ne_underscore_of_isAlphanum {c : Char} (h : c.isAlphanum = true) : c ≠ '_' := by
  rintro rfl
  simp at h

theorem ne_underscore_of_isHexDigit {c : Char} (h : isHexDigit c = true) : c ≠ '_' := by
  rintro rfl
  simp [isHexDigit] at h

/-! ## Reading back -/

/-- The bytes of an encoding. -/
def unmangle : List Char → List UInt8
  | '_' :: 'u' :: rest => .ofNat '_'.toNat :: unmangle rest
  | '_' :: 'x' :: high :: low :: rest =>
    .ofNat (16 * hexValue high + hexValue low) :: unmangle rest
  | c :: rest => .ofNat c.toNat :: unmangle rest
  | [] => []

theorem Spelled.unmangle_append {b : UInt8} {l : List Char} (h : Spelled b l) (rest : List Char) :
    unmangle (l ++ rest) = b :: unmangle rest := by
  cases h with
  | kept c hc hb =>
    have hne := ne_underscore_of_isAlphanum hc
    change unmangle (c :: rest) = _
    rw [unmangle, hb, UInt8.ofNat_toNat]
    · intro rest' h
      exact absurd h hne
    · intro high low rest' h
      exact absurd h hne
  | underscore hb =>
    change unmangle ('_' :: 'u' :: rest) = _
    rw [unmangle, ← hb, UInt8.ofNat_toNat]
  | escaped high low hhigh hlow hb =>
    change unmangle ('_' :: 'x' :: high :: low :: rest) = _
    rw [unmangle, hb, UInt8.ofNat_toNat]

theorem unmangle_flatMap (bytes : List UInt8) : unmangle (bytes.flatMap mangleByte) = bytes := by
  induction bytes with
  | nil => rfl
  | cons b bytes ih =>
    rw [List.flatMap_cons, (spelled_mangleByte b).unmangle_append, ih]

theorem toList_mangle (s : String) :
    (mangle s).toList = s.toUTF8.data.toList.flatMap mangleByte :=
  String.toList_ofList

/-- Different texts have different encodings. -/
theorem mangle_injective : Function.Injective mangle := by
  intro s t h
  have hbytes : s.toUTF8.data.toList = t.toUTF8.data.toList := by
    rw [← unmangle_flatMap s.toUTF8.data.toList, ← toList_mangle, h, toList_mangle,
      unmangle_flatMap]
  exact String.toByteArray_inj.1 (ByteArray.ext (Array.toList_inj.1 hbytes))

/-! ## Underscores -/

/-- What follows the underscore of an escape. -/
def Escape (after : List Char) : Prop :=
  (∃ rest, after = 'u' :: rest) ∨
    ∃ high low rest, after = 'x' :: high :: low :: rest ∧ isHexDigit high = true ∧
      isHexDigit low = true

/-- An underscore after the first byte begins an escape, or comes later than the byte. -/
theorem Spelled.escape {b : UInt8} {l rest before after : List Char} (h : Spelled b l)
    (heq : l ++ rest = before ++ '_' :: after) :
    Escape after ∨ ∃ before', rest = before' ++ '_' :: after := by
  cases h with
  | kept c hc _ =>
    have hne := ne_underscore_of_isAlphanum hc
    rcases before with _ | ⟨_, before⟩ <;>
      simp only [List.cons_append, List.nil_append, List.cons.injEq] at heq
    · exact absurd heq.1 hne
    · exact .inr ⟨before, heq.2⟩
  | underscore _ =>
    rcases before with _ | ⟨_, _ | ⟨_, before⟩⟩ <;>
      simp only [List.cons_append, List.nil_append, List.cons.injEq] at heq
    · exact .inl (.inl ⟨rest, heq.2.symm⟩)
    · exact absurd heq.2.1 (by decide)
    · exact .inr ⟨before, heq.2.2⟩
  | escaped high low hhigh hlow _ =>
    have hne := ne_underscore_of_isHexDigit hhigh
    have hne' := ne_underscore_of_isHexDigit hlow
    rcases before with _ | ⟨_, _ | ⟨_, _ | ⟨_, _ | ⟨_, before⟩⟩⟩⟩ <;>
      simp only [List.cons_append, List.nil_append, List.cons.injEq] at heq
    · exact .inl (.inr ⟨high, low, rest, heq.2.symm, hhigh, hlow⟩)
    · exact absurd heq.2.1 (by decide)
    · exact absurd heq.2.2.1 hne
    · exact absurd heq.2.2.2.1 hne'
    · exact .inr ⟨before, heq.2.2.2.2⟩

theorem escape_of_flatMap {bytes : List UInt8} {before after : List Char}
    (h : bytes.flatMap mangleByte = before ++ '_' :: after) : Escape after := by
  induction bytes generalizing before with
  | nil => simp at h
  | cons b bytes ih =>
    rw [List.flatMap_cons] at h
    obtain hescape | ⟨before', hrest⟩ := (spelled_mangleByte b).escape h
    · exact hescape
    · exact ih hrest

/-- In an encoding an underscore begins an escape. -/
theorem escape_of_mangle {s : String} {before after : List Char}
    (h : (mangle s).toList = before ++ '_' :: after) : Escape after :=
  escape_of_flatMap ((toList_mangle s).symm.trans h)

theorem Escape.head? {after : List Char} (h : Escape after) :
    after.head? = some 'u' ∨ after.head? = some 'x' := by
  obtain ⟨rest, rfl⟩ | ⟨high, low, rest, rfl, -, -⟩ := h
  · exact .inl rfl
  · exact .inr rfl

/-- An encoding does not go on after another with an underscore, unless as an escape does. -/
theorem mangle_ne_append_suffix (a b : String) {t : List Char} (hu : t.head? ≠ some 'u')
    (hx : t.head? ≠ some 'x') : (mangle a).toList ≠ (mangle b).toList ++ '_' :: t := by
  intro h
  rcases (escape_of_mangle h).head? with ht | ht
  · exact hu ht
  · exact hx ht

/-! ## Characters -/

theorem isWordChar_of_mem_mangle {s : String} {c : Char} (h : c ∈ (mangle s).toList) :
    isWordChar c = true := by
  rw [toList_mangle, List.mem_flatMap] at h
  obtain ⟨b, -, hc⟩ := h
  have hhex : ∀ d, isHexDigit d = true → isWordChar d = true := by
    intro d hd
    simp only [isHexDigit, Bool.or_eq_true, Bool.and_eq_true, decide_eq_true_eq] at hd
    unfold isWordChar Char.isAlphanum Char.isAlpha Char.isLower
    simp only [Bool.or_eq_true, Bool.and_eq_true, decide_eq_true_eq]
    rcases hd with hd | ⟨hd, hd'⟩
    · exact .inl (.inr hd)
    · exact .inl (.inl (.inr ⟨hd, le_trans hd' (by decide)⟩))
  generalize hl : mangleByte b = l at hc
  have hspelled := spelled_mangleByte b
  rw [hl] at hspelled
  cases hspelled with
  | kept d hd _ =>
    obtain rfl := List.mem_singleton.1 hc
    simp [isWordChar, hd]
  | underscore _ =>
    rcases List.mem_cons.1 hc with rfl | hc
    · rfl
    · obtain rfl := List.mem_singleton.1 hc
      rfl
  | escaped high low hhigh hlow _ =>
    simp only [List.mem_cons, List.not_mem_nil, or_false] at hc
    rcases hc with rfl | rfl | rfl | rfl
    · rfl
    · rfl
    · exact hhex _ hhigh
    · exact hhex _ hlow

/-! ## Main result -/

/-- Different texts have different encodings, of ASCII letters, digits and underscores only. An
underscore is followed by `u`, or by `x` and two hexadecimal digits in lower case. So an encoding is
never another one with an underscore and a suffix after it, unless the suffix begins with `u` or
`x`. -/
theorem mangle_uniquely_readable :
    Function.Injective mangle ∧
      (∀ s, ∀ c ∈ (mangle s).toList, c.isAlphanum = true ∨ c = '_') ∧
      (∀ s before after, (mangle s).toList = before ++ '_' :: after →
        (∃ rest, after = 'u' :: rest) ∨
          ∃ high low rest, after = 'x' :: high :: low :: rest ∧ isHexDigit high = true ∧
            isHexDigit low = true) ∧
      ∀ a b t, t.toList.head? ≠ some 'u' → t.toList.head? ≠ some 'x' →
        mangle a ≠ mangle b ++ "_" ++ t := by
  refine ⟨mangle_injective, fun s c hc => ?_, fun s before after => escape_of_mangle,
    fun a b t hu hx h => ?_⟩
  · simpa [isWordChar] using isWordChar_of_mem_mangle hc
  · refine mangle_ne_append_suffix a b hu hx ?_
    rw [h]
    simp

/-- An id that reads like the encoding of another one. -/
theorem mangle_uniquely_readable_dash :
    mangle "a-1" = "a_x2d1" ∧ mangle "a_x2d1" = "a_ux2d1" ∧ mangle "a-1" ≠ mangle "a_x2d1" ∧
      (mangle "é_").toList = "_xc3".toList ++ '_' :: "xa9_u".toList ∧
      (∀ c ∈ (mangle "é_").toList, c.isAlphanum = true ∨ c = '_') ∧
      "map".toList.head? ≠ some 'u' ∧ "map".toList.head? ≠ some 'x' ∧
      mangle "2_map" ≠ mangle "2" ++ "_" ++ "map" := by
  obtain ⟨hinjective, hchars, -, hsuffix⟩ := mangle_uniquely_readable
  refine ⟨by decide +kernel, by decide +kernel, hinjective.ne (by decide), by decide +kernel, hchars
    _, by decide, by decide, hsuffix _ _ _ (by decide) (by decide)⟩

end ShaderNodes.Text
