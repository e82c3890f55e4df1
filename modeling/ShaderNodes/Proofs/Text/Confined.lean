import ShaderNodes.Proofs.Text.Mentions

/-!
# Texts that stay in their statement

A text is confined if it can end neither the statement it stands in nor its line, and can begin
neither a comment nor a directive. It has inert characters only, and slashes, each with a space
after it. A slash then begins no comment wherever the text stands, so that confined texts can be put
together at will.

* `Confined.append`, `Confined.intercalate`: how confined texts are put together.
* `Confined.not_mem`, `Confined.not_isInfix`: what a confined text does not hold.
* `Expr.confined_call`, `Expr.confined_binary`, `Statement.confined_declare`: code with confined
  parts.
-/

namespace ShaderNodes

namespace Text

open Grammar

/-- Characters that end neither a statement nor a line, and begin neither a comment nor a
directive. -/
def isInert (c : Char) : Bool :=
  isWordChar c || [' ', '.', ',', '(', ')', '+', '-', '*', '='].contains c

/-- Inert characters, and slashes with a space after each. -/
inductive Confined : List Char → Prop where
  | nil : Confined []
  | inert {c : Char} {rest : List Char} : isInert c = true → Confined rest → Confined (c :: rest)
  | slash {rest : List Char} : Confined rest → Confined ('/' :: ' ' :: rest)

variable {a b text : List Char}

theorem Confined.append (ha : Confined a) (hb : Confined b) : Confined (a ++ b) := by
  induction ha with
  | nil => exact hb
  | inert hc _ ih => exact .inert hc ih
  | slash _ ih => exact .slash ih

theorem confined_of_all (h : text.all isInert = true) : Confined text := by
  induction text with
  | nil => exact .nil
  | cons c rest ih =>
    rw [List.all_cons, Bool.and_eq_true] at h
    exact .inert h.1 (ih h.2)

theorem confined_of_isIdentifier {x : String} (h : isIdentifier x = true) : Confined x.toList :=
  confined_of_all (List.all_eq_true.2 fun c hc => by
    rw [isInert, isWordChar_of_isIdentifier h c hc, Bool.true_or])

theorem Confined.intercalate {sep : List Char} (hsep : Confined sep) {l : List (List Char)}
    (h : ∀ a ∈ l, Confined a) : Confined (List.intercalate sep l) := by
  induction l with
  | nil => exact .nil
  | cons a l ih =>
    cases l with
    | nil => simpa [List.intercalate] using h a
    | cons a' l =>
      rw [List.intercalate_cons_cons]
      exact ((h a (.head _)).append hsep).append (ih fun b hb => h b (.tail _ hb))

/-- The characters that are not inert, but for the slash. -/
theorem Confined.not_mem (h : Confined text) {c : Char} (hc : isInert c = false)
    (hslash : c ≠ '/') : c ∉ text := by
  have hne : ∀ {d : Char}, isInert d = true → c ≠ d := by
    rintro d hd rfl
    rw [hc] at hd
    cases hd
  induction h with
  | nil => exact List.not_mem_nil
  | inert hd _ ih => exact List.not_mem_cons_of_ne_of_not_mem (hne hd) ih
  | slash _ ih =>
    refine List.not_mem_cons_of_ne_of_not_mem hslash (List.not_mem_cons_of_ne_of_not_mem ?_ ih)
    exact hne (by decide)

/-- A space stands after each slash. -/
theorem Confined.eq_space_of_slash (h : Confined text) {c : Char} {rest : List Char}
    (hsplit : text = a ++ '/' :: c :: rest) : c = ' ' := by
  induction h generalizing a with
  | nil => simp at hsplit
  | inert hd _ ih =>
    cases a with
    | nil =>
      obtain ⟨rfl, -⟩ := List.cons.inj hsplit
      exact absurd hd (by decide)
    | cons x a => exact ih (List.cons.inj hsplit).2
  | slash _ ih =>
    rcases a with _ | ⟨x, _ | ⟨y, a⟩⟩
    · exact (List.cons.inj (List.cons.inj hsplit).2).1.symm
    · exact absurd (List.cons.inj (List.cons.inj hsplit).2).1 (by decide)
    · exact ih (List.cons.inj (List.cons.inj hsplit).2).2

theorem Confined.not_isInfix (h : Confined text) {c : Char} (hc : c ≠ ' ') :
    ¬ ['/', c] <:+: text := by
  rintro ⟨before, rest, hsplit⟩
  have hslash : text = before ++ '/' :: c :: rest := by simp [← hsplit]
  exact hc (h.eq_space_of_slash hslash)

end Text

/-! ## Code -/

open Text

theorem Expr.confined_operand {x : String} (h : Confined x.toList) :
    Confined (operand x).text.toList := by
  rwa [text_operand]

theorem Expr.confined_plain {s : String} (h : s.toList.all isInert = true) :
    Confined (plain s).text.toList := by
  rw [text_plain]
  exact confined_of_all h

theorem Expr.confined_append {e e' : Expr} (h : Confined e.text.toList)
    (h' : Confined e'.text.toList) : Confined (text (e ++ e')).toList := by
  rw [toList_text_append]
  exact h.append h'

theorem Expr.confined_call {f : String} {args : List Expr} (hf : Confined f.toList)
    (hargs : ∀ arg ∈ args, Confined arg.text.toList) : Confined (call f args).text.toList := by
  rw [toList_text_call]
  have hsep : Confined [',', ' '] := confined_of_all (by decide)
  have hclose : Confined [')'] := confined_of_all (by decide)
  refine hf.append (.inert (by decide) ((hsep.intercalate fun a ha => ?_).append hclose))
  obtain ⟨arg, harg, rfl⟩ := List.mem_map.1 ha
  exact hargs arg harg

theorem Expr.confined_binary {op : String} {a b : Expr} (hop : Confined (" " ++ op ++ " ").toList)
    (ha : Confined a.text.toList) (hb : Confined b.text.toList) :
    Confined (binary op a b).text.toList := by
  have htext : (binary op a b).text.toList =
      a.text.toList ++ ((" " ++ op ++ " ").toList ++ b.text.toList) := by
    simp [binary, toList_text, Piece.text]
  rw [htext]
  exact ha.append (hop.append hb)

theorem Statement.confined_assign {x : String} {e : Expr} (hx : Confined x.toList)
    (he : Confined e.text.toList) : Confined (Statement.assign x e).text.toList := by
  have hsign : Confined " = ".toList := confined_of_all (by decide)
  rw [Statement.text, String.toList_append, String.toList_append]
  exact (hx.append hsign).append he

theorem Statement.confined_declare {type x : String} {e : Expr} (htype : isIdentifier type = true)
    (hx : isIdentifier x = true) (he : Confined e.text.toList) :
    Confined (Statement.declare type x e).text.toList := by
  have hsign : Confined " = ".toList := confined_of_all (by decide)
  have hspace : Confined " ".toList := confined_of_all (by decide)
  rw [Statement.text, String.toList_append, String.toList_append, String.toList_append,
    String.toList_append]
  exact ((((confined_of_isIdentifier htype).append hspace).append
    (confined_of_isIdentifier hx)).append hsign).append he

end ShaderNodes
