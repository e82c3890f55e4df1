import Mathlib.Data.List.Basic
import ShaderNodes.Text.Lines

/-!
# The lines of a text

`linesOf` cuts a text at its line feeds, so that a text with a line feed at its end has an empty
last line.

* `linesOf_lines`, `linesOf_intercalate`: the lines of texts that are put together of lines or of
  sections.
* `exists_line_of_isInfix`: where a line begins inside a text, some line of the text ends with it.
-/

namespace ShaderNodes.Text

/-! ## Texts made of lines -/

theorem lines_cons (x : String) (l : List String) : lines (x :: l) = x ++ "\n" ++ lines l := by
  simp [lines]

theorem lines_append (l l' : List String) : lines (l ++ l') = lines l ++ lines l' := by
  simp [lines]

theorem getLast?_lines {l : List String} : ∀ c ∈ (lines l).toList.getLast?, c = '\n' := by
  induction l with
  | nil => simp [lines]
  | cons x l ih =>
    rw [lines_cons, String.toList_append, List.getLast?_append]
    simp only [Option.mem_def, Option.or_eq_some_iff]
    rintro c (hc | ⟨-, hc⟩)
    · exact ih c hc
    · simpa [eq_comm] using hc

/-! ## Texts cut into lines -/

/-- The lines of a text, without the line feeds between them. -/
def linesOf (text : String) : List (List Char) := text.toList.splitOn '\n'

theorem linesOf_append_lf (s t : String) : linesOf (s ++ "\n" ++ t) = linesOf s ++ linesOf t := by
  rw [linesOf, String.toList_append, String.toList_append, List.append_assoc]
  exact List.splitOn_append_cons_self _ _

theorem linesOf_of_not_mem {s : String} (h : '\n' ∉ s.toList) : linesOf s = [s.toList] :=
  List.splitOn_eq_singleton h

theorem linesOf_lines {l : List String} (h : ∀ x ∈ l, '\n' ∉ x.toList) :
    linesOf (lines l) = l.map String.toList ++ [[]] := by
  induction l with
  | nil => rfl
  | cons x l ih =>
    rw [lines_cons, linesOf_append_lf, linesOf_of_not_mem (h x (.head _)),
      ih fun y hy => h y (.tail _ hy)]
    rfl

theorem linesOf_intercalate {sections : List String} (h : sections ≠ []) :
    linesOf ("\n".intercalate sections) = sections.flatMap linesOf := by
  induction sections with
  | nil => exact absurd rfl h
  | cons s sections ih =>
    cases sections with
    | nil => simp
    | cons s' sections =>
      have hcons : "\n".intercalate (s :: s' :: sections) =
          s ++ "\n" ++ "\n".intercalate (s' :: sections) := by
        rw [String.intercalate_cons_cons]
      rw [hcons, linesOf_append_lf, ih (List.cons_ne_nil _ _)]
      rfl

theorem exists_line_append {mark : List Char} (hmark : '\n' ∉ mark) (before : List Char) :
    ∃ line ∈ (before ++ mark).splitOn '\n', mark <:+ line := by
  induction before with
  | nil => exact ⟨mark, by simp [List.splitOn_eq_singleton hmark], List.suffix_rfl⟩
  | cons c before ih =>
    obtain ⟨line, hline, hsuffix⟩ := ih
    rw [List.cons_append, List.splitOn, List.splitOnP_cons_eq_if_modifyHead]
    split
    · exact ⟨line, .tail _ hline, hsuffix⟩
    · -- The character joins the first line, which may be the one that ends with the mark.
      rw [List.splitOn] at hline
      cases hlines : (before ++ mark).splitOnP (· == '\n') with
      | nil =>
        rw [hlines] at hline
        cases hline
      | cons first rest =>
        rw [hlines] at hline
        rcases List.mem_cons.1 hline with rfl | hline
        · exact ⟨c :: line, .head _, hsuffix.trans (List.suffix_cons c line)⟩
        · exact ⟨line, .tail _ hline, hsuffix⟩

/-- Where a line begins inside a text, some line of the text ends with it. -/
theorem exists_line_of_isInfix {mark rest : List Char} {text : String} (hmark : '\n' ∉ mark)
    (h : mark ++ '\n' :: rest <:+: text.toList) : ∃ line ∈ linesOf text, mark <:+ line := by
  obtain ⟨before, after, htext⟩ := h
  obtain ⟨line, hline, hsuffix⟩ := exists_line_append hmark before
  refine ⟨line, ?_, hsuffix⟩
  have hsplit : text.toList = (before ++ mark) ++ '\n' :: (rest ++ after) := by simp [← htext]
  rw [linesOf, hsplit, List.splitOn_append_cons_self]
  exact List.mem_append_left _ hline

end ShaderNodes.Text
