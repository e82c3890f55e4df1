import ShaderNodes.Code
import ShaderNodes.Proofs.Text.Identifier

/-!
# The names in an expression

`mentions` reads the names off the text of an expression: its words, without numbers and without
components, which stand after a point. A name with an opening parenthesis after it is called.

A text is told to mention only names with a property (`MentionsOnly`) wherever it stands before a
character that ends it, so that the texts of expressions are put together as the expressions are.

* `mentionsOnly_word`, `mentionsOnly_component`, `mentionsOnly_silent`: the parts.
* `MentionsOnly.append`, `MentionsOnly.after`, `mentionsOnly_call`, `mentionsOnly_intercalate`: how
  they are put together.
* `Occurs.mem_mentions`: a name that stands alone in a text is one of its names.
-/

namespace ShaderNodes.Text

open Grammar

/-- A name in a text, and whether it is called. -/
structure Mention where
  name : String
  called : Bool
  deriving DecidableEq, Repr

/-- The mention that a word makes, by the character before it. -/
def mentionOf (before : Char) (word : List Char) (called : Bool) : List Mention :=
  match word with
  | [] => []
  | c :: _ => if isWordStart c ∧ before ≠ '.' then [⟨String.ofList word, called⟩] else []

/-- The names in a text, after a word that began after the given character. -/
def mentionsFrom (before : Char) (word : List Char) : List Char → List Mention
  | [] => mentionOf before word false
  | c :: rest =>
    if isWordChar c then mentionsFrom before (word ++ [c]) rest
    else mentionOf before word (c = '(') ++ mentionsFrom c [] rest

/-- The names in a text, from left to right. -/
def mentions (text : String) : List Mention := mentionsFrom ' ' [] text.toList

example : mentions "vec4(mix(a_1, tex.rgb, 0.5), 1.0)" =
    [⟨"vec4", true⟩, ⟨"mix", true⟩, ⟨"a_1", false⟩, ⟨"tex", false⟩] := by decide +kernel

/-- What may stand before a name, without making it a component. -/
def isPunctuation (c : Char) : Bool := !isWordChar c && c != '.'

/-- What may stand after a name that is not called. -/
def Ends (rest : List Char) : Prop := ∀ c ∈ rest.head?, isWordChar c = false ∧ c ≠ '('

theorem ends_cons {c : Char} (hword : isWordChar c = false) (hparen : c ≠ '(') (rest : List Char) :
    Ends (c :: rest) := by
  rintro _ ⟨⟩
  exact ⟨hword, hparen⟩

/-- The text has only names with the property, where it stands before what ends it. -/
def MentionsOnly (P : Mention → Prop) (text : List Char) : Prop :=
  ∀ before rest, before ≠ '.' → Ends rest →
    ∃ ms, (∀ m ∈ ms, P m) ∧ mentionsFrom before [] (text ++ rest) = ms ++ mentionsFrom ' ' [] rest

variable {P : Mention → Prop} {a b rest text : List Char} {before c : Char}

theorem MentionsOnly.forall_mentions {s : String} (h : MentionsOnly P s.toList) :
    ∀ m ∈ mentions s, P m := by
  obtain ⟨ms, hms, heq⟩ := h ' ' [] (by decide) nofun
  rw [List.append_nil] at heq
  rw [mentions, heq]
  simpa [mentionsFrom, mentionOf] using hms

theorem MentionsOnly.mono {Q : Mention → Prop} (h : MentionsOnly P text) (hPQ : ∀ m, P m → Q m) :
    MentionsOnly Q text := by
  intro before rest hbefore hrest
  obtain ⟨ms, hms, heq⟩ := h before rest hbefore hrest
  exact ⟨ms, fun m hm => hPQ m (hms m hm), heq⟩

/-! ## One step -/

theorem mentionsFrom_cons (hc : isWordChar c = false) (before : Char) (rest : List Char) :
    mentionsFrom before [] (c :: rest) = mentionsFrom c [] rest := by
  simp [mentionsFrom, mentionOf, hc]

/-- What comes before it says nothing about a text that ends a name. -/
theorem mentionsFrom_of_ends (h : Ends rest) (before before' : Char) :
    mentionsFrom before [] rest = mentionsFrom before' [] rest := by
  cases rest with
  | nil => rfl
  | cons c rest => rw [mentionsFrom_cons (h c rfl).1, mentionsFrom_cons (h c rfl).1]

theorem mentionsFrom_word (hword : ∀ c ∈ text, isWordChar c = true) (word : List Char) :
    mentionsFrom before word (text ++ rest) = mentionsFrom before (word ++ text) rest := by
  induction text generalizing word with
  | nil => simp
  | cons c text ih =>
    rw [List.cons_append, mentionsFrom, if_pos (hword c (.head _)),
      ih fun d hd => hword d (.tail _ hd), List.append_assoc, List.singleton_append]

/-- A word before what ends it. -/
theorem mentionsFrom_of_word (h : Ends rest) (word : List Char) :
    mentionsFrom before word rest = mentionOf before word false ++ mentionsFrom ' ' [] rest := by
  cases rest with
  | nil => simp [mentionsFrom, mentionOf]
  | cons c rest =>
    obtain ⟨hc, hparen⟩ := h c rfl
    rw [mentionsFrom_cons hc, mentionsFrom, if_neg (by simp [hc]), decide_eq_false hparen]

theorem Ends.append (hb : Ends b) (hrest : Ends rest) : Ends (b ++ rest) := by
  cases b with
  | nil => exact hrest
  | cons c b => exact hb

/-! ## Parts of expressions -/

theorem mentionsOnly_nil : MentionsOnly P [] := fun before _ _ hrest =>
  ⟨[], nofun, mentionsFrom_of_ends hrest before ' '⟩

theorem mentionOf_identifier {x : String} {called : Bool} (hx : isIdentifier x = true)
    (hbefore : before ≠ '.') : mentionOf before x.toList called = [⟨x, called⟩] := by
  obtain ⟨c, tail, hlist, hc, -⟩ := isIdentifier_iff.1 hx
  rw [hlist, mentionOf, if_pos ⟨hc, hbefore⟩, ← hlist, String.ofList_toList]

/-- An identifier before what ends it. -/
theorem mentionsFrom_identifier {x : String} (hx : isIdentifier x = true) (hbefore : before ≠ '.')
    (h : Ends rest) : mentionsFrom before [] (x.toList ++ rest) =
      ⟨x, false⟩ :: mentionsFrom ' ' [] rest := by
  rw [mentionsFrom_word (isWordChar_of_isIdentifier hx), List.nil_append, mentionsFrom_of_word h,
    mentionOf_identifier hx hbefore, List.singleton_append]

theorem mentionsOnly_word {x : String} (hx : isIdentifier x = true) (hP : P ⟨x, false⟩) :
    MentionsOnly P x.toList := by
  intro before rest hbefore hrest
  exact ⟨[⟨x, false⟩], by simpa using hP, mentionsFrom_identifier hx hbefore hrest⟩

/-- Components are no names. -/
theorem mentionsOnly_component (hword : text.all isWordChar = true) :
    MentionsOnly P ('.' :: text) := by
  intro before rest _ hrest
  refine ⟨[], nofun, ?_⟩
  rw [List.cons_append, mentionsFrom_cons (by decide), mentionsFrom_word (List.all_eq_true.1 hword),
    List.nil_append, mentionsFrom_of_word hrest]
  cases text <;> simp [mentionOf]

/-- Numbers are no names. -/
theorem mentionsOnly_silent (hsilent : text.all (!isWordStart ·) = true) : MentionsOnly P text := by
  intro before rest _ hrest
  refine ⟨[], nofun, ?_⟩
  -- A word that begins with a digit is no name, however it goes on.
  have hnumber : ∀ (before : Char) (word : List Char), (∀ c ∈ word.head?, isWordStart c = false) →
      mentionsFrom before word (text ++ rest) = mentionsFrom ' ' [] rest := by
    induction text with
    | nil =>
      intro before word hword
      rw [List.nil_append, mentionsFrom_of_word hrest]
      cases word with
      | nil => rfl
      | cons d word => simp [mentionOf, hword d rfl]
    | cons c text ih =>
      intro before word hword
      rw [List.all_cons, Bool.and_eq_true, Bool.not_eq_true'] at hsilent
      have ih := ih hsilent.2
      rw [List.cons_append, mentionsFrom]
      split
      · refine ih before _ ?_
        cases word with
        | nil => simpa using hsilent.1
        | cons d word => exact hword
      · rw [ih c [] nofun]
        cases word with
        | nil => rfl
        | cons d word => simp [mentionOf, hword d rfl]
  exact hnumber before [] nofun

/-! ## Putting them together -/

theorem MentionsOnly.append (ha : MentionsOnly P a) (hb : MentionsOnly P b) (hends : Ends b) :
    MentionsOnly P (a ++ b) := by
  intro before rest hbefore hrest
  obtain ⟨ms, hms, hleft⟩ := ha before (b ++ rest) hbefore (hends.append hrest)
  obtain ⟨ms', hms', hright⟩ := hb ' ' rest (by decide) hrest
  refine ⟨ms ++ ms', fun m hm => ?_, ?_⟩
  · exact (List.mem_append.1 hm).elim (hms m) (hms' m)
  · rw [List.append_assoc, hleft, hright, List.append_assoc]

/-- Punctuation before a text, but for a point. -/
theorem MentionsOnly.after {s : List Char} (hb : MentionsOnly P b)
    (hs : s.all isPunctuation = true) : MentionsOnly P (s ++ b) := by
  induction s with
  | nil => exact hb
  | cons c s ih =>
    intro before rest _ hrest
    rw [List.all_cons, Bool.and_eq_true, isPunctuation, Bool.and_eq_true, Bool.not_eq_true',
      bne_iff_ne] at hs
    obtain ⟨⟨hc, hpoint⟩, hs⟩ := hs
    obtain ⟨ms, hms, heq⟩ := ih hs c rest hpoint hrest
    exact ⟨ms, hms, by rw [List.cons_append, List.cons_append, mentionsFrom_cons hc, heq]⟩

theorem mentionsOnly_call {f : String} (hf : isIdentifier f = true) (hP : P ⟨f, true⟩)
    (hb : MentionsOnly P b) : MentionsOnly P (f.toList ++ '(' :: (b ++ [')'])) := by
  intro before rest hbefore hrest
  obtain ⟨ms, hms, heq⟩ := hb '(' (')' :: rest) (by decide) (ends_cons (by decide) (by decide) _)
  refine ⟨⟨f, true⟩ :: ms, ?_, ?_⟩
  · intro m hm
    rcases List.mem_cons.1 hm with rfl | hm
    · exact hP
    · exact hms m hm
  · have hparen : isWordChar '(' = false := by decide
    rw [List.append_assoc, mentionsFrom_word (isWordChar_of_isIdentifier hf), List.nil_append,
      List.cons_append, mentionsFrom, hparen, List.append_assoc, List.singleton_append, heq,
      mentionsFrom_cons (by decide), mentionsFrom_of_ends hrest ')' ' ']
    simp [mentionOf_identifier hf hbefore]

theorem mentionsOnly_intercalate {args : List (List Char)} (h : ∀ arg ∈ args, MentionsOnly P arg) :
    MentionsOnly P (List.intercalate [',', ' '] args) := by
  induction args with
  | nil => exact mentionsOnly_nil
  | cons arg args ih =>
    have harg := h arg (.head _)
    have hargs := ih fun arg' harg' => h arg' (.tail _ harg')
    cases args with
    | nil => simpa [List.intercalate] using harg
    | cons arg' args =>
      rw [List.intercalate_cons_cons, List.append_assoc]
      exact harg.append (hargs.after (s := [',', ' ']) (by decide))
        (ends_cons (by decide) (by decide) _)

/-! ## Names that stand alone -/

/-- The name stands in the text, after punctuation and before something else that ends it. -/
def Occurs (x : String) (text : List Char) : Prop :=
  ∃ front c rest, text = front ++ c :: (x.toList ++ rest) ∧ isPunctuation c = true ∧ rest ≠ [] ∧
    Ends rest

theorem Occurs.mono {x : String} {text' : List Char} (h : Occurs x text) (hsub : text <:+: text') :
    Occurs x text' := by
  obtain ⟨front, c, rest, rfl, hc, hne, hends⟩ := h
  obtain ⟨s, t, rfl⟩ := hsub
  refine ⟨s ++ front, c, rest ++ t, by simp, hc, by simp [hne], ?_⟩
  cases rest with
  | nil => exact absurd rfl hne
  | cons d rest => exact hends

/-- A text that begins anew keeps its names, whatever comes before it. -/
theorem mem_mentionsFrom_append {m : Mention} (hc : isWordChar c = false)
    (h : m ∈ mentionsFrom c [] rest) (front word : List Char) (before : Char) :
    m ∈ mentionsFrom before word (front ++ c :: rest) := by
  induction front generalizing before word with
  | nil =>
    rw [List.nil_append, mentionsFrom, if_neg (by simp [hc])]
    exact List.mem_append_right _ h
  | cons d front ih =>
    rw [List.cons_append, mentionsFrom]
    split
    · exact ih _ _
    · exact List.mem_append_right _ (ih _ _)

theorem Occurs.mem_mentions {x s : String} (hx : isIdentifier x = true) (h : Occurs x s.toList) :
    ⟨x, false⟩ ∈ mentions s := by
  obtain ⟨front, c, rest, htext, hc, -, hends⟩ := h
  rw [isPunctuation, Bool.and_eq_true, Bool.not_eq_true', bne_iff_ne] at hc
  rw [mentions, htext]
  refine mem_mentionsFrom_append hc.1 ?_ front [] ' '
  rw [mentionsFrom_identifier hx hc.2 hends]
  exact .head _

theorem infix_intercalate (sep : List Char) {args : List (List Char)} (h : a ∈ args) :
    a <:+: List.intercalate sep args := by
  induction args with
  | nil => cases h
  | cons arg args ih =>
    cases args with
    | nil =>
      obtain rfl := List.mem_singleton.1 h
      simp [List.intercalate]
    | cons arg' args =>
      rw [List.intercalate_cons_cons]
      rcases List.mem_cons.1 h with rfl | h
      · exact ⟨[], sep ++ List.intercalate sep (arg' :: args), by simp⟩
      · exact (ih h).trans (List.suffix_append _ _).isInfix

end ShaderNodes.Text

namespace ShaderNodes.Expr

open Text Grammar

/-! ## Expressions -/

theorem toList_text (e : Expr) : e.text.toList = e.flatMap (·.text.toList) := by
  rw [text, String.toList_join, List.flatMap_map]

theorem toList_text_append (a b : Expr) :
    (text (a ++ b)).toList = a.text.toList ++ b.text.toList := by
  simp only [toList_text, List.flatMap_append]

theorem text_operand (s : String) : (operand s).text = s := by
  simp [text, operand, Piece.text]

theorem text_plain (s : String) : (plain s).text = s := by
  simp [text, plain, Piece.text]

theorem toList_text_intercalate (args : List Expr) :
    (text (List.intercalate [.plain ", "] args)).toList =
      List.intercalate [',', ' '] (args.map (·.text.toList)) := by
  induction args with
  | nil => rfl
  | cons arg args ih =>
    cases args with
    | nil => simp [List.intercalate]
    | cons arg' args =>
      rw [List.intercalate_cons_cons, toList_text_append, toList_text_append, ih]
      simp [toList_text, Piece.text, List.intercalate_cons_cons]

theorem toList_text_call (f : String) (args : List Expr) :
    (call f args).text.toList =
      f.toList ++ '(' :: (List.intercalate [',', ' '] (args.map (·.text.toList)) ++ [')']) := by
  rw [← toList_text_intercalate]
  simp [call, toList_text, Piece.text]

/-- A call mentions what it calls and what its arguments mention. -/
theorem mentionsOnly_text_call {P : Mention → Prop} {f : String} {args : List Expr}
    (hf : isIdentifier f = true) (hP : P ⟨f, true⟩)
    (hargs : ∀ arg ∈ args, MentionsOnly P arg.text.toList) :
    MentionsOnly P (call f args).text.toList := by
  rw [toList_text_call]
  refine mentionsOnly_call hf hP (mentionsOnly_intercalate fun arg harg => ?_)
  obtain ⟨e, he, rfl⟩ := List.mem_map.1 harg
  exact hargs e he

/-- The first of several arguments of a call stands alone. -/
theorem occurs_text_call_head (f x : String) (arg : Expr) (args : List Expr) :
    Occurs x (call f (operand x :: arg :: args)).text.toList := by
  rw [toList_text_call, List.map_cons, List.map_cons, List.intercalate_cons_cons, text_operand]
  refine ⟨f.toList, '(',
    [',', ' '] ++ List.intercalate [',', ' '] (arg.text.toList :: args.map (·.text.toList))
    ++ [')'], by simp, by decide, by simp, ends_cons (by decide) (by decide) _⟩

theorem occurs_text_call {f x : String} {arg : Expr} {args : List Expr} (harg : arg ∈ args)
    (h : Occurs x arg.text.toList) : Occurs x (call f args).text.toList := by
  have hmem : arg.text.toList ∈ args.map (·.text.toList) := List.mem_map.2 ⟨arg, harg, rfl⟩
  rw [toList_text_call]
  refine h.mono ((infix_intercalate [',', ' '] hmem).trans ⟨f.toList ++ ['('], [')'], ?_⟩)
  simp

theorem mentionsOnly_text_binary {P : Mention → Prop} {op : String} {a b : Expr}
    (hop : op.toList.all isPunctuation = true) (ha : MentionsOnly P a.text.toList)
    (hb : MentionsOnly P b.text.toList) : MentionsOnly P (binary op a b).text.toList := by
  have htext : (binary op a b).text.toList =
      a.text.toList ++ ((' ' :: (op.toList ++ [' '])) ++ b.text.toList) := by
    simp [binary, toList_text, Piece.text]
  have hspace : isPunctuation ' ' = true := by decide
  rw [htext]
  refine ha.append (hb.after ?_) (ends_cons (by decide) (by decide) _)
  rw [List.all_cons, List.all_append, hop, List.all_cons, hspace]
  rfl

end ShaderNodes.Expr
