import ShaderNodes.Grammar.Attempts

/-!
# Parsers that remember what they tried

A parser takes the characters left and gives an `Outcome`: what it matched, if it matched, and what
its tries add to the record of attempts. The match never depends on the record, so that statements
about the language of a parser speak of `parsed` alone.

Choice is ordered and repetition greedy: neither gives back what it has taken. The `parsed_*` lemmas
say what each combinator matches.
-/

namespace ShaderNodes.Grammar

/-- What a parser makes of a text: its value with the characters left, or nothing, and the effect of
its tries on the record of attempts. -/
structure Outcome (α : Type) where
  parsed : Option (α × List Char)
  record : Attempts → Attempts

/-- A parser, from the characters left. -/
def Parser (α : Type) : Type := List Char → Outcome α

namespace Parser

variable {α β : Type}

instance : Monad Parser where
  pure a := fun s => ⟨some (a, s), id⟩
  bind p f := fun s =>
    match p s with
    | ⟨none, record⟩ => ⟨none, record⟩
    | ⟨some (a, rest), record⟩ =>
      match f a rest with
      | ⟨parsed, record'⟩ => ⟨parsed, record' ∘ record⟩

/-- A plain token, which leaves no record. -/
def token (lex : List Char → Option (α × List Char)) : Parser α := fun s => ⟨lex s, id⟩

/-- A single character. -/
def char (c : Char) : Parser Unit :=
  token fun
    | [] => none
    | d :: rest => if d = c then some ((), rest) else none

/-- A named rule: when it fails, the record takes it up. -/
def rule (name : Rule) (p : Parser α) : Parser α := fun s =>
  match p s with
  | ⟨some result, record⟩ => ⟨some result, record⟩
  | ⟨none, record⟩ => ⟨none, fun a => (record a).fail name s.length (a.countAt s.length)⟩

/-- Tries a parser and goes on where it began if it fails. -/
def optional (p : Parser α) : Parser (Option α) := fun s =>
  match p s with
  | ⟨none, record⟩ => ⟨some (none, s), record⟩
  | ⟨some (a, rest), record⟩ => ⟨some (some a, rest), record⟩

/-- As many matches as there are, at most `n`. -/
def manyUpTo (p : Parser α) : Nat → Parser (List α)
  | 0 => pure []
  | n + 1 => do
    match ← optional p with
    | none => pure []
    | some a =>
      let more ← manyUpTo p n
      pure (a :: more)

/-- As many matches as there are, for a parser that takes a character each time: the last try, with
no character left, is one more than their greatest number. -/
def many (p : Parser α) : Parser (List α) := fun s => manyUpTo p (s.length + 1) s

/-- Runs a parser on a whole text: its value, or the attempts to report. -/
def run (p : Parser α) (text : List Char) : Except Attempts α :=
  match p text with
  | ⟨some (a, _), _⟩ => .ok a
  | ⟨none, record⟩ => .error (record (.start text.length))

/-! ## What is matched -/

@[simp] theorem parsed_pure (a : α) (s : List Char) :
    ((pure a : Parser α) s).parsed = some (a, s) := rfl

@[simp] theorem parsed_bind (p : Parser α) (f : α → Parser β) (s : List Char) :
    ((p >>= f) s).parsed = (p s).parsed.bind fun r => (f r.1 r.2).parsed := by
  show (match p s with
    | ⟨none, record⟩ => (⟨none, record⟩ : Outcome β)
    | ⟨some (a, rest), record⟩ => ⟨(f a rest).parsed, (f a rest).record ∘ record⟩).parsed = _
  obtain ⟨_ | ⟨_, _⟩, _⟩ := p s <;> rfl

@[simp] theorem parsed_token (lex : List Char → Option (α × List Char)) (s : List Char) :
    (token lex s).parsed = lex s := rfl

@[simp] theorem parsed_rule (name : Rule) (p : Parser α) (s : List Char) :
    (rule name p s).parsed = (p s).parsed := by
  rw [rule]
  obtain ⟨_ | _, _⟩ := p s <;> rfl

@[simp] theorem parsed_optional (p : Parser α) (s : List Char) :
    (optional p s).parsed =
      match (p s).parsed with
      | none => some (none, s)
      | some (a, rest) => some (some a, rest) := by
  rw [optional]
  obtain ⟨_ | ⟨_, _⟩, _⟩ := p s <;> rfl

theorem run_eq_ok_iff (p : Parser α) (text : List Char) (a : α) :
    p.run text = .ok a ↔ ∃ rest, (p text).parsed = some (a, rest) := by
  rw [run]
  obtain ⟨_ | ⟨_, _⟩, _⟩ := p text <;> simp

end Parser

end ShaderNodes.Grammar
