import ShaderNodes.Grammar.Parser
import ShaderNodes.Grammar.Token

/-!
# The rules of the grammar

Function definitions and constant literals. Blanks may stand between the tokens of a definition and
nowhere in a literal. A rule gives its pair, which holds the pairs of the rules inside it; what a
text means is read from these.

* `function`: a type, a name, parameters in parentheses and a block, up to the end of the text.
* `scalarLiteral`: one number with a fraction; `vectorLiteral`: numbers between commas.
-/

namespace ShaderNodes.Grammar

/-- A piece of the text, between two positions told by the number of characters left. -/
structure Extent where
  start : Nat
  stop : Nat
  deriving DecidableEq, Repr

/-- A rule that was matched: its text and its place, and the rules matched inside it, in order. -/
structure Pair where
  rule : Rule
  text : String
  extent : Extent
  inner : List Pair

namespace Parser

/-- Blanks and comments. -/
def blanks : Parser Unit := token fun s => some ((), skip s)

/-- The end of the text. -/
def endOfInput : Parser Unit :=
  rule .endOfInput <| token fun
    | [] => some ((), [])
    | _ => none

/-- What a parser matches, as the pair of a rule. -/
def matched (name : Rule) (p : Parser (List Pair)) : Parser (List Pair) := fun s =>
  match p s with
  | ⟨none, record⟩ => ⟨none, record⟩
  | ⟨some (inner, rest), record⟩ =>
    let text := String.ofList (s.take (s.length - rest.length))
    ⟨some ([⟨name, text, ⟨s.length, rest.length⟩, inner⟩], rest), record⟩

/-- The pair of a rule that is made of characters: there are no pairs inside it. -/
def leaf {α : Type} (name : Rule) (p : Parser α) : Parser (List Pair) :=
  matched name do
    let _ ← p
    pure []

/-- A rule that is made of other rules, as a pair around theirs. -/
def compound (name : Rule) (p : Parser (List Pair)) : Parser (List Pair) :=
  matched name (rule name p)

/-- The pairs of as many matches as there are, blanks between them. -/
def spaced (p : Parser (List Pair)) : Parser (List Pair) := do
  match ← optional p with
  | none => pure []
  | some first =>
    let more ← many do
      blanks
      p
    pure (first ++ more.flatten)

def ident : Parser String := rule .ident (token Grammar.ident)

def socketType : Parser String := rule .socketType (token (word typeWords))

def qualifier : Parser String := rule .qualifier (token (word qualifierWords))

/-- A parameter: qualifiers, a type and a name. -/
def parameter : Parser (List Pair) :=
  compound .parameter do
    let qualifiers ← spaced (leaf .qualifier qualifier)
    blanks
    let type ← leaf .socketType socketType
    blanks
    let name ← leaf .ident ident
    pure (qualifiers ++ (type ++ name))

/-- Parameters between commas, or none. -/
def parameters : Parser (List Pair) :=
  compound .parameters do
    let found ← optional do
      let first ← parameter
      blanks
      let more ← spaced do
        char ','
        blanks
        parameter
      pure (first ++ more)
    pure (found.getD [])

def body : Parser Unit := rule .body (token block)

/-- A function definition, up to the end of the text. -/
def function : Parser (List Pair) :=
  compound .function do
    blanks
    let returnType ← leaf .socketType socketType
    blanks
    let name ← leaf .ident ident
    blanks
    char '('
    blanks
    let parameters ← parameters
    blanks
    char ')'
    blanks
    let body ← leaf .body body
    blanks
    let ending ← leaf .endOfInput endOfInput
    pure (returnType ++ (name ++ (parameters ++ (body ++ ending))))

def number : Parser String := rule .number (token Grammar.number)

def decimal : Parser String := rule .decimal (token Grammar.decimal)

/-- One number with a fraction, as the whole text. -/
def scalarLiteral : Parser (List Pair) :=
  compound .scalarLiteral do
    let single ← leaf .decimal decimal
    let ending ← leaf .endOfInput endOfInput
    pure (single ++ ending)

/-- Numbers between commas, as the whole text. -/
def vectorLiteral : Parser (List Pair) :=
  compound .vectorLiteral do
    let first ← leaf .number number
    let more ← many do
      char ','
      leaf .number number
    let ending ← leaf .endOfInput endOfInput
    pure (first ++ (more.flatten ++ ending))

end Parser

end ShaderNodes.Grammar
