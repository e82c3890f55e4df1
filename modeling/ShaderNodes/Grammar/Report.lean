import ShaderNodes.Grammar.Rules

/-!
# Positions in a text and the report of a failed parse

A report shows the line at which the furthest tries failed, marks the column and lists the rules
that were tried there.
-/

namespace ShaderNodes.Grammar

/-- A line and a column, both counted from one; a column counts characters. -/
structure Position where
  line : Nat
  column : Nat
  deriving DecidableEq, Repr

namespace Position

/-- The characters before the position with `left` characters left. -/
def before (text : List Char) (left : Nat) : List Char := text.take (text.length - left)

/-- The position with `left` characters left. -/
def ofLeft (text : List Char) (left : Nat) : Position :=
  let before := before text left
  ⟨1 + before.count '\n', 1 + (before.reverse.takeWhile (· ≠ '\n')).length⟩

def text (p : Position) : String := toString p.line ++ ":" ++ toString p.column

end Position

/-- Where in a text something is wrong. -/
inductive Location where
  | point (position : Position)
  | span (start stop : Position)
  deriving DecidableEq, Repr

namespace Location

/-- The place of a piece of the text. -/
def ofExtent (text : List Char) (e : Extent) : Location :=
  .span (.ofLeft text e.start) (.ofLeft text e.stop)

def text : Location → String
  | .point p => p.text
  | .span p q => p.text ++ " -> " ++ q.text

end Location

/-- What is told about a text that does not match. -/
structure Report where
  position : Position
  /-- The line of the text as it is shown. -/
  line : List Char
  expected : List Rule
  deriving DecidableEq, Repr

namespace Report

/-- The line around a position, its line feed included. -/
def lineAt (text : List Char) (left : Nat) : List Char :=
  let after := text.drop (text.length - left)
  ((Position.before text left).reverse.takeWhile (· ≠ '\n')).reverse
    ++ after.takeWhile (· ≠ '\n') ++ (after.dropWhile (· ≠ '\n')).take 1

/-- Shows line ends as symbols. -/
def showNewline (c : Char) : Char :=
  if c = '\r' then '␍' else if c = '\n' then '␊' else c

/-- The report on a text. Line ends show only where one of them stands at the position itself. -/
def ofAttempts (text : List Char) (a : Attempts) : Report where
  position := .ofLeft text a.left
  line :=
    if (text.drop (text.length - a.left)).head?.any isNewline then
      (lineAt text a.left).map showNewline
    else (lineAt text a.left).filter (!isNewline ·)
  expected := Rule.all.filter (· ∈ a.expected)

/-- Names as a choice: `a`, `a or b`, `a, b, or c`. -/
def choice : List String → String
  | [] => ""
  | [a] => a
  | [a, b] => a ++ " or " ++ b
  | a :: rest => ", ".intercalate (a :: rest.dropLast) ++ ", or " ++ rest.getLastD ""

/-- The mark under the line: tabs are kept so that it stands under its column. -/
def underline (r : Report) : String :=
  String.ofList ((r.line.take (r.position.column - 1)).map fun c => if c = '\t' then c else ' ')
    ++ "^---"

def text (r : Report) : String :=
  let line := toString r.position.line
  let pad := String.ofList (List.replicate line.length ' ')
  "\n".intercalate
    [pad ++ "--> " ++ r.position.text,
      pad ++ " |",
      line ++ " | " ++ String.ofList r.line,
      pad ++ " | " ++ r.underline,
      pad ++ " |",
      pad ++ " = expected " ++ choice (r.expected.map Rule.label)]

end Report

end ShaderNodes.Grammar
