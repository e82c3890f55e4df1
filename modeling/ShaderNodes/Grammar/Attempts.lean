/-!
# What a failed parse reports

A grammar is told by named rules. When a text does not match, the report names the rules that were
tried at the furthest position at which any rule failed. `Attempts` is that record. A position is
the number of characters left there, so further means fewer.
-/

namespace ShaderNodes.Grammar

/-- The named rules of the grammar. -/
inductive Rule where
  | endOfInput
  | ident
  | socketType
  | qualifier
  | parameter
  | parameters
  | body
  | function
  | number
  | decimal
  | scalarLiteral
  | vectorLiteral
  deriving DecidableEq, Repr

/-- All rules, in the order in which a report lists them. -/
def Rule.all : List Rule :=
  [.endOfInput, .ident, .socketType, .qualifier, .parameter, .parameters, .body, .function,
    .number, .decimal, .scalarLiteral, .vectorLiteral]

/-- The name of a rule in reports. -/
def Rule.label : Rule → String
  | .endOfInput => "EOI"
  | .ident => "ident"
  | .socketType => "socket_type"
  | .qualifier => "qualifier"
  | .parameter => "parameter"
  | .parameters => "parameters"
  | .body => "body"
  | .function => "function"
  | .number => "number"
  | .decimal => "decimal"
  | .scalarLiteral => "scalar_literal"
  | .vectorLiteral => "vector_literal"

/-- The rules that failed at the furthest position so far. -/
structure Attempts where
  /-- The number of characters left at the furthest position. -/
  left : Nat
  expected : List Rule
  deriving DecidableEq, Repr

namespace Attempts

/-- Nothing tried yet on a text of `size` characters. -/
def start (size : Nat) : Attempts := ⟨size, []⟩

/-- The number of rules recorded at a position. -/
def countAt (a : Attempts) (left : Nat) : Nat := if a.left = left then a.expected.length else 0

/-- Records that a rule failed that began with `left` characters left, where `before` rules had been
recorded at that position when it began. A single rule recorded there since then says more than the
rule that called it and is kept; several are replaced by their caller. -/
def fail (a : Attempts) (rule : Rule) (left before : Nat) : Attempts :=
  if a.countAt left = before + 1 then a
  else if left = a.left then { a with expected := a.expected.take before ++ [rule] }
  else if left < a.left then ⟨left, [rule]⟩
  else a

end Attempts

end ShaderNodes.Grammar
