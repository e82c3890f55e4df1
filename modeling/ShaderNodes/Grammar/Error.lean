import ShaderNodes.Grammar.Report

/-!
# Errors in function definitions and literals

An error has a cause and a place. The causes are a text that does not match the grammar, and faults
of a text that does.
-/

namespace ShaderNodes.Grammar

/-- A fault of a text that matches the grammar. -/
inductive Fault where
  /-- A parameter has the name of an earlier one. -/
  | redefinition (name : String)
  /-- A literal has another number of components than asked for. -/
  | arity (expected got : Nat)
  /-- No type has this many components. -/
  | unsupportedDimension (dimension : Nat)
  /-- Something is not what its place asks for, or is not there. No text that matches the grammar
  has this fault. -/
  | malformed (reason : String)
  deriving DecidableEq, Repr

def Fault.message : Fault → String
  | .redefinition name => "Redefinition of `" ++ name ++ "`"
  | .arity expected got =>
    "Expected " ++ toString expected ++ " components, got " ++ toString got
  | .unsupportedDimension d => "No socket type has dimension " ++ toString d
  | .malformed reason => "Malformed " ++ reason

/-- The part of a text that a fault is in. -/
inductive Part where
  | signature
  | parameters
  | literal
  deriving DecidableEq, Repr

def Part.label : Part → String
  | .signature => "Signature"
  | .parameters => "Parameters"
  | .literal => "Literal"

/-- Why a text is refused. -/
inductive Cause where
  | mismatch (report : Report)
  | fault (what : Fault) (part : Part)
  deriving DecidableEq, Repr

def Cause.message : Cause → String
  | .mismatch report => report.text
  | .fault f part => f.message ++ " in " ++ part.label

/-- Why and where a text is refused. -/
structure Error where
  cause : Cause
  location : Location
  deriving DecidableEq, Repr

namespace Error

/-- The error for a text that does not match. -/
def ofAttempts (text : List Char) (a : Attempts) : Error :=
  ⟨.mismatch (.ofAttempts text a), .point (.ofLeft text a.left)⟩

def message (e : Error) : String := e.cause.message ++ " at " ++ e.location.text

end Error

/-- Parses a whole text, with a report when it does not match. -/
def Parser.parse {α : Type} (p : Parser α) (text : List Char) : Except Error α :=
  (p.run text).mapError (.ofAttempts text)

end ShaderNodes.Grammar
