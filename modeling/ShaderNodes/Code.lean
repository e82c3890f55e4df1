/-!
# Generated code

Expressions and statements of the generated program. An expression is kept as the pieces it is put
together from. What it mentions is a matter of its text.
-/

namespace ShaderNodes

/-- A piece of an expression. -/
inductive Piece where
  /-- Text that names nothing: punctuation, numbers, components. -/
  | plain (text : String)
  /-- A variable that is read. -/
  | operand (text : String)
  /-- A function or constructor that is called. -/
  | callee (text : String)
  deriving DecidableEq, Repr

def Piece.text : Piece → String
  | .plain s | .operand s | .callee s => s

/-- A GLSL expression, as its pieces from left to right. -/
abbrev Expr := List Piece

namespace Expr

def text (e : Expr) : String := String.join (e.map Piece.text)

/-- A variable. -/
def operand (s : String) : Expr := [.operand s]

/-- Text that names nothing. -/
def plain (s : String) : Expr := [.plain s]

/-- `a op b`. -/
def binary (op : String) (a b : Expr) : Expr := a ++ [.plain (" " ++ op ++ " ")] ++ b

/-- `f(a, b, …)`. -/
def call (f : String) (args : List Expr) : Expr :=
  .callee f :: .plain "(" :: (List.intercalate [.plain ", "] args ++ [.plain ")"])

end Expr

/-- A statement of the main function, without its semicolon. -/
inductive Statement where
  /-- Given as text. -/
  | verbatim (text : String)
  /-- `type name = value`. -/
  | declare (type name : String) (value : Expr)
  /-- `target = value`. -/
  | assign (target : String) (value : Expr)
  deriving DecidableEq, Repr

def Statement.text : Statement → String
  | .verbatim s => s
  | .declare type name value => type ++ " " ++ name ++ " = " ++ value.text
  | .assign target value => target ++ " = " ++ value.text

end ShaderNodes
