import ShaderNodes.Draft.Basic

/-!
# Writing to a draft

A node is evaluated step by step: it checks what it is given and writes to the draft as it goes. A
check that fails ends the evaluation there, and what was written before it stays written.
-/

namespace ShaderNodes

/-- A draft that is written to, and what the writing has reported. -/
structure Writer where
  draft : Draft
  log : List Event := []

/-- Makes one addition to the draft. -/
def Writer.apply (w : Writer) (e : Edit) : Writer :=
  ⟨w.draft.apply e, w.log ++ w.draft.eventsOf e⟩

/-- Steps that may read and write a draft, up to the first check that fails. -/
abbrev Writing := ExceptT Skip (StateM Writer)

namespace Writing

/-- The result of the steps, and the writer after them. -/
def runOn {α : Type} (steps : Writing α) (w : Writer) : Except Skip α × Writer := steps.run.run w

/-- Makes one addition. -/
def edit (e : Edit) : Writing Unit := modify (·.apply e)

/-- Adds a statement to the main function. -/
def statement (s : Statement) : Writing Unit := edit (.statement s)

/-- Declares a variable, and gives it as a value. -/
def declare (name : String) (type : SocketType) (value : Expr) : Writing Value := do
  statement (.declare type.glsl name value)
  pure ⟨name, type⟩

/-- Declares a uniform; of one name the first stays. -/
def uniform (name : Name) (binding : Binding) : Writing Unit := edit (.uniform name binding)

/-- Adds a shared function, and says whether its name was free. -/
def function (name : Name) (source : String) : Writing Bool := do
  let taken := (← get).draft.hasFunction name
  edit (.function name source)
  pure !taken

/-- Turns a feature on. -/
def enable (feature : Feature) : Writing Unit := edit (.enable feature)

end Writing

end ShaderNodes
