import ShaderNodes.Socket

/-!
# Why a node is skipped

A node that cannot be evaluated adds nothing to the shader, and the pass goes on without it.
-/

namespace ShaderNodes

/-- Why a node is skipped. -/
inductive Skip where
  /-- An input has no value. -/
  | missing (side : Side) (name : Name)
  /-- Several inputs have no value. -/
  | missingMany (side : Side) (names : List Name)
  /-- Two inputs do not go together. -/
  | mismatchedTypes (first second : Name × SocketType)
  /-- A value has another type than its socket. -/
  | invalidType (name : Name) (got expected : SocketType)
  /-- Static data is not there, blank, or not readable. -/
  | unset (key : String)
  deriving DecidableEq, Repr

namespace Skip

/-- The skip for inputs without a value, if there are any. -/
def ofAbsent : List Name → Option Skip
  | [] => none
  | [name] => some (.missing .input name)
  | names => some (.missingMany .input names)

theorem eq_nil_of_ofAbsent {names : List Name} (h : ofAbsent names = none) : names = [] := by
  obtain _ | ⟨_, _ | _⟩ := names
  · rfl
  · cases h
  · cases h

def message : Skip → String
  | .missing side name => "Missing " ++ name ++ " on " ++ side.label ++ " side"
  | .missingMany side names =>
    "Missing " ++ ", ".intercalate names ++ " on " ++ side.label ++ " side"
  | .mismatchedTypes first second =>
    "Mismatched type between " ++ first.1 ++ " (" ++ first.2.label ++ ") and " ++ second.1 ++ " ("
      ++ second.2.label ++ ")"
  | .invalidType name got expected =>
    "Invalid type " ++ got.label ++ " for " ++ name ++ ", expected " ++ expected.label
  | .unset key => "Static data `" ++ key ++ "` is unset or malformed"

end Skip

end ShaderNodes
