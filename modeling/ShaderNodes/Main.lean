import ShaderNodes.Sample

/-!
# The command

Prints the programs of the sample graph.
-/

/-- Prints the sample; the exit code is one if it cannot be compiled. -/
def main : IO UInt32 := do
  match ShaderNodes.Sample.run with
  | .ok text =>
    IO.print text
    return 0
  | .error message =>
    IO.eprintln ("Error: " ++ message)
    return 1
