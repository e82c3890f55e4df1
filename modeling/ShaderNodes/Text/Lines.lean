/-!
# Texts made of lines
-/

namespace ShaderNodes.Text

/-- The text of the given lines, each with a line feed at its end. -/
def lines (l : List String) : String := String.join (l.map (· ++ "\n"))

end ShaderNodes.Text
