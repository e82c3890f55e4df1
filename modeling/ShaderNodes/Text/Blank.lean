import ShaderNodes.Text.CharRanges

/-!
# Blank characters and trimming

Blank means the White_Space property of Unicode. `trim` and `trimEnd` drop blanks at the ends of a
text and `isBlankText` says that nothing else is in it.
-/

namespace ShaderNodes.Text

/-- The characters with the property White_Space. -/
def blankRanges : CharRanges :=
  [(0x9, 0xD), (0x20, 0x20), (0x85, 0x85), (0xA0, 0xA0), (0x1680, 0x1680), (0x2000, 0x200A),
  (0x2028, 0x2029), (0x202F, 0x202F), (0x205F, 0x205F), (0x3000, 0x3000)]

def isBlank (c : Char) : Bool := blankRanges.contains c

/-- Whether a text has no character but blanks. -/
def isBlankText (s : String) : Bool := s.toList.all isBlank

/-- Drops the blanks at the end of a list of characters. -/
def dropBlankEnd (l : List Char) : List Char := (l.reverse.dropWhile isBlank).reverse

/-- The text without the blanks at its end. -/
def trimEnd (s : String) : String := String.ofList (dropBlankEnd s.toList)

/-- The text without the blanks at both ends. -/
def trim (s : String) : String := String.ofList (dropBlankEnd (s.toList.dropWhile isBlank))

end ShaderNodes.Text
