/-!
# Sets of characters by code point

A character class of the Unicode standard is a list of ranges of code points, both ends included.
The tables of this folder follow version 17 of the standard.
-/

namespace ShaderNodes.Text

/-- Ranges of code points, both ends included. -/
abbrev CharRanges := List (Nat × Nat)

/-- Whether a character lies in one of the ranges. -/
def CharRanges.contains (table : CharRanges) (c : Char) : Bool :=
  table.any fun r => r.1 ≤ c.toNat && c.toNat ≤ r.2

end ShaderNodes.Text
