import ShaderNodes.Text.HiddenTable

/-!
# Quoted text in messages

A quoted text stands between double quotes. Quotes and backslashes take a backslash, four control
characters have a letter, and every other character that would not show is written by its number.
-/

namespace ShaderNodes.Text

def isHidden (c : Char) : Bool := hiddenRanges.contains c

/-- How a character is written between quotes. -/
def quoteChar (c : Char) : List Char :=
  match c with
  | '"' => ['\\', '"']
  | '\\' => ['\\', '\\']
  | '\x00' => ['\\', '0']
  | '\t' => ['\\', 't']
  | '\n' => ['\\', 'n']
  | '\r' => ['\\', 'r']
  | c =>
    if isHidden c then ['\\', 'u', '\x7b'] ++ Nat.toDigits 16 c.toNat ++ ['\x7d'] else [c]

/-- The text between double quotes. -/
def quote (s : String) : String :=
  "\"" ++ String.ofList (s.toList.flatMap quoteChar) ++ "\""

/-- Items between square brackets. -/
def bracketed (items : List String) : String := "[" ++ ", ".intercalate items ++ "]"

end ShaderNodes.Text
