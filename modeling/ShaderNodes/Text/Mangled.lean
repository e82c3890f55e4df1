/-!
# Identifier-safe text

`mangle` encodes any text with ASCII letters, digits and underscores only, byte by byte of its
UTF-8 form. An underscore in the result is always followed by `u`, or by `x` and two hexadecimal
digits, so the encoding can be read back and a suffix such as `_map` never looks like a part of it.
-/

namespace ShaderNodes.Text

/-- How a byte is written: letters and digits as they are, the underscore as `_u`, any other byte
as `_x` and its two hexadecimal digits. -/
def mangleByte (b : UInt8) : List Char :=
  let c := Char.ofNat b.toNat
  if c = '_' then ['_', 'u']
  else if c.isAlphanum then [c]
  else ['_', 'x', Nat.digitChar (b.toNat / 16), Nat.digitChar (b.toNat % 16)]

/-- The identifier-safe form of a text. -/
def mangle (s : String) : String :=
  String.ofList (s.toUTF8.data.toList.flatMap mangleByte)

end ShaderNodes.Text
