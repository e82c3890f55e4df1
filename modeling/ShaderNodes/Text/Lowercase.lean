import ShaderNodes.Text.CaseTable

/-!
# Lower case

`lowercase` maps each character by itself, with the two exceptions of the Unicode standard that
need no language: a capital sigma at the end of a word has a form of its own, and the dotted
capital I becomes two characters.
-/

namespace ShaderNodes.Text

def isCased (c : Char) : Bool := casedRanges.contains c

def isCaseIgnorable (c : Char) : Bool := caseIgnorableRanges.contains c

/-- The lower-case form of a character that does not depend on its neighbours. -/
def lowerChar (c : Char) : List Char :=
  if c.toNat < 0x80 then [c.toLower]
  else if c.toNat = 0x130 then ['i', '\u0307']
  else match lowerRuns.findSome? (·.find? c.toNat) with
    | some n => [Char.ofNat n]
    | none => [c]

/-- Whether the first character that is not passed over is cased. -/
def startsCased (l : List Char) : Bool :=
  match l.dropWhile isCaseIgnorable with
  | c :: _ => isCased c
  | [] => false

/-- Lower-cases a list of characters, given those before it, nearest first: a capital sigma is
final when a cased character comes before it and none after. -/
def lowerFrom : List Char → List Char → List Char
  | _, [] => []
  | before, c :: rest =>
    (if c = 'Σ' then [if startsCased before && !startsCased rest then 'ς' else 'σ']
      else lowerChar c) ++ lowerFrom (c :: before) rest

/-- The text in lower case. -/
def lowercase (s : String) : String := String.ofList (lowerFrom [] s.toList)

end ShaderNodes.Text
