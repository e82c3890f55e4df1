/-!
# Tokens

The lexical layer of the grammar. Each token takes a text and gives what it matched and the rest, or
nothing.

* `skip` drops spaces and comments.
* `ident`, `word`: identifiers, and keywords that no identifier character follows.
* `number`, `decimal`: signed decimal numbers, the second with a fraction.
* `block`: a brace-balanced block.
-/

namespace ShaderNodes.Grammar

/-! ## Blanks between tokens -/

/-- The characters that may stand between tokens. -/
def isSpace (c : Char) : Bool := c = ' ' || c = '\t' || c = '\r' || c = '\n'

/-- The characters that end a line. -/
def isNewline (c : Char) : Bool := c = '\r' || c = '\n'

/-- Where in the blanks between two tokens a scan is. -/
inductive Gap where
  | plain
  /-- In a comment up to the end of the line. -/
  | line
  /-- In a block comment; if it is not closed, the text from `start` on is no comment. -/
  | block (start : List Char)

/-- Drops blanks and comments, from a place in them. -/
def skipFrom : Gap → List Char → List Char
  | .plain, '/' :: '/' :: rest => skipFrom .line rest
  | .plain, '/' :: '*' :: rest => skipFrom (.block ('/' :: '*' :: rest)) rest
  | .plain, c :: rest => if isSpace c then skipFrom .plain rest else c :: rest
  | .line, c :: rest => if isNewline c then skipFrom .plain rest else skipFrom .line rest
  | .block _, '*' :: '/' :: rest => skipFrom .plain rest
  | .block start, _ :: rest => skipFrom (.block start) rest
  | .block start, [] => start
  | _, [] => []

/-- Drops spaces, line comments and closed block comments. -/
def skip (s : List Char) : List Char := skipFrom .plain s

/-! ## Words -/

/-- The characters of which words are made. -/
def isWordChar (c : Char) : Bool := c.isAlphanum || c = '_'

/-- The characters a word may begin with. -/
def isWordStart (c : Char) : Bool := c.isAlpha || c = '_'

/-- An identifier. -/
def ident (s : List Char) : Option (String × List Char) :=
  match s with
  | [] => none
  | c :: _ =>
    if isWordStart c then some (String.ofList (s.takeWhile isWordChar), s.dropWhile isWordChar)
    else none

/-- One of the given words, with no word character after it. -/
def word (words : List String) (s : List Char) : Option (String × List Char) :=
  let found := String.ofList (s.takeWhile isWordChar)
  if found ∈ words then some (found, s.dropWhile isWordChar) else none

/-- The keywords of the socket types. -/
def typeWords : List String := ["float", "vec2", "vec3", "vec4"]

/-- The words that may stand before the type of a parameter. -/
def qualifierWords : List String := ["const", "in", "highp", "mediump", "lowp"]

/-! ## Numbers -/

/-- At least one digit. -/
def digits (s : List Char) : Option (List Char × List Char) :=
  match s.takeWhile Char.isDigit with
  | [] => none
  | ds => some (ds, s.dropWhile Char.isDigit)

/-- A point and at least one digit. -/
def fraction (s : List Char) : Option (List Char × List Char) :=
  match s with
  | '.' :: rest => (digits rest).map fun (ds, rest) => ('.' :: ds, rest)
  | _ => none

/-- At least one digit, with or without a minus sign before it. -/
def integer (s : List Char) : Option (List Char × List Char) :=
  match s with
  | '-' :: rest => (digits rest).map fun (ds, rest) => ('-' :: ds, rest)
  | _ => digits s

/-- A signed number with or without a fraction. -/
def number (s : List Char) : Option (String × List Char) :=
  match integer s with
  | none => none
  | some (whole, rest) =>
    match fraction rest with
    | none => some (String.ofList whole, rest)
    | some (part, rest) => some (String.ofList (whole ++ part), rest)

/-- A signed number with a fraction. -/
def decimal (s : List Char) : Option (String × List Char) :=
  match integer s with
  | none => none
  | some (whole, rest) =>
    match fraction rest with
    | none => none
    | some (part, rest) => some (String.ofList (whole ++ part), rest)

/-! ## Blocks -/

mutual

/-- The text after a block: an opening brace, items, a closing brace. `fuel` bounds the steps. -/
def blockUpTo : Nat → List Char → Option (List Char)
  | fuel + 1, '\x7b' :: rest =>
    match itemsUpTo fuel rest with
    | '\x7d' :: rest => some rest
    | _ => none
  | _, _ => none

/-- The text after the items of a block: blocks, and characters that are no braces. An opening brace
that begins no block is no item. -/
def itemsUpTo : Nat → List Char → List Char
  | fuel + 1, c :: rest =>
    if c = '\x7b' then
      match blockUpTo fuel (c :: rest) with
      | some rest => itemsUpTo fuel rest
      | none => c :: rest
    else if c = '\x7d' then c :: rest
    else itemsUpTo fuel rest
  | _, s => s

end

/-- A brace-balanced block. A step takes a character or goes into a block, so twice as many steps as
characters are enough. -/
def block (s : List Char) : Option (Unit × List Char) :=
  (blockUpTo (2 * s.length + 2) s).map fun rest => ((), rest)

end ShaderNodes.Grammar
