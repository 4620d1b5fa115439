/-!
# Places in a YAML text

What is left of a text together with the line and the column that have been reached.  YAML attaches
meaning to columns, so characters are only ever passed through the functions of this file, which
keep count.

A line ends at a carriage return, a line feed, both together, or one of three Unicode line ends.
Inside a scalar every line end of the first four kinds reads as a line feed; the other two stay what
they are.
-/

namespace TupleSpace.Yaml

/-- Whether a character may stand in a YAML text at all. -/
def isAllowed (c : Char) : Bool :=
  let n := c.toNat
  n == 9 || n == 10 || n == 13 || (32 ≤ n && n ≤ 126) || n == 0x85 || (0xA0 ≤ n && n ≤ 0xD7FF) ||
    (0xE000 ≤ n && n ≤ 0xFFFD) || 0x10000 ≤ n

/-- The mark that may stand in front of a text. -/
def isByteOrderMark (c : Char) : Bool := c.toNat == 0xFEFF

/-- Whether a character is a space or a tab. -/
def isSpacing (c : Char) : Bool := c == ' ' || c == '\t'

/-- Whether a character ends a line. -/
def isBreak (c : Char) : Bool :=
  c == '\n' || c == '\r' || c.toNat == 0x85 || c.toNat == 0x2028 || c.toNat == 0x2029

/-- Whether a character separates words. -/
def isGapChar (c : Char) : Bool := isSpacing c || isBreak c

/-- Whether a character may stand in the name of an anchor, a directive or a tag handle. -/
def isNameChar (c : Char) : Bool := c.isAlphanum || c == '_' || c == '-'

/-- A place in a text. -/
structure Cursor where
  rest : List Char
  /-- The number of characters passed. -/
  index : Nat := 0
  line : Nat := 0
  column : Nat := 0
deriving Repr

namespace Cursor

/-- The character that comes next. -/
def peek? (c : Cursor) : Option Char := c.rest.head?

/-- Whether a given character comes next. -/
def sees (c : Cursor) (x : Char) : Bool := c.rest.head? == some x

/-- Whether the character after so many others separates words, or there is none. -/
def gapAt (c : Cursor) (n : Nat) : Bool :=
  match c.rest[n]? with
  | none => true
  | some x => isGapChar x

/-- Passes so many characters of a line. -/
def skip (c : Cursor) (n : Nat) : Cursor :=
  { c with rest := c.rest.drop n, index := c.index + n, column := c.column + n }

/-- Passes the characters of a line that have a property. -/
def skipWhile (c : Cursor) (p : Char → Bool) : Cursor :=
  c.skip (c.rest.takeWhile p).length

/-- Passes a line end of so many characters. -/
def skipLineEnd (c : Cursor) (n : Nat) : Cursor :=
  { rest := c.rest.drop n, index := c.index + n, line := c.line + 1, column := 0 }

/-- Passes a line end, if one comes next, and tells how it reads. -/
def lineEnd? (c : Cursor) : Option (Char × Cursor) :=
  match c.rest with
  | '\r' :: '\n' :: _ => some ('\n', c.skipLineEnd 2)
  | x :: _ =>
    if !isBreak x then none
    else if x.toNat == 0x2028 || x.toNat == 0x2029 then some (x, c.skipLineEnd 1)
    else some ('\n', c.skipLineEnd 1)
  | [] => none

/-- Passes a line end, if one comes next. -/
def skipBreak (c : Cursor) : Cursor :=
  match c.lineEnd? with
  | some (_, c) => c
  | none => c

/-- Whether a line begins here that holds nothing but three given characters, or these and more
behind a gap. -/
def startsLine (c : Cursor) (mark : List Char) : Bool :=
  c.column == 0 && mark.isPrefixOf c.rest && c.gapAt mark.length

/-- Whether a document begins or ends here. -/
def atDocumentMark (c : Cursor) : Bool :=
  c.startsLine ['-', '-', '-'] || c.startsLine ['.', '.', '.']

end Cursor

/-- The spaces and line ends between two words of a scalar. -/
structure Gap where
  /-- The spaces and tabs, as long as there is no line end. -/
  spacing : List Char := []
  /-- Whether there is a line end. -/
  broken : Bool := false
  /-- The first line end; a line end that is escaped counts but reads as nothing. -/
  first : Option Char := none
  /-- The line ends behind the first one. -/
  others : List Char := []

namespace Gap

/-- How the gap reads: a single line feed is a space, and of several the first is dropped. -/
def text (g : Gap) : List Char :=
  if !g.broken then g.spacing
  else if g.first == some '\n' then if g.others.isEmpty then [' '] else g.others
  else g.first.toList ++ g.others

/-- Adds a line end. -/
def addBreak (g : Gap) (b : Char) : Gap :=
  if g.broken then { g with others := g.others ++ [b] }
  else { spacing := [], broken := true, first := some b }

/-- Reads a gap, of at most `fuel` characters.  Behind a line end, a tab in front of the column
`least` is refused. -/
def readFrom (least : Nat) : Nat → Cursor → Gap → Option (Gap × Cursor)
  | 0, c, g => some (g, c)
  | fuel + 1, c, g =>
    match c.lineEnd? with
    | some (b, c) => readFrom least fuel c (g.addBreak b)
    | none =>
      match c.rest with
      | x :: _ =>
        if !isSpacing x then some (g, c)
        else if g.broken then
          if x == '\t' && c.column < least then none else readFrom least fuel (c.skip 1) g
        else readFrom least fuel (c.skip 1) { g with spacing := g.spacing ++ [x] }
      | [] => some (g, c)

/-- Reads the rest of a gap. -/
def read? (c : Cursor) (least : Nat) (g : Gap) : Option (Gap × Cursor) :=
  readFrom least c.rest.length c g

end Gap

end TupleSpace.Yaml
