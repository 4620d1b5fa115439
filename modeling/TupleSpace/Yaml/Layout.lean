import TupleSpace.Yaml.Token

/-!
# The layout of a YAML text

From a text to its tokens.  Outside brackets the indentation decides where block collections begin
and end: a collection begins at an item or a key further right than the one around it, and ends at
the first token further left.

A key is recognised late, by the colon behind it.  Every token that could turn out to be a key is
therefore remembered with its place, and the tokens that announce a key are put in front of it once
the colon is seen.  The colon has to come on the same line, not more than 1024 characters later.
-/

namespace TupleSpace.Yaml

/-- A token that may turn out to be a key. -/
structure PossibleKey where
  /-- Its place among the tokens. -/
  place : Nat
  index : Nat
  line : Nat
  column : Nat
  /-- Whether nothing but a key can stand here. -/
  required : Bool

/-- The state of the reading of a text. -/
structure Layout where
  cursor : Cursor
  tokens : Array Token := #[]
  /-- The columns of the open block collections, the innermost first. -/
  indents : List Nat := []
  /-- Whether a key may begin here. -/
  keyAllowed : Bool := true
  /-- The possible key outside all brackets. -/
  possible : Option PossibleKey := none
  /-- The possible keys around the open brackets, the innermost first. -/
  outer : List (Option PossibleKey) := []

namespace Layout

/-- The longest distance between a key and its colon. -/
def longestKey : Nat := 1024

/-- Whether the place is inside brackets. -/
def inFlow (l : Layout) : Bool := !l.outer.isEmpty

/-- The first column to the right of the innermost block collection. -/
def least (l : Layout) : Nat :=
  match l.indents with
  | [] => 0
  | i :: _ => i + 1

/-- Adds a token. -/
def push (l : Layout) (t : Token) : Layout := { l with tokens := l.tokens.push t }

/-- Puts a token in front of the one at a place. -/
def insertAt (l : Layout) (place : Nat) (t : Token) : Layout :=
  { l with tokens :=
      l.tokens.extract 0 place ++ #[t] ++ l.tokens.extract place l.tokens.size }

/-- Ends the block collections to the right of a column; `none` stands for the end of the
document. -/
def closeBlocks (column : Option Nat) (l : Layout) : Layout :=
  if l.inFlow then l
  else
    let isOpen (i : Nat) : Bool := column.all fun c => decide (c < i)
    let ended := l.indents.takeWhile isOpen
    { l with
      indents := l.indents.drop ended.length
      tokens := l.tokens ++ Array.replicate ended.length Token.blockEnd }

/-- Begins a block collection at a column that is to the right of the innermost one. -/
def openBlock (l : Layout) (column place : Nat) (t : Token) : Layout :=
  if l.inFlow || column < l.least then l
  else { (l.insertAt place t) with indents := column :: l.indents }

/-- Gives up the possible key; an error if nothing but a key could stand there. -/
def forgetKey? (l : Layout) : Option Layout :=
  if l.possible.any PossibleKey.required then none else some { l with possible := none }

/-- Remembers that a key may begin here. -/
def markKey? (l : Layout) : Option Layout := do
  if !l.keyAllowed then return l
  else
    let l ← l.forgetKey?
    let c := l.cursor
    let required := !l.inFlow && l.indents.head? == some c.column
    return { l with possible := some ⟨l.tokens.size, c.index, c.line, c.column, required⟩ }

/-- Whether a possible key is too far away from here. -/
def isStale (c : Cursor) (k : PossibleKey) : Bool :=
  k.line < c.line || k.index + longestKey < c.index

/-- Gives up a possible key that is too far away. -/
def refresh? (c : Cursor) (k : Option PossibleKey) : Option (Option PossibleKey) :=
  match k with
  | none => some none
  | some k => if !isStale c k then some (some k) else if k.required then none else some none

/-- Gives up the possible keys that are too far away. -/
def refreshKeys? (l : Layout) : Option Layout := do
  let possible ← refresh? l.cursor l.possible
  let outer ← l.outer.mapM (refresh? l.cursor)
  return { l with possible, outer }

/-- Passes spaces, comments and empty lines, at most `fuel` lines.  A tab is passed only where no
key may begin. -/
def skipToToken : Nat → Layout → Layout
  | 0, l => l
  | fuel + 1, l =>
    let tabs := l.inFlow || !l.keyAllowed
    let c := l.cursor
    let c := if c.index == 0 && c.peek?.any isByteOrderMark then c.skip 1 else c
    let c := c.skipWhile fun x => x == ' ' || (tabs && x == '\t')
    let c := if c.sees '#' then c.skipWhile fun x => !isBreak x else c
    match c.lineEnd? with
    | some (_, c) =>
      skipToToken fuel { l with cursor := c, keyAllowed := l.keyAllowed || !l.inFlow }
    | none => { l with cursor := c }

/-- Reads a token that is one character. -/
def readSign (l : Layout) (t : Token) : Layout :=
  { (l.push t) with cursor := l.cursor.skip 1 }

/-- Reads an opening bracket. -/
def readOpening? (l : Layout) (t : Token) : Option Layout := do
  let l ← l.markKey?
  return { l.readSign t with outer := l.possible :: l.outer, possible := none, keyAllowed := true }

/-- Reads a closing bracket. -/
def readClosing? (l : Layout) (t : Token) : Option Layout := do
  let l ← l.forgetKey?
  let l :=
    match l.outer with
    | [] => l
    | k :: outer => { l with possible := k, outer }
  return { l.readSign t with keyAllowed := false }

/-- Reads a comma. -/
def readComma? (l : Layout) : Option Layout := do
  let l ← l.forgetKey?
  return { l.readSign .comma with keyAllowed := true }

/-- Reads the dash in front of an item. -/
def readItem? (l : Layout) : Option Layout := do
  if !l.inFlow && !l.keyAllowed then none
  else
    let l ← (l.openBlock l.cursor.column l.tokens.size .blockSequence).forgetKey?
    return { l.readSign .item with keyAllowed := true }

/-- Reads the question mark in front of a key. -/
def readKey? (l : Layout) : Option Layout := do
  if !l.inFlow && !l.keyAllowed then none
  else
    let l ← (l.openBlock l.cursor.column l.tokens.size .blockMapping).forgetKey?
    return { l.readSign .key with keyAllowed := !l.inFlow }

/-- Reads the colon in front of a value. -/
def readValue? (l : Layout) : Option Layout :=
  match l.possible with
  | some k =>
    let l := (l.insertAt k.place .key).openBlock k.column k.place .blockMapping
    some { l.readSign .value with possible := none, keyAllowed := false }
  | none =>
    if !l.inFlow && !l.keyAllowed then none
    else
      let l := l.openBlock l.cursor.column l.tokens.size .blockMapping
      some { l.readSign .value with keyAllowed := !l.inFlow }

/-- Reads the mark at which a document begins or ends. -/
def readDocumentMark? (l : Layout) (t : Token) : Option Layout := do
  let l ← (l.closeBlocks none).forgetKey?
  return { (l.push t) with cursor := l.cursor.skip 3, keyAllowed := false }

/-- Reads a directive. -/
def readDirective? (l : Layout) : Option Layout := do
  let l ← (l.closeBlocks none).forgetKey?
  let (t, cursor) ← directive? l.cursor
  return { (l.push t) with cursor, keyAllowed := false }

/-- Reads a token with a name, which can be a key or stand in front of one. -/
def readNamed? (l : Layout) (t : Option (Token × Cursor)) : Option Layout := do
  let l ← l.markKey?
  let (t, cursor) ← t
  return { (l.push t) with cursor, keyAllowed := false }

/-- Reads an anchor or an alias. -/
def readAnchor? (l : Layout) (make : String → Token) : Option Layout :=
  l.readNamed? ((anchorName? l.cursor).map fun (name, c) => (make name, c))

/-- Reads a quoted scalar. -/
def readQuoted? (l : Layout) (quote : Char) : Option Layout :=
  l.readNamed?
    ((quoted? quote l.cursor).map fun (text, c) => (.scalar (String.ofList text) .quoted, c))

/-- Reads a block scalar, behind which a key may begin. -/
def readBlock? (l : Layout) (style : ScalarStyle) : Option Layout := do
  let l ← l.forgetKey?
  let (text, cursor) ← block? style l.indents.head? l.least l.cursor
  return { (l.push (.scalar (String.ofList text) style)) with cursor, keyAllowed := true }

/-- Reads a plain scalar.  A key may begin behind it if it is on a new line. -/
def readPlain? (l : Layout) : Option Layout := do
  let l ← l.markKey?
  let p ← plain? l.inFlow l.least l.cursor
  return { (l.push (.scalar (String.ofList p.text) .plain)) with
    cursor := p.cursor, keyAllowed := p.broken }

/-- Whether a plain scalar may begin with a character in front of others. -/
def startsPlain (inFlow : Bool) (x : Char) (c : Cursor) : Bool :=
  let sign :=
    ['-', '?', ':', ',', '[', ']', '{', '}', '#', '&', '*', '!', '|', '>', '\'', '"', '%', '@',
      Char.ofNat 96].contains x
  if x == '-' then !((c.skip 1).peek?.any isSpacing)
  else if x == '?' || x == ':' then !inFlow && !c.gapAt 1
  else !(sign || isGapChar x)

/-- Reads the token that begins with a character. -/
def readToken? (l : Layout) (x : Char) : Option Layout :=
  let c := l.cursor
  if c.column == 0 && x == '%' then l.readDirective?
  else if c.startsLine ['-', '-', '-'] then l.readDocumentMark? .documentStart
  else if c.startsLine ['.', '.', '.'] then l.readDocumentMark? .documentEnd
  else if x == '[' then l.readOpening? .flowSequence
  else if x == '{' then l.readOpening? .flowMapping
  else if x == ']' then l.readClosing? .flowSequenceEnd
  else if x == '}' then l.readClosing? .flowMappingEnd
  else if x == ',' then l.readComma?
  else if x == '-' && c.gapAt 1 then l.readItem?
  else if x == '?' && (l.inFlow || c.gapAt 1) then l.readKey?
  else if x == ':' && (l.inFlow || c.gapAt 1) then l.readValue?
  else if x == '*' then l.readAnchor? .alias
  else if x == '&' then l.readAnchor? .anchor
  else if x == '!' then l.readNamed? (tag? l.inFlow c)
  else if x == '|' && !l.inFlow then l.readBlock? .literal
  else if x == '>' && !l.inFlow then l.readBlock? .folded
  else if x == '\'' || x == '"' then l.readQuoted? x
  else if startsPlain l.inFlow x c then l.readPlain?
  else none

/-- Ends the text. -/
def finish? (l : Layout) : Option (Array Token) := do
  let l ← (l.closeBlocks none).forgetKey?
  return l.tokens

/-- Reads the remaining tokens, at most `fuel` of them. -/
def readFrom : Nat → Layout → Option (Array Token)
  | 0, _ => none
  | fuel + 1, l => do
    let l ← (skipToToken (l.cursor.rest.length + 1) l).refreshKeys?
    let l := l.closeBlocks (some l.cursor.column)
    match l.cursor.peek? with
    | none => l.finish?
    | some x => readFrom fuel (← l.readToken? x)

end Layout

/-- The tokens of a text; `none` if there is a character that may not stand in it, or if it is not
well formed. -/
def tokens? (text : String) : Option (List Token) :=
  let cs := text.toList
  let cs := if cs.head?.any isByteOrderMark then cs.drop 1 else cs
  if cs.all isAllowed then
    (Layout.readFrom (cs.length + 2) { cursor := { rest := cs } }).map Array.toList
  else none

end TupleSpace.Yaml
