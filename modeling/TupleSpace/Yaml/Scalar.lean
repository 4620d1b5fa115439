import TupleSpace.Yaml.Cursor

/-!
# YAML scalars

The three ways to write a text: plain, between quotes, and as a block of lines.  Each reader starts
at the first character of the scalar and returns the text with the place behind it, or nothing if
the scalar is not well formed.  What a text means, a number or a truth value for instance, is not
decided here.
-/

namespace TupleSpace.Yaml

/-- How a scalar is written. -/
inductive ScalarStyle where
  | plain
  | quoted
  /-- A block whose line ends are kept. -/
  | literal
  /-- A block whose lines are joined. -/
  | folded
deriving DecidableEq, Repr

/-! ## Plain scalars -/

/-- Whether a character ends a plain word inside brackets. -/
def isFlowIndicator (c : Char) : Bool :=
  c == ',' || c == '[' || c == ']' || c == '{' || c == '}'

/-- The number of characters of a plain word.  A colon ends it if a gap follows; inside brackets so
do the brackets and the comma, and a colon in front of one of them is an error. -/
def plainWordLength? (inFlow : Bool) : List Char → Option Nat
  | [] => some 0
  | x :: rest =>
    if isGapChar x then some 0
    else if inFlow && isFlowIndicator x then some 0
    else if x == ':' then
      match rest with
      | [] => some 0
      | y :: _ =>
        if inFlow && (isFlowIndicator y || y == '?') then none
        else if isGapChar y then some 0
        else (plainWordLength? inFlow rest).map (· + 1)
    else (plainWordLength? inFlow rest).map (· + 1)

/-- A plain scalar as far as it has been read. -/
structure PlainScalar where
  text : List Char
  /-- The place behind the gap that follows the last word. -/
  cursor : Cursor
  /-- Whether that gap has a line end. -/
  broken : Bool

/-- Reads the words of a plain scalar behind a gap, at most `fuel` of them.  Outside brackets a word
in front of the column `least` no longer belongs to the scalar. -/
def plainFrom (inFlow : Bool) (least : Nat) : Nat → Cursor → List Char → Gap → Option PlainScalar
  | 0, c, text, g => some ⟨text, c, g.broken⟩
  | fuel + 1, c, text, g => do
    if c.atDocumentMark || c.sees '#' then return ⟨text, c, g.broken⟩
    let n ← plainWordLength? inFlow c.rest
    let word := c.rest.take n
    let (text, g) := if n = 0 then (text, g) else (text ++ g.text ++ word, {})
    let c := c.skip n
    match c.peek? with
    | none => return ⟨text, c, g.broken⟩
    | some x =>
      if !isGapChar x then return ⟨text, c, g.broken⟩
      let (g, c) ← Gap.read? c least g
      if !inFlow && c.column < least then return ⟨text, c, g.broken⟩
      plainFrom inFlow least fuel c text g

/-- Reads a plain scalar. -/
def plain? (inFlow : Bool) (least : Nat) (c : Cursor) : Option PlainScalar :=
  plainFrom inFlow least (c.rest.length + 1) c [] {}

/-! ## Quoted scalars -/

/-- The value of a hexadecimal digit. -/
def hexDigit? (c : Char) : Option Nat :=
  if '0' ≤ c ∧ c ≤ '9' then some (c.toNat - '0'.toNat)
  else if 'a' ≤ c ∧ c ≤ 'f' then some (c.toNat - 'a'.toNat + 10)
  else if 'A' ≤ c ∧ c ≤ 'F' then some (c.toNat - 'A'.toNat + 10)
  else none

/-- The value of hexadecimal digits. -/
def hexNumber? (digits : List Char) : Option Nat :=
  digits.foldlM (fun n d => (hexDigit? d).map (16 * n + ·)) 0

/-- The character with a code point of so many hexadecimal digits, and that number of digits. -/
def codePoint? (width : Nat) (cs : List Char) : Option (Char × Nat) :=
  if cs.length < width then none
  else
    match hexNumber? (cs.take width) with
    | none => none
    | some n =>
      if (0xD800 ≤ n ∧ n ≤ 0xDFFF) ∨ 0x10FFFF < n then none else some (Char.ofNat n, width)

/-- The escapes of one character. -/
def simpleEscapes : List (Char × Nat) :=
  [('0', 0), ('a', 7), ('b', 8), ('t', 9), ('\t', 9), ('n', 10), ('v', 11), ('f', 12), ('r', 13),
    ('e', 27), (' ', 32), ('"', 34), ('/', 47), ('\\', 92), ('N', 0x85), ('_', 0xA0),
    ('L', 0x2028), ('P', 0x2029)]

/-- The character of an escape, from behind the backslash, and the length of the escape. -/
def escape? : List Char → Option (Char × Nat)
  | [] => none
  | 'x' :: rest => (codePoint? 2 rest).map fun (c, n) => (c, n + 1)
  | 'u' :: rest => (codePoint? 4 rest).map fun (c, n) => (c, n + 1)
  | 'U' :: rest => (codePoint? 8 rest).map fun (c, n) => (c, n + 1)
  | x :: _ => (simpleEscapes.find? fun e => e.1 == x).map fun e => (Char.ofNat e.2, 1)

/-- Reads a quoted scalar from behind the opening quote, at most `fuel` steps long.  A single quote
inside single quotes is written twice; between double quotes a backslash escapes. -/
def quotedFrom (quote : Char) : Nat → Cursor → List Char → Option (List Char × Cursor)
  | 0, _, _ => none
  | fuel + 1, c, text =>
    if c.atDocumentMark then none
    else
      match c.rest with
      | [] => none
      | x :: rest =>
        if x == quote then
          if quote == '\'' && rest.head? == some quote then
            quotedFrom quote fuel (c.skip 2) (text ++ [quote])
          else some (text, c.skip 1)
        else if x == '\\' && quote == '"' then
          match (c.skip 1).lineEnd? with
          | some (_, c) => do
            let (g, c) ← Gap.read? c 0 { broken := true }
            quotedFrom quote fuel c (text ++ g.text)
          | none => do
            let (y, n) ← escape? rest
            quotedFrom quote fuel (c.skip (n + 1)) (text ++ [y])
        else if isGapChar x then do
          let (g, c) ← Gap.read? c 0 {}
          quotedFrom quote fuel c (text ++ g.text)
        else quotedFrom quote fuel (c.skip 1) (text ++ [x])

/-- Reads a quoted scalar. -/
def quoted? (quote : Char) (c : Cursor) : Option (List Char × Cursor) :=
  quotedFrom quote (c.rest.length + 1) (c.skip 1) []

/-! ## Blocks -/

/-- What becomes of the line ends at the end of a block. -/
inductive Chomping where
  /-- All are dropped. -/
  | strip
  /-- One is kept. -/
  | clip
  /-- All are kept. -/
  | keep
deriving DecidableEq, Repr

/-- The first line of a block: its chomping, and by how much it is indented if that is said. -/
structure BlockHeader where
  chomping : Chomping := .clip
  increment : Option Nat := none

/-- The chomping indicator, if one comes next. -/
def chomping? (c : Cursor) : Option Chomping :=
  match c.peek? with
  | some '+' => some .keep
  | some '-' => some .strip
  | _ => none

/-- The digit of an indentation indicator, if a digit comes next; a zero is refused. -/
def increment? (c : Cursor) : Option (Option Nat) :=
  match c.peek? with
  | some x =>
    if x == '0' then none
    else if x.isDigit then some (some (x.toNat - '0'.toNat)) else some none
  | none => some none

/-- Reads the indicators of a block in either order. -/
def blockHeader? (c : Cursor) : Option (BlockHeader × Cursor) := do
  match chomping? c with
  | some chomping =>
    let c := c.skip 1
    match ← increment? c with
    | some n => return (⟨chomping, some n⟩, c.skip 1)
    | none => return (⟨chomping, none⟩, c)
  | none =>
    match ← increment? c with
    | none => return ({}, c)
    | some n =>
      let c := c.skip 1
      match chomping? c with
      | some chomping => return (⟨chomping, some n⟩, c.skip 1)
      | none => return (⟨.clip, some n⟩, c)

/-- Passes spaces and a comment up to the end of the line; anything else is refused. -/
def restOfLine? (c : Cursor) : Option Cursor :=
  let c := c.skipWhile isSpacing
  let c := if c.sees '#' then c.skipWhile fun x => !isBreak x else c
  match c.peek? with
  | none => some c
  | some x => if isBreak x then some c.skipBreak else none

/-- The empty lines in front of a line of a block. -/
structure EmptyLines where
  breaks : List Char := []
  /-- The widest indentation met. -/
  widest : Nat := 0

/-- Passes empty lines and the indentation of the line behind them, at most `fuel` lines.  If the
indentation is not known yet every space belongs to it.  A tab in its place is refused. -/
def emptyLinesFrom (indent : Option Nat) : Nat → Cursor → EmptyLines → Option (EmptyLines × Cursor)
  | 0, c, e => some (e, c)
  | fuel + 1, c, e =>
    let spaces := (c.rest.takeWhile (· == ' ')).length
    let inside (column : Nat) : Bool := indent.all fun i => column < i
    let n :=
      match indent with
      | none => spaces
      | some i => min spaces (i - c.column)
    let c := c.skip n
    let e := { e with widest := max e.widest c.column }
    if inside c.column && c.sees '\t' then none
    else
      match c.lineEnd? with
      | some (b, c) => emptyLinesFrom indent fuel c { e with breaks := e.breaks ++ [b] }
      | none => some (e, c)

/-- Passes empty lines. -/
def emptyLines? (indent : Option Nat) (c : Cursor) : Option (EmptyLines × Cursor) :=
  emptyLinesFrom indent (c.rest.length + 1) c {}

/-- How the line end between two lines of a block reads, with the empty lines behind it.  In a
folded block a single line feed between two lines that begin with no space is a space. -/
def foldLine (style : ScalarStyle) (lineEnd : Option Char) (breaks : List Char)
    (spacedBefore spacedHere : Bool) : List Char :=
  if style = .folded ∧ lineEnd = some '\n' ∧ !spacedBefore ∧ !spacedHere then
    (if breaks.isEmpty then [' '] else []) ++ breaks
  else lineEnd.toList ++ breaks

/-- A block as far as it has been read. -/
structure BlockText where
  text : List Char := []
  /-- The end of the last line, if it has one. -/
  lineEnd : Option Char := none
  /-- Whether the last line begins with a space. -/
  spaced : Bool := false
  /-- The empty lines behind the last line. -/
  breaks : List Char := []

/-- Reads the lines of a block that stand at a column, at most `fuel` of them. -/
def blockLinesFrom (style : ScalarStyle) (indent : Nat) :
    Nat → Cursor → BlockText → Option (BlockText × Cursor)
  | 0, c, b => some (b, c)
  | fuel + 1, c, b =>
    match c.peek? with
    | none => some (b, c)
    | some x =>
      if c.column ≠ indent then some (b, c)
      else
        let here := isSpacing x
        let between := foldLine style b.lineEnd b.breaks b.spaced here
        let line := c.rest.takeWhile fun y => !isBreak y
        let c := c.skip line.length
        let (lineEnd, c) : Option Char × Cursor :=
          match c.lineEnd? with
          | some (y, c) => (some y, c)
          | none => (none, c)
        match emptyLines? (some indent) c with
        | none => none
        | some (e, c) =>
          blockLinesFrom style indent fuel c
            { text := b.text ++ between ++ line, lineEnd, spaced := here, breaks := e.breaks }

/-- The text of a block with the line ends that its chomping leaves. -/
def chomp (chomping : Chomping) (b : BlockText) : List Char :=
  match chomping with
  | .strip => b.text
  | .clip => b.text ++ b.lineEnd.toList
  | .keep => b.text ++ b.lineEnd.toList ++ b.breaks

/-- Reads a block scalar.  `enclosing` is the column of what the block belongs to, if there is any;
`least` the first column at which its lines may stand if their column is not said. -/
def block? (style : ScalarStyle) (enclosing : Option Nat) (least : Nat) (c : Cursor) :
    Option (List Char × Cursor) := do
  let (header, c) ← blockHeader? (c.skip 1)
  let c ← restOfLine? c
  let said := header.increment.map fun n => enclosing.getD 0 + n
  let (e, c) ← emptyLines? said c
  let indent := said.getD (max (max e.widest least) 1)
  let (b, c) ← blockLinesFrom style indent (c.rest.length + 1) c { breaks := e.breaks }
  return (chomp header.chomping b, c)

end TupleSpace.Yaml
