import TupleSpace.Yaml.Scalar

/-!
# YAML tokens

The pieces that a YAML text consists of.  Indentation has become explicit: a block collection is
enclosed by its own tokens, just as a collection in brackets is, and every key and every value of a
mapping is announced.  What this file adds to the type are the readers of those pieces that carry a
name: anchors, tags and directives.
-/

namespace TupleSpace.Yaml

/-- A piece of a YAML text.  The text ends where the list of its tokens ends. -/
inductive Token where
  /-- The version that a directive asks for. -/
  | version (major minor : Nat)
  /-- A directive that gives a meaning to a tag handle. -/
  | handle (name meaning : String)
  | documentStart
  | documentEnd
  | blockSequence
  | blockMapping
  | blockEnd
  | flowSequence
  | flowSequenceEnd
  | flowMapping
  | flowMappingEnd
  /-- An item of a block sequence follows. -/
  | item
  /-- A comma inside brackets. -/
  | comma
  /-- A key follows. -/
  | key
  /-- A value follows. -/
  | value
  | alias (name : String)
  | anchor (name : String)
  /-- A tag: a handle, empty if there is none, and what follows it. -/
  | tag (handle rest : String)
  | scalar (text : String) (style : ScalarStyle)
deriving DecidableEq, Repr

/-- Whether a character may follow the name of an anchor. -/
def endsAnchor (c : Char) : Bool :=
  isGapChar c || ['?', ':', ',', ']', '}', '%', '@', Char.ofNat 96].contains c

/-- Reads the name behind the sign of an anchor or an alias. -/
def anchorName? (c : Cursor) : Option (String × Cursor) :=
  let c := c.skip 1
  let name := c.rest.takeWhile isNameChar
  let c := c.skip name.length
  if name.isEmpty || !c.peek?.all endsAnchor then none else some (String.ofList name, c)

/-- Whether a character may stand in a tag. -/
def isTagChar (c : Char) : Bool :=
  isNameChar c ||
    [';', '/', '?', ':', '@', '&', '=', '+', '$', '.', '%', '!', '~', '*', '\'', '(',
      ')'].contains c

/-- Whether a character may stand in a tag that is written in full. -/
def isFullTagChar (c : Char) : Bool := isTagChar c || [',', '[', ']'].contains c

/-- The bytes of a tag; a percent sign stands in front of the two digits of a byte. -/
def tagBytes? : List Char → Option (List UInt8)
  | [] => some []
  | '%' :: a :: b :: rest => do
    let n ← hexNumber? [a, b]
    return UInt8.ofNat n :: (← tagBytes? rest)
  | '%' :: _ => none
  | c :: rest => do
    return (String.singleton c).toUTF8.toList ++ (← tagBytes? rest)

/-- The text of a tag. -/
def tagText? (cs : List Char) : Option String := do
  String.fromUTF8? (ByteArray.mk (← tagBytes? cs).toArray)

/-- Reads the handle of a tag: an exclamation mark, or a name between two of them.  The characters
behind the first mark of a handle that is not closed belong to the tag itself. -/
def tagHandle? (c : Cursor) : Option (List Char × Cursor) :=
  if !c.sees '!' then none
  else
    let name := (c.rest.drop 1).takeWhile isNameChar
    let after := c.skip (name.length + 1)
    if after.sees '!' then some ('!' :: name ++ ['!'], after.skip 1)
    else some ('!' :: name, after)

/-- Reads a tag that is written in full, between angle brackets. -/
def fullTag? (c : Cursor) : Option (Token × Cursor) := do
  let c := c.skip 2
  let body := c.rest.takeWhile isFullTagChar
  if body.isEmpty then none
  else
    let after := c.skip body.length
    if after.sees '>' then return (.tag "" (← tagText? body), after.skip 1) else none

/-- Reads a tag. -/
def tag? (inFlow : Bool) (c : Cursor) : Option (Token × Cursor) := do
  let (token, c) ←
    if (c.skip 1).sees '<' then fullTag? c
    else do
      let (handle, after) ← tagHandle? c
      let body := after.rest.takeWhile isTagChar
      let closed := 1 < handle.length && handle.getLast? == some '!'
      if closed && body.isEmpty then none
      else
        let text ← tagText? body
        let after := after.skip body.length
        if closed then some (.tag (String.ofList handle) text, after)
        else
          let own := String.ofList (handle.drop 1) ++ text
          if own.isEmpty then some (.tag "" "!", after) else some (.tag "!" own, after)
  if c.gapAt 0 || (inFlow && c.sees ',') then return (token, c) else none

/-- Reads a number of at most nine digits. -/
def versionNumber? (c : Cursor) : Option (Nat × Cursor) :=
  let digits := c.rest.takeWhile Char.isDigit
  if digits.isEmpty || 9 < digits.length then none
  else some (digits.foldl (fun n d => 10 * n + (d.toNat - '0'.toNat)) 0, c.skip digits.length)

/-- Reads the version of a directive. -/
def versionDirective? (c : Cursor) : Option (Token × Cursor) := do
  let (major, c) ← versionNumber? (c.skipWhile isSpacing)
  if !c.sees '.' then none
  else
    let (minor, c) ← versionNumber? (c.skip 1)
    return (.version major minor, c)

/-- Reads the handle of a directive and its meaning. -/
def handleDirective? (c : Cursor) : Option (Token × Cursor) := do
  let (handle, c) ← tagHandle? (c.skipWhile isSpacing)
  let closed := handle.getLast? == some '!'
  if !closed || !c.peek?.any isSpacing then none
  else
    let c := c.skipWhile isSpacing
    let body := c.rest.takeWhile isFullTagChar
    let after := c.skip body.length
    if body.isEmpty || !after.gapAt 0 then none
    else return (.handle (String.ofList handle) (← tagText? body), after)

/-- Reads a directive and the rest of its line. -/
def directive? (c : Cursor) : Option (Token × Cursor) := do
  let c := c.skip 1
  let name := c.rest.takeWhile isNameChar
  let c := c.skip name.length
  if name.isEmpty || !c.gapAt 0 then none
  else
    let (token, c) ←
      if name = ['Y', 'A', 'M', 'L'] then versionDirective? c
      else if name = ['T', 'A', 'G'] then handleDirective? c
      else none
    return (token, ← restOfLine? c)

end TupleSpace.Yaml
