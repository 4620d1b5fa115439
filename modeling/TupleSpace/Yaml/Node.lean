import TupleSpace.Yaml.Layout

/-!
# YAML documents

From tokens to the tree of nodes that they describe.  A node that is missing where one could stand
is an empty plain scalar.

An alias is kept as the number of the anchor it refers to.  An anchor is numbered by how many
different names have been used before it, its own included if it has been used; of all anchors with
one number, an alias stands for the node of the last.  So an alias can stand for a node that it is
part of, and a reader of a document follows one alias at a time.
-/

namespace TupleSpace.Yaml

/-- A node. -/
inductive Node where
  | scalar (text : String) (style : ScalarStyle) (tag : Option String)
  | sequence (items : List Node)
  | mapping (entries : List (Node × Node))
  | alias (anchor : Nat)
deriving Repr

instance : Inhabited Node := ⟨.scalar "" .plain none⟩

/-- The node that stands where there is none. -/
def Node.missing : Node := .scalar "" .plain none

/-- A node with an anchor. -/
structure Anchored where
  /-- The number by which aliases refer to it. -/
  anchor : Nat
  /-- The number of anchors in front of its own. -/
  order : Nat
  node : Node

/-- A document: a node and the nodes to which its aliases refer. -/
structure Document where
  root : Node
  anchored : List Anchored

namespace Document

/-- The last node with an anchor of a number. -/
def target? (d : Document) (anchor : Nat) : Option Node :=
  (d.anchored.foldl
    (fun best a =>
      if a.anchor ≠ anchor then best
      else
        match best with
        | none => some a
        | some b => if b.order < a.order then some a else some b) none).map Anchored.node

/-- The node that an alias stands for; any other node stands for itself. -/
def resolve (d : Document) : Node → Node
  | .alias n => (d.target? n).getD .missing
  | n => n

end Document

/-- What is known while the nodes of a document are read. -/
structure Reading where
  tokens : List Token
  /-- The meanings of tag handles. -/
  handles : List (String × String)
  /-- The names of anchors with their numbers. -/
  names : List (String × Nat) := []
  /-- The number of anchors. -/
  anchors : Nat := 0
  anchored : List Anchored := []

namespace Reading

/-- Whether a given token comes next. -/
def sees (r : Reading) (t : Token) : Bool := r.tokens.head? == some t

/-- Whether one of some tokens comes next, or none at all. -/
def seesAny (r : Reading) (ts : List Token) : Bool :=
  match r.tokens with
  | [] => true
  | t :: _ => ts.contains t

/-- Passes a token. -/
def skip (r : Reading) : Reading := { r with tokens := r.tokens.tail }

/-- Gives a number to an anchor. -/
def setAnchor (r : Reading) (name : String) : Reading × Nat :=
  let n := r.names.length
  ({ r with
      names := (name, n) :: r.names.filter fun x => x.1 != name
      anchors := r.anchors + 1 }, n)

/-- The number of the last anchor with a name. -/
def anchor? (r : Reading) (name : String) : Option Nat :=
  (r.names.find? fun x => x.1 == name).map Prod.snd

/-- The full text of a tag; `none` if its handle has no meaning. -/
def tagText? (r : Reading) (handle rest : String) : Option String :=
  if handle.isEmpty then some rest
  else (r.handles.find? fun h => h.1 == handle).map fun h => h.2 ++ rest

/-- What stands in front of a node. -/
structure Properties where
  anchor : Option String := none
  tag : Option String := none

/-- Reads a tag, if one comes next. -/
def readTag? (r : Reading) : Option (Option String × Reading) :=
  match r.tokens with
  | .tag handle rest :: _ => (r.tagText? handle rest).map fun t => (some t, r.skip)
  | _ => some (none, r)

/-- Reads an anchor, if one comes next. -/
def readAnchor (r : Reading) : Option String × Reading :=
  match r.tokens with
  | .anchor name :: _ => (some name, r.skip)
  | _ => (none, r)

/-- Reads an anchor and a tag, in either order. -/
def readProperties? (r : Reading) : Option (Properties × Reading) := do
  match r.readAnchor with
  | (some a, r) =>
    let (tag, r) ← r.readTag?
    return (⟨some a, tag⟩, r)
  | (none, r) =>
    let (tag, r) ← r.readTag?
    match tag with
    | none => return ({}, r)
    | some t =>
      let (a, r) := r.readAnchor
      return (⟨a, some t⟩, r)

/-- Keeps a node under its anchor. -/
def keep (r : Reading) (mark : Option (Nat × Nat)) (node : Node) : Node × Reading :=
  match mark with
  | none => (node, r)
  | some (anchor, order) => (node, { r with anchored := ⟨anchor, order, node⟩ :: r.anchored })

/-- What may surround a node, which decides about the forms that it can have. -/
inductive Place where
  /-- A node of a block collection, or the root. -/
  | block
  /-- A key or value of a block mapping, where a sequence need not be indented. -/
  | blockEntry
  /-- A node inside brackets. -/
  | flow
deriving DecidableEq

mutual

/-- Reads a node. -/
def node? (place : Place) : Nat → Reading → Option (Node × Reading)
  | 0, _ => none
  | fuel + 1, r => do
    match r.tokens with
    | .alias name :: _ => return (.alias (← r.anchor? name), r.skip)
    | _ =>
      let (p, r) ← r.readProperties?
      let (mark, r) : Option (Nat × Nat) × Reading :=
        match p.anchor with
        | none => (none, r)
        | some name =>
          let (r', n) := r.setAnchor name
          (some (n, r.anchors), r')
      let (node, r) ← content? place p fuel r
      return r.keep mark node

/-- Reads a node behind its anchor and its tag. -/
def content? (place : Place) (p : Properties) : Nat → Reading → Option (Node × Reading)
  | 0, _ => none
  | fuel + 1, r =>
    match place, r.tokens with
    | .blockEntry, .item :: _ => dashes? fuel r []
    | _, .scalar text style :: _ => some (.scalar text style p.tag, r.skip)
    | _, .flowSequence :: _ => flowItems? true fuel r.skip []
    | _, .flowMapping :: _ => flowEntries? true fuel r.skip []
    | .flow, _ =>
      if p.anchor.isSome || p.tag.isSome then some (.scalar "" .plain p.tag, r) else none
    | _, .blockSequence :: _ => blockItems? fuel r.skip []
    | _, .blockMapping :: _ => blockEntries? fuel r.skip []
    | _, _ => if p.anchor.isSome || p.tag.isSome then some (.scalar "" .plain p.tag, r) else none

/-- Reads a node unless one of some tokens comes next. -/
def nodeUnless? (place : Place) (ends : List Token) : Nat → Reading → Option (Node × Reading)
  | 0, _ => none
  | fuel + 1, r => if r.seesAny ends then some (.missing, r) else node? place fuel r

/-- Reads the items of a block sequence and its end. -/
def blockItems? : Nat → Reading → List Node → Option (Node × Reading)
  | 0, _, _ => none
  | fuel + 1, r, items => do
    match r.tokens with
    | .item :: _ =>
      let (n, r) ← nodeUnless? .block [.item, .blockEnd] fuel r.skip
      blockItems? fuel r (items ++ [n])
    | .blockEnd :: _ => return (.sequence items, r.skip)
    | _ => none

/-- Reads the items of a sequence that is not indented. -/
def dashes? : Nat → Reading → List Node → Option (Node × Reading)
  | 0, _, _ => none
  | fuel + 1, r, items => do
    match r.tokens with
    | .item :: _ =>
      let (n, r) ← nodeUnless? .block [.item, .key, .value, .blockEnd] fuel r.skip
      dashes? fuel r (items ++ [n])
    | _ => return (.sequence items, r)

/-- Reads the entries of a block mapping and its end. -/
def blockEntries? : Nat → Reading → List (Node × Node) → Option (Node × Reading)
  | 0, _, _ => none
  | fuel + 1, r, entries => do
    match r.tokens with
    | .key :: _ =>
      let (k, r) ← nodeUnless? .blockEntry [.key, .value, .blockEnd] fuel r.skip
      if r.sees .value then
        let (v, r) ← nodeUnless? .blockEntry [.key, .value, .blockEnd] fuel r.skip
        blockEntries? fuel r (entries ++ [(k, v)])
      else blockEntries? fuel r (entries ++ [(k, .missing)])
    | .blockEnd :: _ => return (.mapping entries, r.skip)
    | _ => none

/-- Reads the items of a sequence in brackets and the closing bracket. -/
def flowItems? (isFirst : Bool) : Nat → Reading → List Node → Option (Node × Reading)
  | 0, _, _ => none
  | fuel + 1, r, items => do
    if r.sees .flowSequenceEnd then return (.sequence items, r.skip)
    else if !isFirst && !r.sees .comma then none
    else
      let r := if isFirst then r else r.skip
      match r.tokens with
      | .flowSequenceEnd :: _ => return (.sequence items, r.skip)
      | .key :: _ =>
        let (n, r) ← pair? fuel r.skip
        flowItems? false fuel r (items ++ [n])
      | _ =>
        let (n, r) ← node? .flow fuel r
        flowItems? false fuel r (items ++ [n])

/-- Reads a mapping of one entry that stands in a sequence without braces of its own.  If the key is
missing, the token in its place is passed. -/
def pair? : Nat → Reading → Option (Node × Reading)
  | 0, _ => none
  | fuel + 1, r => do
    let (k, r) ←
      if r.seesAny [.value, .comma, .flowSequenceEnd] then some (Node.missing, r.skip)
      else node? .flow fuel r
    if r.sees .value then
      let (v, r) ← nodeUnless? .flow [.comma, .flowSequenceEnd] fuel r.skip
      return (.mapping [(k, v)], r)
    else return (.mapping [(k, .missing)], r)

/-- Reads the entries of a mapping in braces and the closing brace. -/
def flowEntries? (isFirst : Bool) :
    Nat → Reading → List (Node × Node) → Option (Node × Reading)
  | 0, _, _ => none
  | fuel + 1, r, entries => do
    if r.sees .flowMappingEnd then return (.mapping entries, r.skip)
    else if !isFirst && !r.sees .comma then none
    else
      let r := if isFirst then r else r.skip
      match r.tokens with
      | .flowMappingEnd :: _ => return (.mapping entries, r.skip)
      | .key :: _ =>
        let (k, r) ← nodeUnless? .flow [.value, .comma, .flowMappingEnd] fuel r.skip
        if r.sees .value then
          let (v, r) ← nodeUnless? .flow [.comma, .flowMappingEnd] fuel r.skip
          flowEntries? false fuel r (entries ++ [(k, v)])
        else flowEntries? false fuel r (entries ++ [(k, .missing)])
      | _ =>
        let (k, r) ← node? .flow fuel r
        flowEntries? false fuel r (entries ++ [(k, .missing)])

end

end Reading

/-- The handles that have a meaning without a directive. -/
def standardHandles : List (String × String) := [("!", "!"), ("!!", "tag:yaml.org,2002:")]

/-- Reads the directives in front of a document: at most one version, which has to be one of the
first two of the language, and every handle at most once. -/
def directives? :
    List Token → Bool → List (String × String) → Option (List (String × String) × List Token)
  | .version major minor :: rest, versioned, handles =>
    if !versioned && major == 1 && (minor == 1 || minor == 2) then directives? rest true handles
    else none
  | .handle name meaning :: rest, versioned, handles =>
    if handles.any fun h => h.1 == name then none
    else directives? rest versioned (handles ++ [(name, meaning)])
  | rest, _, handles => some (handles, rest)

/-- Reads the node of a document. -/
def readRoot? (handles : List (String × String)) (tokens : List Token) :
    Option (Document × List Token) := do
  let r : Reading := { tokens, handles := handles ++ standardHandles }
  let (root, r) ← Reading.node? .block (6 * tokens.length + 6) r
  return (⟨root, r.anchored⟩, r.tokens)

/-- The document without a node. -/
def emptyDocument : Document := ⟨.missing, []⟩

/-- Reads a document that begins with directives or with its mark. -/
def readMarked? (tokens : List Token) : Option (Document × List Token) := do
  let (handles, rest) ← directives? tokens false []
  match rest with
  | .documentStart :: rest =>
    match rest with
    | [] => return (emptyDocument, [])
    | .version _ _ :: _ => return (emptyDocument, rest)
    | .handle _ _ :: _ => return (emptyDocument, rest)
    | .documentStart :: _ => return (emptyDocument, rest)
    | .documentEnd :: _ => return (emptyDocument, rest)
    | _ => readRoot? handles rest
  | _ => none

/-- Reads the first document. -/
def readFirst? (tokens : List Token) : Option (Document × List Token) :=
  match tokens with
  | [] => some (emptyDocument, [])
  | .version _ _ :: _ => readMarked? tokens
  | .handle _ _ :: _ => readMarked? tokens
  | .documentStart :: _ => readMarked? tokens
  | _ => readRoot? [] tokens

/-- The only document of a text; `none` if the text is not well formed or holds more than one. -/
def document? (text : String) : Option Document := do
  let (d, rest) ← readFirst? (← tokens? text)
  if rest.all (· == .documentEnd) then return d else none

end TupleSpace.Yaml
