import TupleSpace.World.Calls

/-!
# Looking up spaces

The operations of a directory.  A lookup returns the space that was made last for a normal form as
long as it is open, and makes a new one otherwise; if that fails the directory is as it was.
-/

namespace TupleSpace.World

/-- The directory, or an empty one. -/
def directoryOf (w : World) : Directory := w.directory.getD {}

/-- Whether a space has been closed. -/
def isClosedSpace (w : World) (i : Nat) : Bool :=
  (w.spaces[i]?.map Space.isClosed).getD true

/-- The cached space of a normal form, if it is open. -/
def cached? (w : World) (name : String) : Option Nat :=
  (w.directoryOf.slot? name).bind fun i => if w.isClosedSpace i then none else some i

/-- Adds a space that may have failed to open. -/
def addOpened (w : World) (s : Except SpaceError Space) : World × Except SpaceError Nat :=
  match s with
  | .error e => (w, .error e)
  | .ok s =>
    let (w, i) := w.addSpace s
    (w, .ok i)

/-- Makes a space that starts with one entry: the parameter, under the name of another space. -/
def makeReferring (lookup : World → String → World × Except SpaceError Nat) (w : World)
    (u : SpaceUri) (config : SpaceConfig) : World × Except SpaceError Nat :=
  match lookup w (SpaceUri.defaultScheme ++ ":" ++ u.name) with
  | (w, .error e) => (w, .error e)
  | (w, .ok other) =>
    let name := (w.spaces[other]?.map Space.name).getD ""
    match w.addOpened (Space.singleLock u.text config w.now w.stamp) with
    | (w, .error e) => (w, .error e)
    | (w, .ok i) =>
      let value := (u.param.map Json.string).getD .null
      match w.insertUnsettled i name value 0 .tail with
      | (w, .error e) => (w, .error e)
      | (w, .ok ()) => (w, .ok i)

/-- Makes the space of a directory string. -/
def makeSpace (lookup : World → String → World × Except SpaceError Nat) (w : World)
    (u : SpaceUri) (factory : Factory) (config : SpaceConfig) : World × Except SpaceError Nat :=
  match factory with
  | .perKey => w.addOpened (Space.perKey u.text config w.now w.stamp)
  | .singleLock => w.addOpened (Space.singleLock u.text config w.now w.stamp)
  | .persistent =>
    match u.param with
    | none => (w, .error (.invalidArgument (.missingPath u.text)))
    | some path => w.addOpened (w.openPersistent u.text path config)
  | .referring => makeReferring lookup w u config
  | .refusing reason => (w, .error (.invalidArgument (.other reason)))

/-- Looks up a directory string; a factory may look up others, at most `depth` deep. -/
def lookupFrom : Nat → World → String → World × Except SpaceError Nat
  | 0, w, text => (w, .error (.coordination (.other ("lookup of " ++ text)) none))
  | depth + 1, w, text =>
    match SpaceUri.parse text with
    | .error e => (w, .error e)
    | .ok u =>
      match w.directoryOf.factory? u.scheme with
      | none => (w, .error (.invalidArgument (.unknownScheme u.scheme)))
      | some factory =>
        match w.cached? u.text with
        | some i => (w, .ok i)
        | none =>
          let config := w.directoryOf.config.configFor u.text
          match makeSpace (lookupFrom depth) w u factory config with
          | (w, .error e) => (w, .error e)
          | (w, .ok i) => ({ w with directory := some (w.directoryOf.cache u.text i) }, .ok i)

/-- Looks up a directory string. -/
def lookup (w : World) (text : String) : World × Except SpaceError Nat :=
  let (w, result) := lookupFrom 4 w text
  (w.settle, result)

/-- Whether a directory string leads to an open space that exists already. -/
def containsSpace (w : World) (text : String) : Bool :=
  match SpaceUri.parse text with
  | .error _ => false
  | .ok u => (w.cached? u.text).isSome

/-- Closes and forgets the space of a directory string; false if there is none. -/
def release (w : World) (text : String) : World × Except SpaceError Bool :=
  match SpaceUri.parse text with
  | .error e => (w, .error e)
  | .ok u =>
    match w.directoryOf.slot? u.text with
    | none => (w, .ok false)
    | some i =>
      let w := { w with directory := some (w.directoryOf.evict u.text) }
      let (w, closed) := w.close i
      (w, closed.map fun _ => true)

/-- Closes spaces one after the other; the first failure is reported. -/
def closeEach : List Nat → World → World × Except SpaceError Unit
  | [], w => (w, .ok ())
  | i :: rest, w =>
    let (w, first) := w.close i
    let (w, others) := closeEach rest w
    match first with
    | .error e => (w, .error e)
    | .ok () => (w, others)

/-- Closes and forgets every cached space; the first failure is reported. -/
def closeAll (w : World) : World × Except SpaceError Unit :=
  let spaces := w.directoryOf.slots.map Prod.snd
  closeEach spaces { w with directory := some { w.directoryOf with slots := [] } }

/-- What is shown of the directory. -/
def describeDirectory (w : World) : String :=
  let texts (names : List String) : String := ", ".intercalate (names.map Text.quote)
  "SpaceDirectory \x7b schemes: [" ++ texts w.directoryOf.schemeNames ++ "], spaces: [" ++
    texts w.directoryOf.names ++ "] \x7d"

end TupleSpace.World
