import TupleSpace.Engine.SingleLock
import TupleSpace.Json.Described
import TupleSpace.Listener.Registry

/-!
# Spaces

A space is an engine of one of two kinds with the calls blocked on it, the registrations of its
listeners, and, if it is persistent, the file that keeps its contents.  The registrations exist from
the first listener on.

Everything here concerns one space at one instant; the clock, and what a listener does to other
spaces, belong to the world around it.
-/

namespace TupleSpace

/-- The engine of a space with its blocked calls, by kind. -/
inductive Backing where
  | perKey (monitor : Monitor (PerKey String Json) String Json)
  | singleLock (monitor : Monitor (SingleLock String Json) String Json)

namespace Backing

/-- Something read off the monitor, whatever its kind. -/
def view {β : Type} (f : {σ : Type} → [Engine σ String Json] → Monitor σ String Json → β) :
    Backing → β
  | perKey m => f m
  | singleLock m => f m

/-- An operation on the monitor, whatever its kind. -/
def modify {β : Type}
    (f : {σ : Type} → [Engine σ String Json] → Monitor σ String Json → Monitor σ String Json × β) :
    Backing → Backing × β
  | perKey m => let (m, b) := f m; (perKey m, b)
  | singleLock m => let (m, b) := f m; (singleLock m, b)

/-- Something read off the engine, whatever its kind. -/
def viewEngine {β : Type} (f : {σ : Type} → [Engine σ String Json] → σ → β) (b : Backing) : β :=
  b.view fun m => f m.engine

end Backing

/-- What was restored when a persistent space was opened. -/
structure LoadReport where
  restored : Nat := 0
  /-- Entries that had expired in the meantime. -/
  skipped : Nat := 0
deriving DecidableEq, Repr

/-- The file of a persistent space. -/
structure Storage where
  path : String
  loaded : LoadReport := {}
deriving DecidableEq, Repr

/-- A space. -/
structure Space where
  backing : Backing
  registry : Option Registry := none
  storage : Option Storage := none

namespace Space

/-- The name of the space. -/
def name (s : Space) : String := s.backing.viewEngine Engine.name

/-- The settings of the space. -/
def config (s : Space) : SpaceConfig := s.backing.viewEngine Engine.config

/-- Whether the space has been closed. -/
def isClosed (s : Space) : Bool := s.backing.viewEngine Engine.isClosed

/-- The counters of the space. -/
def metrics (s : Space) : Metrics := s.backing.viewEngine Engine.metrics

/-- The keys that own storage. -/
def keys (s : Space) : List String := s.backing.viewEngine Engine.keys

/-- The number of entries stored under a key, expired ones included. -/
def size (s : Space) (key : String) : Nat := s.backing.viewEngine fun e => Engine.size e key

/-- The number of keys that await a sweep of a generation. -/
def pending (s : Space) (gen : Generation) : Nat :=
  s.backing.viewEngine fun e => Engine.pending e gen

/-- Whether a background sweeper runs. -/
def isSwept (s : Space) : Bool := s.backing.view fun m => m.sweeper.isSome

/-- The error of a closed space. -/
def closedError (s : Space) : SpaceError := .closed s.name

/-- A space with one record per key. -/
def perKey (name : String) (config : SpaceConfig) (now stamp : Nat) : Except SpaceError Space :=
  match config.validate with
  | .error e => .error (.invalidArgument (.settings e))
  | .ok () => .ok { backing := .perKey (Monitor.start (PerKey.new name config) now stamp) }

/-- A space with a single lock. -/
def singleLock (name : String) (config : SpaceConfig) (now stamp : Nat) :
    Except SpaceError Space :=
  match config.validate with
  | .error e => .error (.invalidArgument (.settings e))
  | .ok () =>
    .ok { backing := .singleLock (Monitor.start (SingleLock.new name config) now stamp) }

/-- The live entries of every key that has any, of a space with one record per key. -/
def liveEntries (s : Space) (now : Nat) : List (String × List (Entry Json)) :=
  match s.backing with
  | .perKey m => m.engine.liveEntries now
  | .singleLock _ => []

/-- Counts one event. -/
def count (e : Metrics.Event) (s : Space) : Space :=
  let (backing, ()) := s.backing.modify fun m =>
    ({ m with engine := Engine.count e m.engine }, ())
  { s with backing }

/-- The first alarm of the space and of its registrations. -/
def nextAlarm? (s : Space) : Option Alarm :=
  Alarm.earlier? (s.backing.view fun m => m.nextAlarm?)
    (s.registry.bind fun r => r.monitor.nextAlarm?)

/-- The listing of a space, each line behind the indentation. -/
def dumpLines (s : Space) (now : Nat) (indent : String) : List String :=
  let file := s.storage.toList.map fun f => indent ++ "snapshot " ++ f.path
  let own := s.backing.viewEngine fun e => (Listing.ofEngine Json.describe now e).lines indent
  let listeners := s.registry.toList.flatMap fun r => (r.listing now).lines (indent ++ "  ")
  file ++ own ++ listeners

/-- The listing of a space as a text; every line ends in a line break. -/
def dump (s : Space) (now : Nat) (indent : String) : String :=
  String.join ((s.dumpLines now indent).map (· ++ "\n"))

/-- What is shown of the engine of a space. -/
def describeEngine (s : Space) : String :=
  match s.backing with
  | .perKey m => m.engine.describe Text.quote
  | .singleLock m => m.engine.describe Text.quote

/-- What is shown of a space. -/
def describe (s : Space) : String :=
  match s.backing with
  | .perKey m =>
    let listeners :=
      match s.registry with
      | none => "None"
      | some r => "Some(" ++ r.describe ++ ")"
    "LocalSpace \x7b core: " ++ m.engine.describe Text.quote ++ ", listeners: " ++ listeners ++
      " \x7d"
  | .singleLock m => m.engine.describe Text.quote

end Space

end TupleSpace
