import TupleSpace.Engine.PerKey
import TupleSpace.Listing
import TupleSpace.Monitor

/-!
# Registrations of listeners

Listeners are told of the next insertion under a key, once.  Their registrations are entries of a
per-key engine of their own, whose values are the numbers of the listeners, so a registration can
lapse like any other entry and is swept like one; no call ever waits on this engine.
-/

namespace TupleSpace

/-- The registrations of listeners for one space. -/
structure Registry where
  monitor : Monitor (PerKey String Nat) String Nat

namespace Registry

/-- The registry of the space with a name, unless its settings are not valid. -/
def open? (owner : String) (config : SpaceConfig) (now stamp : Nat) :
    Except SpaceError Registry :=
  match config.validate with
  | .error e => .error (.invalidArgument (.settings e))
  | .ok () => .ok ⟨Monitor.start (PerKey.new (owner ++ ".listeners") config) now stamp⟩

/-- Registers a listener for the next insertion under a key; a timeout other than zero makes the
registration lapse. -/
def add (now : Nat) (key : String) (listener timeout : Nat) (r : Registry) :
    Registry × Except SpaceError Unit :=
  let (m, result) := r.monitor.perform (Engine.insert now key listener timeout .tail)
  (⟨m⟩, result)

/-- Removes the earliest registration of a listener under a key; true if there was one. -/
def remove (now : Nat) (key : String) (listener : Nat) (r : Registry) :
    Registry × Except SpaceError Bool :=
  let (m, found) := r.monitor.probe now .take key (· == listener)
  (⟨m⟩, found.map Option.isSome)

/-- Whether anything is registered under a key, lapsed or not. -/
def isWatching (key : String) (r : Registry) : Bool :=
  0 < Engine.size r.monitor.engine key

/-- Takes the listeners registered under a key; none of a closed registry. -/
def drain (now : Nat) (key : String) (r : Registry) : Registry × List Nat :=
  let (m, taken) := r.monitor.perform (PerKey.takeAll now key)
  (⟨m⟩, taken.toOption.getD [])

/-- The number of registrations, lapsed ones included. -/
def size (r : Registry) : Nat :=
  (r.monitor.engine.records.map fun x => x.queue.size).foldr (· + ·) 0

/-- The listeners of all registrations. -/
def registered (r : Registry) : List Nat :=
  r.monitor.engine.records.flatMap fun x => x.queue.entries.map Entry.value

/-- Whether the registry has been closed. -/
def isClosed (r : Registry) : Bool := r.monitor.engine.closed

/-- Refuses every operation from now on and drops all registrations. -/
def close (r : Registry) : Registry :=
  if r.isClosed then r else ⟨r.monitor.shut.clear⟩

/-- The listing of a registry.  Listeners have no text, so all of them look alike. -/
def listing (now : Nat) (r : Registry) : Listing :=
  Listing.ofEngine (fun _ => "Listener@PTR") now r.monitor.engine

/-- What is shown of a registry. -/
def describe (r : Registry) : String :=
  "ListenerRegistry \x7b keys: " ++ toString r.monitor.engine.records.length ++ " \x7d"

end Registry

end TupleSpace
