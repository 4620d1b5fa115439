import TupleSpace.World.Closing

/-!
# Insertions and listeners

An insertion stores its value and then tells the listeners registered under the key, in the order
of their registration, each of them once.  What listeners do in turn happens before the calls that
the insertion woke run, and an insertion by a listener tells listeners again; this comes to an end
because every listener that inserts uses up a registration that nobody renews.
-/

namespace TupleSpace.World

/-- Stores a value without telling listeners. -/
def store (w : World) (i : Nat) (key : String) (value : Json) (timeout : Nat)
    (placement : Placement) : World × Except SpaceError Unit :=
  w.onMonitor i (.ok ()) fun m => m.perform (Engine.insert w.now key value timeout placement)

/-- Whether a listener is registered for a key of a space, lapsed registrations included. -/
def isWatched (w : World) (i : Nat) (key : String) : Bool :=
  (w.spaces[i]?.bind Space.registry).any fun r => r.isWatching key

/-- Stores a value; if it is stored and somebody was registered before, listeners are told. -/
def storeTelling (tell : World → Nat → String → Json → World) (w : World) (i : Nat)
    (key : String) (value : Json) (timeout : Nat) (placement : Placement) :
    World × Except SpaceError Unit :=
  let watched := w.isWatched i key
  match w.store i key value timeout placement with
  | (w, .error e) => (w, .error e)
  | (w, .ok ()) => (if watched then tell w i key value else w, .ok ())

/-- Takes or reads without waiting and without running the calls that this makes ready. -/
def probeUnsettled (w : World) (i : Nat) (mode : Mode) (key : String) (accepts : Json → Bool) :
    World × Except SpaceError (Option Json) :=
  w.onMonitor i (.ok none) fun m => m.probe w.now mode key accepts

/-- The registrations of a space, made if there are none yet. -/
def openRegistry (w : World) (i : Nat) : World × Except SpaceError Unit :=
  w.onSpace i (.ok ()) fun s =>
    match s.registry with
    | some _ => (s, .ok ())
    | none =>
      match Registry.open? s.name s.config w.now (spaceStamp s) with
      | .error e => (s, .error e)
      | .ok r => ({ s with registry := some r }, .ok ())

/-- Fails if a space has been closed. -/
def ensureOpen (w : World) (i : Nat) : Except SpaceError Unit :=
  match w.spaces[i]? with
  | none => .ok ()
  | some s => if s.isClosed then .error s.closedError else .ok ()

/-- Registers a listener for the next insertion under a key of a space. -/
def addListener (w : World) (i : Nat) (key : String) (listener timeout : Nat) :
    World × Except SpaceError Unit :=
  match w.ensureOpen i with
  | .error e => (w, .error e)
  | .ok () =>
    match w.openRegistry i with
    | (w, .error e) => (w, .error e)
    | (w, .ok ()) =>
      w.onSpace i (.ok ()) fun s =>
        match s.registry with
        | none => (s, .ok ())
        | some r =>
          let (r, result) := r.add w.now key listener timeout
          ({ s with registry := some r }, result)

/-- Removes the earliest registration of a listener under a key; true if there was one. -/
def removeListener (w : World) (i : Nat) (key : String) (listener : Nat) :
    World × Except SpaceError Bool :=
  match w.ensureOpen i with
  | .error e => (w, .error e)
  | .ok () =>
    w.onSpace i (.ok false) fun s =>
      match s.registry with
      | none => (s, .ok false)
      | some r =>
        let (r, result) := r.remove w.now key listener
        ({ s with registry := some r }, result)

/-- Takes the listeners registered under a key of a space. -/
def drainListeners (w : World) (i : Nat) (key : String) : World × List Nat :=
  w.onSpace i [] fun s =>
    match s.registry with
    | none => (s, [])
    | some r =>
      let (r, ids) := r.drain w.now key
      ({ s with registry := some r }, ids)

/-- Counts one event of a space. -/
def countEvent (w : World) (i : Nat) (e : Metrics.Event) : World :=
  (w.onSpace i () fun s => (s.count e, ())).1

/-- Tells one listener of an insertion into a space. -/
def tellOne (tell : World → Nat → String → Json → World) (i : Nat) (key : String) (value : Json)
    (w : World) (listener : Nat) : World :=
  let w := w.countEvent i .listenerFired
  match w.listeners[listener]? with
  | none => w
  | some l =>
    let w := w.note (.told l.name key value)
    match l.reaction with
    | .note => w
    | .panic => w.countEvent i .listenerPanic
    | .close => (w.closeUnsettled l.home).1
    | .again => (w.addListener l.home key listener 0).1
    | .take =>
      let (w, result) := w.probeUnsettled l.home .take key fun _ => true
      w.note (.took l.name result)
    | .out k v => (w.storeTelling tell l.home k v 0 .tail).1

/-- Tells the listeners registered under a key; insertions by listeners nest at most `depth`
deep. -/
def tell : Nat → World → Nat → String → Json → World
  | 0, w, _, _, _ => w
  | depth + 1, w, i, key, value =>
    let (w, ids) := w.drainListeners i key
    ids.foldl (tellOne (tell depth) i key value) w

/-- The number of registrations in all spaces, which bounds the nesting of insertions. -/
def registrations (w : World) : Nat :=
  (w.spaces.toList.map fun s => (s.registry.map Registry.size).getD 0).foldr (· + ·) 0

/-- Inserts a value and tells the listeners, without running the calls that this makes ready. -/
def insertUnsettled (w : World) (i : Nat) (key : String) (value : Json) (timeout : Nat)
    (placement : Placement) : World × Except SpaceError Unit :=
  w.storeTelling (tell (w.registrations + 1)) i key value timeout placement

/-- Inserts a value and tells the listeners. -/
def insert (w : World) (i : Nat) (key : String) (value : Json) (timeout : Nat)
    (placement : Placement) : World × Except SpaceError Unit :=
  let (w, result) := w.insertUnsettled i key value timeout placement
  (w.settle, result)

/-- Inserts a value behind the back of the listeners. -/
def insertSilently (w : World) (i : Nat) (key : String) (value : Json) (timeout : Nat)
    (placement : Placement) : World × Except SpaceError Unit :=
  let (w, result) := w.store i key value timeout placement
  (w.settle, result)

end TupleSpace.World
