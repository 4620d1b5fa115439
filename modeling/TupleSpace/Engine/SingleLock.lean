import TupleSpace.Engine.PerKey

/-!
# The engine with a single lock

All queues in one map, and one condition that every change of the space raises, so that every
blocked call runs again on every change.  A key is in the map exactly while its queue holds an
entry, expired or not; blocked calls own no storage.
-/

namespace TupleSpace

/-- The state of the engine. -/
structure SingleLock (κ α : Type) where
  name : String
  config : SpaceConfig
  queues : List (κ × KeyQueue α) := []
  generations : Generations κ
  metrics : Metrics := {}
  closed : Bool := false

namespace SingleLock

variable {κ α : Type} [DecidableEq κ]

/-- An engine without entries. -/
def new (name : String) (config : SpaceConfig) : SingleLock κ α where
  name := name
  config := config
  generations := { threshold := config.shortThreshold }

/-- The queue of a key. -/
def find? (s : SingleLock κ α) (key : κ) : Option (KeyQueue α) :=
  (s.queues.find? fun p => decide (p.1 = key)).map Prod.snd

/-- Replaces the queue of a key that has one. -/
def update (s : SingleLock κ α) (key : κ) (q : KeyQueue α) : SingleLock κ α :=
  { s with queues := s.queues.map fun p => if p.1 = key then (key, q) else p }

/-- Gives up the queue of a key, and whatever sweep the key awaits. -/
def erase (s : SingleLock κ α) (key : κ) : SingleLock κ α :=
  { s with
    queues := s.queues.filter fun p => decide (p.1 ≠ key)
    generations := s.generations.forget key
    metrics := s.metrics.count .recordRemoved }

/-- Sets the queue of a key that may be new. -/
def put (s : SingleLock κ α) (key : κ) (q : KeyQueue α) : SingleLock κ α :=
  match s.find? key with
  | some _ => s.update key q
  | none => { s with queues := s.queues ++ [(key, q)] }

/-- Counts one event. -/
def count (e : Metrics.Event) (s : SingleLock κ α) : SingleLock κ α :=
  { s with metrics := s.metrics.count e }

/-- Counts dropped entries. -/
def countExpired (n : Nat) (s : SingleLock κ α) : SingleLock κ α :=
  { s with metrics := s.metrics.countExpired n }

/-- The error of a closed engine. -/
def closedError (s : SingleLock κ α) : SpaceError := .closed s.name

/-- Walks along the queue of a key; a queue left empty is given up, which is a change. -/
def scan (now : Nat) (mode : Mode) (accepts : α → Bool) (key : κ) (s : SingleLock κ α) :
    Turn (SingleLock κ α) (Option α) :=
  match s.find? key with
  | none => .pure s none
  | some q =>
    let found := PerKey.scanQueue now mode accepts q
    let s := s.countExpired found.expired
    if found.queue.isEmpty then
      { state := s.erase key, raised := [.changed], result := found.found }
    else .pure (s.update key found.queue) found.found

/-- A take or a read. -/
def retrieve (now : Nat) (cancelled : Bool) (q : Retrieval κ α) (s : SingleLock κ α) :
    Turn (SingleLock κ α) (Progress α) :=
  if s.closed then .pure s (.finished (.error s.closedError))
  else
    (scan now q.mode q.accepts q.key s).bind fun s found =>
      match found with
      | some v =>
        .pure (s.count (PerKey.foundEvent q.mode)) (.finished (.ok (.found (some v))))
      | none =>
        let places : List Condition := if q.token.isSome then [.changed] else []
        if q.patience.isOver now || cancelled then
          (Turn.pure (s.count (PerKey.missEvent q.patience))
            (.finished (.ok (.found none)))).parkedOn places
        else (Turn.pure s (.waiting .changed q.patience.deadline?)).parkedOn places

/-- A call that waits for a key to be drained. -/
def drain (now : Nat) (key : κ) (patience : Patience) (s : SingleLock κ α) :
    Turn (SingleLock κ α) (Progress α) :=
  if s.closed then .pure s (.finished (.error s.closedError))
  else
    (scan now .read (fun _ => true) key s).bind fun s found =>
      match found, patience.deadline? with
      | none, _ => .pure s (.finished (.ok (.found none)))
      | some v, some d =>
        if d ≤ now then .pure s (.finished (.ok (.found (some v))))
        else .pure s (.waiting .changed (some (PerKey.pollAt now s.config (some d))))
      | some _, none => .pure s (.waiting .changed (some (PerKey.pollAt now s.config none)))

/-- Whether a key has a live entry.  A queue left empty is given up without announcing it. -/
def hasLive (now : Nat) (key : κ) (s : SingleLock κ α) : SingleLock κ α × Bool :=
  match s.find? key with
  | none => (s, false)
  | some q =>
    let look := q.hasLive now
    let s := s.countExpired look.expired
    (if look.queue.isEmpty then s.erase key else s.update key look.queue, look.found)

/-- Whether one of some keys has a live entry; keys behind the first such key are not looked at. -/
def anyLive (now : Nat) : List κ → SingleLock κ α → SingleLock κ α × Bool
  | [], s => (s, false)
  | key :: rest, s =>
    match hasLive now key s with
    | (s, true) => (s, true)
    | (s, false) => anyLive now rest s

/-- Whether one of some keys has a live entry. -/
def existsAny (now : Nat) (keys : List κ) (s : SingleLock κ α) :
    Turn (SingleLock κ α) (Except SpaceError Bool) :=
  if s.closed then .pure s (.error s.closedError)
  else
    let (s, live) := anyLive now keys s
    .pure s (.ok live)

/-- A call that waits for one of some keys to have a live entry. -/
def presence (now : Nat) (keys : List κ) (deadline : Option Nat) (s : SingleLock κ α) :
    Turn (SingleLock κ α) (Progress α) :=
  (existsAny now keys s).bind fun s live =>
    match live with
    | .error e => .pure s (.finished (.error e))
    | .ok true => .pure s (.finished (.ok (.present true)))
    | .ok false =>
      if deadline.any fun d => decide (d ≤ now) then .pure s (.finished (.ok (.present false)))
      else .pure s (.waiting .changed (some (PerKey.pollAt now s.config deadline)))

/-- Runs a request; it makes no difference whether it has run before. -/
def attempt (now : Nat) (cancelled : Bool) (q : Request κ α) (s : SingleLock κ α) :
    Turn (SingleLock κ α) (Progress α) :=
  match q with
  | .retrieve q => retrieve now cancelled q s
  | .drain key patience => drain now key patience s
  | .presence keys deadline => presence now keys deadline s

/-- Stores a value.  The timeout is looked at before anything else. -/
def insert (now : Nat) (key : κ) (value : α) (timeout : Nat) (placement : Placement)
    (s : SingleLock κ α) : Turn (SingleLock κ α) (Except SpaceError Unit) :=
  match Entry.withTimeout? value timeout now with
  | none => .pure s (.error (.invalidArgument (.timeoutOutOfRange timeout)))
  | some entry =>
    if s.closed then .pure s (.error s.closedError)
    else
      let q := (s.find? key).getD {}
      let s := s.put key (q.insert entry placement)
      let s :=
        if timeout = 0 then s else { s with generations := s.generations.register key timeout }
      { state := s.count .insert, raised := [.changed], result := .ok () }

/-- Sweeps the queue of one key that awaited a sweep. -/
def sweepKey (now : Nat) (gen : Generation) (key : κ) (report : SweepReport)
    (s : SingleLock κ α) : SingleLock κ α × SweepReport :=
  let report := { report with keys := report.keys + 1 }
  match s.find? key with
  | none => (s, report)
  | some q =>
    let purge := q.purgeExpired now
    let report := { report with expired := report.expired + purge.expired }
    let s :=
      if purge.found then { s with generations := s.generations.registerIn gen key } else s
    if purge.queue.isEmpty then
      (s.erase key, { report with recordsRemoved := report.recordsRemoved + 1 })
    else (s.update key purge.queue, report)

/-- Sweeps the queues of some keys. -/
def sweepKeys (now : Nat) (gen : Generation) :
    List κ → SweepReport → SingleLock κ α → SingleLock κ α × SweepReport
  | [], report, s => (s, report)
  | key :: rest, report, s =>
    let (s, report) := sweepKey now gen key report s
    sweepKeys now gen rest report s

/-- Sweeps a generation.  A sweep of nothing is not counted. -/
def sweep (now : Nat) (gen : Generation) (s : SingleLock κ α) :
    Turn (SingleLock κ α) SweepReport :=
  let (keys, generations) := s.generations.take gen
  let s := { s with generations := generations }
  if keys.isEmpty || s.closed then .pure s {}
  else
    let (s, report) := sweepKeys now gen keys {} s
    { state := (s.countExpired report.expired).count .sweep
      raised := if 0 < report.recordsRemoved then [.changed] else []
      result := report }

/-- Gives up all queues. -/
def clear (s : SingleLock κ α) : Turn (SingleLock κ α) Unit where
  state := { s with queues := [], generations := s.generations.clear }
  raised := [.changed]
  result := ()

instance : Engine (SingleLock κ α) κ α where
  name s := s.name
  config s := s.config
  isClosed s := s.closed
  metrics s := s.metrics
  count := count
  keys s := s.queues.map Prod.fst
  stored s key := ((s.find? key).map KeyQueue.entries).getD []
  awaiting s gen := s.generations.awaiting gen
  insert := insert
  attempt := attempt
  resume now cancelled q _ s := attempt now cancelled q s
  existsAny := existsAny
  sweep := sweep
  shut s := { s with closed := true }
  clear := clear

/-- What is shown of an engine. -/
def describe (quoted : String → String) (s : SingleLock κ α) : String :=
  "GlobalLockSpace \x7b name: " ++ quoted s.name ++ ", closed: " ++ toString s.closed ++ " \x7d"

end SingleLock

end TupleSpace
