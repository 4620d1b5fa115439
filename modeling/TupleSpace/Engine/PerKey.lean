import TupleSpace.Engine

/-!
# The engine with one record per key

Every key owns a record with a queue, the number of retrievals that wait on it, and two conditions.
A record is made when a key is first used and given up again as soon as its queue is empty and
nobody waits on it; the step that looks after this is `settle`.  An insertion wakes the calls that
wait on its own key only.

A record that has been given up is never used again: its number stays unused, and a call that
waited on it starts afresh.
-/

namespace TupleSpace

/-- The storage of one key. -/
structure Record (κ α : Type) where
  key : κ
  /-- The number that tells this record from all others the engine ever had. -/
  id : Nat
  queue : KeyQueue α := {}
  /-- The number of retrievals that wait on the record. -/
  waiters : Nat := 0

/-- The state of the engine. -/
structure PerKey (κ α : Type) where
  name : String
  config : SpaceConfig
  records : List (Record κ α) := []
  /-- The number of the next record. -/
  nextId : Nat := 0
  generations : Generations κ
  metrics : Metrics := {}
  closed : Bool := false

namespace PerKey

variable {κ α : Type} [DecidableEq κ]

/-- An engine without entries. -/
def new (name : String) (config : SpaceConfig) : PerKey κ α where
  name := name
  config := config
  generations := { threshold := config.shortThreshold }

/-- The record of a key. -/
def find? (s : PerKey κ α) (key : κ) : Option (Record κ α) :=
  s.records.find? fun r => decide (r.key = key)

/-- Puts a record in the place of the one of the same key. -/
def update (s : PerKey κ α) (r : Record κ α) : PerKey κ α :=
  { s with records := s.records.map fun x => if x.key = r.key then r else x }

/-- Gives up the record of a key. -/
def erase (s : PerKey κ α) (key : κ) : PerKey κ α :=
  { s with records := s.records.filter fun r => decide (r.key ≠ key) }

/-- The record of a key, made if it is missing. -/
def obtain (s : PerKey κ α) (key : κ) : PerKey κ α × Record κ α :=
  match s.find? key with
  | some r => (s, r)
  | none =>
    let r : Record κ α := { key := key, id := s.nextId }
    ({ s with records := s.records ++ [r], nextId := s.nextId + 1 }, r)

/-- Counts one event. -/
def count (e : Metrics.Event) (s : PerKey κ α) : PerKey κ α :=
  { s with metrics := s.metrics.count e }

/-- Counts dropped entries. -/
def countExpired (n : Nat) (s : PerKey κ α) : PerKey κ α :=
  { s with metrics := s.metrics.countExpired n }

/-- The error of a closed engine. -/
def closedError (s : PerKey κ α) : SpaceError := .closed s.name

/-- Housekeeping at the end of an operation on a key: if its queue is empty this is announced, and
unless a retrieval waits on the record it is given up.  The result tells whether it was. -/
def settle (key : κ) (s : PerKey κ α) : Turn (PerKey κ α) Bool :=
  match s.find? key with
  | none => .pure s false
  | some r =>
    if r.queue.isEmpty then
      if r.waiters = 0 then
        { state := ({ s.erase key with generations := s.generations.forget key }).count
            .recordRemoved
          raised := [.becameEmpty r.id]
          result := true }
      else { state := s, raised := [.becameEmpty r.id], result := false }
    else .pure s false

/-- Walks along a queue in the way of a mode. -/
def scanQueue (now : Nat) (mode : Mode) (accepts : α → Bool) (q : KeyQueue α) :
    Scan α (Option α) :=
  match mode with
  | .take => q.takeFirst now accepts
  | .read => q.readFirst now accepts

/-- Walks along the queue of a record that the engine holds. -/
def scan (now : Nat) (mode : Mode) (accepts : α → Bool) (r : Record κ α) (s : PerKey κ α) :
    PerKey κ α × Record κ α × Option α :=
  let found := scanQueue now mode accepts r.queue
  let r := { r with queue := found.queue }
  ((s.update r).countExpired found.expired, r, found.found)

/-- The event of a retrieval that found a value. -/
def foundEvent : Mode → Metrics.Event
  | .take => .take
  | .read => .read

/-- Ends a request on a key. -/
def finish (key : κ) (outcome : Outcome α) (s : PerKey κ α) : Turn (PerKey κ α) (Progress α) :=
  (settle key s).andReturn (.finished outcome)

/-- The event of a retrieval that gives up. -/
def missEvent : Patience → Metrics.Event
  | .probe => .probeMiss
  | _ => .timeout

/-- A retrieval looks at the record of its key: it ends, or waits on the record. -/
def look (now : Nat) (cancelled : Bool) (q : Retrieval κ α) (r : Record κ α) (s : PerKey κ α) :
    Turn (PerKey κ α) (Progress α) :=
  match scan now q.mode q.accepts r s with
  | (s, _, some v) => finish q.key (.ok (.found (some v))) (s.count (foundEvent q.mode))
  | (s, r, none) =>
    if s.closed then finish q.key (.error s.closedError) s
    else
      let places : List Condition :=
        if q.token.isSome then [.valueArrived r.id, .becameEmpty r.id] else []
      if q.patience.isOver now || cancelled then
        (finish q.key (.ok (.found none)) (s.count (missEvent q.patience))).parkedOn places
      else
        { state := s.update { r with waiters := r.waiters + 1 }
          result := .waiting (.valueArrived r.id) q.patience.deadline?
          parked := places }

/-- A retrieval runs for the first time, or after its record was given up. -/
def retrieve (now : Nat) (cancelled : Bool) (q : Retrieval κ α) (s : PerKey κ α) :
    Turn (PerKey κ α) (Progress α) :=
  if s.closed then .pure s (.finished (.error s.closedError))
  else
    match q.patience, s.find? q.key with
    | .probe, none => .pure (s.count .probeMiss) (.finished (.ok (.found none)))
    | _, some r => look now cancelled q r s
    | _, none =>
      let (s, r) := s.obtain q.key
      look now cancelled q r s

/-- A retrieval that waited on a record runs again. -/
def retrieveAgain (now : Nat) (cancelled : Bool) (q : Retrieval κ α) (record : Nat)
    (s : PerKey κ α) : Turn (PerKey κ α) (Progress α) :=
  match s.find? q.key with
  | some r =>
    if r.id = record then
      let r := { r with waiters := r.waiters - 1 }
      look now cancelled q r (s.update r)
    else retrieve now cancelled q s
  | none => retrieve now cancelled q s

/-- The instant at which a call that polls looks again. -/
def pollAt (now : Nat) (config : SpaceConfig) (deadline : Option Nat) : Nat :=
  match deadline with
  | some d => min d (now + config.poll)
  | none => now + config.poll

/-- A call that waits for a key to be drained looks at the record of its key. -/
def drainLook (now : Nat) (key : κ) (patience : Patience) (r : Record κ α) (s : PerKey κ α) :
    Turn (PerKey κ α) (Progress α) :=
  match scan now .read (fun _ => true) r s with
  | (s, _, none) => finish key (.ok (.found none)) s
  | (s, r, some v) =>
    if s.closed then .pure s (.finished (.error s.closedError))
    else
      match patience.deadline? with
      | some d =>
        if d ≤ now then .pure s (.finished (.ok (.found (some v))))
        else .pure s (.waiting (.becameEmpty r.id) (some (pollAt now s.config (some d))))
      | none => .pure s (.waiting (.becameEmpty r.id) (some (pollAt now s.config none)))

/-- A call that waits for a key to be drained runs for the first time, or after its record was
given up. -/
def drain (now : Nat) (key : κ) (patience : Patience) (s : PerKey κ α) :
    Turn (PerKey κ α) (Progress α) :=
  if s.closed then .pure s (.finished (.error s.closedError))
  else
    match s.find? key with
    | none => .pure s (.finished (.ok (.found none)))
    | some r => drainLook now key patience r s

/-- A call that waited for a record to be drained runs again. -/
def drainAgain (now : Nat) (key : κ) (patience : Patience) (record : Nat) (s : PerKey κ α) :
    Turn (PerKey κ α) (Progress α) :=
  match s.find? key with
  | some r => if r.id = record then drainLook now key patience r s else drain now key patience s
  | none => drain now key patience s

/-- Whether a key has a live entry. -/
def hasLive (now : Nat) (key : κ) (s : PerKey κ α) : Turn (PerKey κ α) Bool :=
  match s.find? key with
  | none => .pure s false
  | some r =>
    let look := r.queue.hasLive now
    let s := (s.update { r with queue := look.queue }).countExpired look.expired
    if look.found then .pure s true else (settle key s).andReturn false

/-- Whether one of some keys has a live entry; keys behind the first such key are not looked at. -/
def anyLive (now : Nat) : List κ → PerKey κ α → Turn (PerKey κ α) Bool
  | [], s => .pure s false
  | key :: rest, s =>
    (hasLive now key s).bind fun s live => if live then .pure s true else anyLive now rest s

/-- Whether one of some keys has a live entry. -/
def existsAny (now : Nat) (keys : List κ) (s : PerKey κ α) :
    Turn (PerKey κ α) (Except SpaceError Bool) :=
  if s.closed then .pure s (.error s.closedError) else (anyLive now keys s).map .ok

/-- A call that waits for one of some keys to have a live entry.

Looking at the keys and going to wait are one step, so no insertion comes in between, and the signal
that something has been inserted needs no epoch to tell whether one did.  Nor does it count those
who watch it: the count only keeps an insertion from raising a condition on which nobody waits.  An
insertion that comes later raises `.inserted`, and whoever is woken by it looks at all keys
again. -/
def presence (now : Nat) (keys : List κ) (deadline : Option Nat) (s : PerKey κ α) :
    Turn (PerKey κ α) (Progress α) :=
  (existsAny now keys s).bind fun s live =>
    match live with
    | .error e => .pure s (.finished (.error e))
    | .ok true => .pure s (.finished (.ok (.present true)))
    | .ok false =>
      if deadline.any fun d => decide (d ≤ now) then .pure s (.finished (.ok (.present false)))
      else .pure s (.waiting .inserted (some (pollAt now s.config deadline)))

/-- Runs a request for the first time. -/
def attempt (now : Nat) (cancelled : Bool) (q : Request κ α) (s : PerKey κ α) :
    Turn (PerKey κ α) (Progress α) :=
  match q with
  | .retrieve q => retrieve now cancelled q s
  | .drain key patience => drain now key patience s
  | .presence keys deadline => presence now keys deadline s

/-- Runs a request again that has waited on a condition. -/
def resume (now : Nat) (cancelled : Bool) (q : Request κ α) (on : Condition) (s : PerKey κ α) :
    Turn (PerKey κ α) (Progress α) :=
  match q, on with
  | .retrieve q, .valueArrived record => retrieveAgain now cancelled q record s
  | .drain key patience, .becameEmpty record => drainAgain now key patience record s
  | q, _ => attempt now cancelled q s

/-- Stores a value. -/
def insert (now : Nat) (key : κ) (value : α) (timeout : Nat) (placement : Placement)
    (s : PerKey κ α) : Turn (PerKey κ α) (Except SpaceError Unit) :=
  if s.closed then .pure s (.error s.closedError)
  else
    match Entry.withTimeout? value timeout now with
    | none => .pure s (.error (.invalidArgument (.timeoutOutOfRange timeout)))
    | some entry =>
      let (s, r) := s.obtain key
      let s := s.update { r with queue := r.queue.insert entry placement }
      let s :=
        if timeout = 0 then s else { s with generations := s.generations.register key timeout }
      { state := s.count .insert
        raised := [.valueArrived r.id, .inserted]
        result := .ok () }

/-- Sweeps the record of one key that awaited a sweep. -/
def sweepKey (now : Nat) (gen : Generation) (key : κ) (report : SweepReport) (s : PerKey κ α) :
    Turn (PerKey κ α) SweepReport :=
  let report := { report with keys := report.keys + 1 }
  match s.find? key with
  | none => .pure s report
  | some r =>
    let purge := r.queue.purgeExpired now
    let report := { report with expired := report.expired + purge.expired }
    let s := s.update { r with queue := purge.queue }
    let s :=
      if purge.found then { s with generations := s.generations.registerIn gen key } else s
    (settle key s).map fun removed =>
      if removed then { report with recordsRemoved := report.recordsRemoved + 1 } else report

/-- Sweeps the records of some keys. -/
def sweepKeys (now : Nat) (gen : Generation) :
    List κ → SweepReport → PerKey κ α → Turn (PerKey κ α) SweepReport
  | [], report, s => .pure s report
  | key :: rest, report, s =>
    (sweepKey now gen key report s).bind fun s report => sweepKeys now gen rest report s

/-- Sweeps a generation. -/
def sweep (now : Nat) (gen : Generation) (s : PerKey κ α) : Turn (PerKey κ α) SweepReport :=
  if s.closed then .pure s {}
  else
    let (keys, generations) := s.generations.take gen
    (sweepKeys now gen keys {} { s with generations := generations }).bind fun s report =>
      .pure ((s.countExpired report.expired).count .sweep) report

/-- Takes every live value under a key, counting each as taken. -/
def takeAll (now : Nat) (key : κ) (s : PerKey κ α) :
    Turn (PerKey κ α) (Except SpaceError (List α)) :=
  if s.closed then .pure s (.error s.closedError)
  else
    match s.find? key with
    | none => .pure s (.ok [])
    | some r =>
      let live := (r.queue.live now).map Entry.value
      let s := (s.update { r with queue := {} }).countExpired (r.queue.size - live.length)
      let s := { s with metrics := { s.metrics with takes := s.metrics.takes + live.length } }
      (settle key s).andReturn (.ok live)

/-- The live entries of every key that has any. -/
def liveEntries (now : Nat) (s : PerKey κ α) : List (κ × List (Entry α)) :=
  s.records.filterMap fun r =>
    match r.queue.live now with
    | [] => none
    | entries => some (r.key, entries)

/-- Gives up all records. -/
def clear (s : PerKey κ α) : Turn (PerKey κ α) Unit where
  state := { s with records := [], generations := s.generations.clear }
  raised :=
    s.records.flatMap (fun r => [.valueArrived r.id, .becameEmpty r.id]) ++ [.inserted]
  result := ()

instance : Engine (PerKey κ α) κ α where
  name s := s.name
  config s := s.config
  isClosed s := s.closed
  metrics s := s.metrics
  count := count
  keys s := s.records.map Record.key
  stored s key := ((s.find? key).map fun r => r.queue.entries).getD []
  awaiting s gen := s.generations.awaiting gen
  insert := insert
  attempt := attempt
  resume := resume
  existsAny := existsAny
  sweep := sweep
  shut s := { s with closed := true }
  clear := clear

/-- What is shown of an engine. -/
def describe (quoted : String → String) (s : PerKey κ α) : String :=
  "SpaceCore \x7b name: " ++ quoted s.name ++ ", keys: " ++ toString s.records.length ++
    ", closed: " ++ toString s.closed ++ " \x7d"

end PerKey

end TupleSpace
