import TupleSpace.Engine

/-!
# Monitors

An engine together with the calls that are blocked on it and its background sweeper.  At every
moment at most one call runs.  An operation on the engine marks the calls whose condition it raised
as ready; `settle` then runs ready calls, always the one that was started first, until none is
left.  A call runs until it ends or waits again, and keeps its place among the calls either way.

Waits are numbered in the order in which they begin, so that of two waits with one deadline the
older one ends first.  A monitor numbers its waits from a counter that others may have advanced.
-/

namespace TupleSpace

/-- A blocked call. -/
structure Waiter (κ α : Type) where
  /-- The number under which its outcome is reported. -/
  ticket : Nat
  request : Request κ α
  on : Condition
  /-- The instant at which it wakes by itself. -/
  wakeAt : Option Nat
  /-- The number of the wait. -/
  since : Nat
  /-- Whether it has been woken and not run yet. -/
  ready : Bool := false

/-- The end of a call: its ticket and its outcome. -/
structure Finished (α : Type) where
  ticket : Nat
  outcome : Outcome α

/-- An engine with its blocked calls and its sweeper. -/
structure Monitor (σ κ α : Type) where
  engine : σ
  /-- The blocked calls, in the order in which they were started. -/
  waiting : List (Waiter κ α) := []
  /-- The conditions that the cancellation of a token raises. -/
  parked : List (Nat × Condition) := []
  sweeper : Option Sweeper := none
  /-- The number of the sweeper's wait. -/
  sweeperSince : Nat := 0
  /-- The number of the next wait. -/
  stamp : Nat := 0

/-- What wakes next: the instant, the number of the wait, and whether it is the sweeper's. -/
structure Alarm where
  instant : Nat
  since : Nat
deriving DecidableEq, Repr

/-- Whether one alarm goes before another. -/
def Alarm.before (a b : Alarm) : Bool :=
  a.instant < b.instant || (a.instant == b.instant && a.since < b.since)

/-- The earlier of two alarms. -/
def Alarm.earlier? : Option Alarm → Option Alarm → Option Alarm
  | none, b => b
  | a, none => a
  | some a, some b => if b.before a then some b else some a

namespace Monitor

variable {σ κ α : Type} [Engine σ κ α]

/-- A monitor around a new engine; the sweeper runs if the settings want one. -/
def start (engine : σ) (now stamp : Nat) : Monitor σ κ α :=
  if (Engine.config engine).sweeper then
    { engine, sweeper := some (Sweeper.start (Engine.config engine) now)
      sweeperSince := stamp, stamp := stamp + 1 }
  else { engine, stamp }

/-- Marks the calls that wait on one of some conditions as ready. -/
def raise (conditions : List Condition) (m : Monitor σ κ α) : Monitor σ κ α :=
  { m with waiting := m.waiting.map fun w =>
      if w.on ∈ conditions then { w with ready := true } else w }

/-- Runs an operation on the engine that does not wait. -/
def perform {β : Type} (op : σ → Turn σ β) (m : Monitor σ κ α) : Monitor σ κ α × β :=
  let t := op m.engine
  (raise t.raised { m with engine := t.state }, t.result)

/-- Notes where the cancellation of a token has to be announced. -/
def park (token : Option Nat) (places : List Condition) (m : Monitor σ κ α) : Monitor σ κ α :=
  match token with
  | none => m
  | some token =>
    let add (acc : List (Nat × Condition)) (c : Condition) : List (Nat × Condition) :=
      if (token, c) ∈ acc then acc else acc ++ [(token, c)]
    { m with parked := places.foldl add m.parked }

/-- Whether a request's token is among the cancelled ones. -/
def isCancelled (cancelled : List Nat) (q : Request κ α) : Bool :=
  q.token?.any fun t => decide (t ∈ cancelled)

/-- Starts a request; it ends at once or joins the blocked calls. -/
def submit (now : Nat) (cancelled : List Nat) (ticket : Nat) (q : Request κ α)
    (m : Monitor σ κ α) : Monitor σ κ α × Option (Outcome α) :=
  let t := Engine.attempt now (isCancelled cancelled q) q m.engine
  let m := park q.token? t.parked (raise t.raised { m with engine := t.state })
  match t.result with
  | .finished outcome => (m, some outcome)
  | .waiting on wakeAt =>
    ({ m with
        waiting := m.waiting ++ [⟨ticket, q, on, wakeAt, m.stamp, false⟩]
        stamp := m.stamp + 1 }, none)

/-- Takes or reads without waiting. -/
def probe (now : Nat) (mode : Mode) (key : κ) (accepts : α → Bool) (m : Monitor σ κ α) :
    Monitor σ κ α × Except SpaceError (Option α) :=
  let q : Retrieval κ α := ⟨key, accepts, mode, .probe, none⟩
  let (m, progress) := m.perform (Engine.attempt now false (.retrieve q))
  (m, progress.outcome.value?)

/-- Splits the blocked calls at the first one that is ready. -/
def splitReady : List (Waiter κ α) → Option (List (Waiter κ α) × Waiter κ α × List (Waiter κ α))
  | [] => none
  | w :: rest =>
    if w.ready then some ([], w, rest)
    else (splitReady rest).map fun (earlier, found, later) => (w :: earlier, found, later)

/-- Runs a blocked call again, between the calls started before and after it. -/
def rerun (now : Nat) (cancelled : List Nat) (earlier : List (Waiter κ α)) (w : Waiter κ α)
    (later : List (Waiter κ α)) (m : Monitor σ κ α) :
    Monitor σ κ α × Option (Finished α) :=
  let t := Engine.resume now (isCancelled cancelled w.request) w.request w.on m.engine
  let mark (ws : List (Waiter κ α)) : List (Waiter κ α) :=
    ws.map fun x => if x.on ∈ t.raised then { x with ready := true } else x
  let m := park w.request.token? t.parked { m with engine := t.state }
  match t.result with
  | .finished outcome =>
    ({ m with waiting := mark earlier ++ mark later }, some ⟨w.ticket, outcome⟩)
  | .waiting on wakeAt =>
    let w := { w with on := on, wakeAt := wakeAt, since := m.stamp, ready := false }
    ({ m with waiting := mark earlier ++ w :: mark later, stamp := m.stamp + 1 }, none)

/-- Runs ready calls until none is left, at most `fuel` of them. -/
def settleFor (now : Nat) (cancelled : List Nat) :
    Nat → Monitor σ κ α → Monitor σ κ α × List (Finished α)
  | 0, m => (m, [])
  | fuel + 1, m =>
    match splitReady m.waiting with
    | none => (m, [])
    | some (earlier, w, later) =>
      let (m, ended) := rerun now cancelled earlier w later m
      let (m, others) := settleFor now cancelled fuel m
      (m, ended.toList ++ others)

/-- A number of runs after which no call is ready: between two runs that end a call or give up the
storage of a key, every blocked call runs at most once. -/
def settleBound (m : Monitor σ κ α) : Nat :=
  (m.waiting.length + (Engine.keys m.engine).length + 2) * (m.waiting.length + 1)

/-- Runs ready calls until none is left. -/
def settle (now : Nat) (cancelled : List Nat) (m : Monitor σ κ α) :
    Monitor σ κ α × List (Finished α) :=
  settleFor now cancelled m.settleBound m

/-- The first alarm of the blocked calls. -/
def firstWake (waiting : List (Waiter κ α)) : Option Alarm :=
  waiting.foldl (fun a w => Alarm.earlier? a (w.wakeAt.map fun t => ⟨t, w.since⟩)) none

/-- The alarm of the sweeper. -/
def sweeperAlarm? (m : Monitor σ κ α) : Option Alarm :=
  (m.sweeper.bind Sweeper.wakeAt?).map fun t => ⟨t, m.sweeperSince⟩

/-- The first alarm of a monitor. -/
def nextAlarm? (m : Monitor σ κ α) : Option Alarm :=
  Alarm.earlier? (firstWake m.waiting) m.sweeperAlarm?

/-- The engine as the target of its sweeper, collecting the conditions that the sweeps raise. -/
def sweepTarget (now : Nat) : SweepTarget (σ × List Condition) where
  isAlive _ := true
  sweep gen s :=
    let t := Engine.sweep now gen s.1
    ((t.state, s.2 ++ t.raised), false)
  panicked _ s := (Engine.count .sweepPanic s.1, s.2)
  asksToStop _ := false

/-- Wakes the sweeper. -/
def tick (now : Nat) (m : Monitor σ κ α) : Monitor σ κ α :=
  match m.sweeper with
  | none => m
  | some s =>
    let (s, engine, raised) := s.wake (sweepTarget now) now (m.engine, [])
    raise raised
      { m with engine, sweeper := some s, sweeperSince := m.stamp, stamp := m.stamp + 1 }

/-- Lets an alarm of this monitor go off. -/
def fire (now since : Nat) (m : Monitor σ κ α) : Monitor σ κ α :=
  if m.sweeperAlarm?.any fun a => a.since == since then tick now m
  else
    { m with waiting := m.waiting.map fun w =>
        if w.since = since then { w with ready := true } else w }

/-- Announces the cancellation of a token, once. -/
def cancel (token : Nat) (m : Monitor σ κ α) : Monitor σ κ α :=
  let places := (m.parked.filter fun p => p.1 == token).map Prod.snd
  raise places { m with parked := m.parked.filter fun p => p.1 != token }

/-- Refuses every operation from now on and stops the sweeper. -/
def shut (m : Monitor σ κ α) : Monitor σ κ α :=
  { m with engine := Engine.shut m.engine, sweeper := none }

/-- Gives up all storage. -/
def clear (m : Monitor σ κ α) : Monitor σ κ α :=
  (m.perform Engine.clear).1

end Monitor

end TupleSpace
