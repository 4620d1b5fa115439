import TupleSpace.Calendar
import TupleSpace.Directory
import TupleSpace.Files
import TupleSpace.Space

/-!
# The world of spaces

Everything that calls on spaces can see and change: one clock for all of them, the spaces, the
tokens that have been cancelled, the listeners and what they noted, the files, a directory, and the
retrievals that run on behalf of futures.  Spaces, listeners, tokens and tickets are named by
number.

Time stands still unless it is advanced.  On the way it stops at every alarm, the earliest first and
of alarms at one instant the one whose wait began first; the call or sweeper that the alarm belongs
to then runs until it waits again or ends, together with everything this makes ready.
-/

namespace TupleSpace

/-- What a listener does when it is told of an insertion, after noting it. -/
inductive Reaction where
  /-- Nothing more. -/
  | note
  /-- It panics. -/
  | panic
  /-- It closes its space. -/
  | close
  /-- It registers itself again under the key. -/
  | again
  /-- It takes a value under the key from its space, if there is one, and notes the result. -/
  | take
  /-- It appends a value under a key to its space. -/
  | out (key : String) (value : Json)

/-- A listener: its name, the space that it acts on, and what it does. -/
structure Listener where
  name : String
  home : Nat
  reaction : Reaction

/-- What a listener noted. -/
inductive Note where
  /-- It was told of an insertion. -/
  | told (listener key : String) (value : Json)
  /-- It tried to take a value. -/
  | took (listener : String) (result : Except SpaceError (Option Json))

/-- A retrieval that runs on behalf of somebody who may go away. -/
structure Future where
  ticket : Nat
  space : Nat
  /-- The token that ends the retrieval; other waits go on when nobody is interested any more. -/
  token : Option Nat
  /-- The key under which a value that nobody received is put back. -/
  restoreKey : Option String
  outcome : Option (Outcome Json) := none
  /-- Whether its caller has gone away before there was an outcome. -/
  abandoned : Bool := false

/-- The world of spaces. -/
structure World where
  /-- The reading of the clock. -/
  now : Nat := 0
  /-- The reading of the wall clock when the clock read zero. -/
  epoch : Moment
  /-- The number of the next wait. -/
  stamp : Nat := 0
  spaces : Array Space := #[]
  cancelled : List Nat := []
  nextToken : Nat := 0
  nextTicket : Nat := 0
  listeners : Array Listener := #[]
  notes : List Note := []
  files : Files := {}
  directory : Option Directory := none
  futures : List Future := []
  /-- Calls that have ended and whose outcome has not been fetched. -/
  ended : List (Finished Json) := []

namespace World

/-- The reading of the wall clock. -/
def wall (w : World) : Moment := w.epoch.after w.now

/-- Lets a monitor number its waits from a stamp on. -/
def stampMonitor {σ κ α : Type} (stamp : Nat) (m : Monitor σ κ α) : Monitor σ κ α :=
  { m with stamp := stamp }

/-- Lets a space number its waits from a stamp on. -/
def stampSpace (stamp : Nat) (s : Space) : Space :=
  { s with
    backing := (s.backing.modify fun m => (stampMonitor stamp m, ())).1
    registry := s.registry.map fun r => ⟨stampMonitor stamp r.monitor⟩ }

/-- The number of the next wait of a space. -/
def spaceStamp (s : Space) : Nat :=
  max (s.backing.view fun m => m.stamp) ((s.registry.map fun r => r.monitor.stamp).getD 0)

/-- An operation on one space; nothing happens if there is no such space. -/
def onSpace {β : Type} (w : World) (i : Nat) (missing : β) (f : Space → Space × β) : World × β :=
  match w.spaces[i]? with
  | none => (w, missing)
  | some s =>
    let (s, b) := f (stampSpace w.stamp s)
    ({ w with spaces := w.spaces.setIfInBounds i s, stamp := max w.stamp (spaceStamp s) }, b)

/-- An operation on the monitor of one space. -/
def onMonitor {β : Type} (w : World) (i : Nat) (missing : β)
    (f : {σ : Type} → [Engine σ String Json] → Monitor σ String Json → Monitor σ String Json × β) :
    World × β :=
  w.onSpace i missing fun s =>
    let (backing, b) := s.backing.modify f
    ({ s with backing }, b)

/-- Adds a space. -/
def addSpace (w : World) (s : Space) : World × Nat :=
  ({ w with spaces := w.spaces.push s, stamp := max w.stamp (spaceStamp s) }, w.spaces.size)

/-- The future with a ticket. -/
def future? (w : World) (ticket : Nat) : Option Future :=
  w.futures.find? fun f => f.ticket == ticket

/-- Forgets a future. -/
def dropFuture (w : World) (ticket : Nat) : World :=
  { w with futures := w.futures.filter fun f => f.ticket != ticket }

/-- Replaces a future. -/
def updateFuture (w : World) (f : Future) : World :=
  { w with futures := w.futures.map fun x => if x.ticket == f.ticket then f else x }

/-- Hands an ended call to the future that it runs for, or to whoever asks for it.  Nobody is
interested in the outcome of a future whose caller has gone away, and there is no value in it that
would have to be put back: a call that may take one is cancelled when its caller goes away, and it
ends then and there, having found nothing, before anything can be inserted
(`World.Rests.ends_with_caller`).  A call that cannot be cancelled takes nothing. -/
def deliver (w : World) (f : Finished Json) : World :=
  match w.future? f.ticket with
  | none => { w with ended := w.ended ++ [f] }
  | some x =>
    if x.abandoned then w.dropFuture f.ticket
    else w.updateFuture { x with outcome := some f.outcome }

/-- Runs the ready calls of one space until none is left. -/
def settleSpace (w : World) (i : Nat) : World :=
  let (w, ended) := w.onMonitor i [] fun m => m.settle w.now w.cancelled
  ended.foldl deliver w

/-- Runs ready calls until none is left. -/
def settle (w : World) : World :=
  (List.range w.spaces.size).foldl settleSpace w

/-- Fetches the outcome of a call, if it has ended. -/
def fetch (w : World) (ticket : Nat) : World × Option (Outcome Json) :=
  match w.ended.find? fun f => f.ticket == ticket with
  | none => (w, none)
  | some f => ({ w with ended := w.ended.filter fun f => f.ticket != ticket }, some f.outcome)

/-- The first alarm of all spaces, with the number of its space. -/
def nextAlarm? (w : World) : Option (Nat × Alarm) :=
  w.spaces.toList.zipIdx.foldl
    (fun best (s, i) =>
      match best, s.nextAlarm? with
      | none, some a => some (i, a)
      | some (j, b), some a => if a.before b then some (i, a) else some (j, b)
      | best, none => best) none

/-- Lets an alarm of a space go off. -/
def fireSpace (now : Nat) (a : Alarm) (s : Space) : Space :=
  if (s.backing.view fun m => m.nextAlarm?) = some a then
    { s with backing := (s.backing.modify fun m => (m.fire now a.since, ())).1 }
  else { s with registry := s.registry.map fun r => ⟨r.monitor.fire now a.since⟩ }

/-- Moves the clock to an alarm and lets it go off. -/
def ring (w : World) (i : Nat) (a : Alarm) : World :=
  let w := { w with now := max w.now a.instant }
  let (w, ()) := w.onSpace i () fun s => (fireSpace w.now a s, ())
  w.settleSpace i

/-- Lets alarms go off up to an instant, at most `fuel` of them, until a call has ended. -/
def ringUntil (until_ : Nat) (ticket : Option Nat) : Nat → World → World
  | 0, w => w
  | fuel + 1, w =>
    if w.ended.any fun f => ticket == some f.ticket then w
    else
      match w.nextAlarm? with
      | some (i, a) =>
        if a.instant ≤ until_ then ringUntil until_ ticket fuel (w.ring i a) else w
      | none => w

/-- More alarms than a sweeper has in a span. -/
def sweeperAlarms (span : Nat) (s : Option Sweeper) : Nat :=
  match s with
  | none => 0
  | some s => span / s.shortEvery + span / s.longEvery + 3

/-- More alarms than a monitor has in a span: every blocked call has one for each poll that fits,
and one for its deadline. -/
def monitorAlarms {σ κ α : Type} [Engine σ κ α] (span : Nat) (m : Monitor σ κ α) : Nat :=
  sweeperAlarms span m.sweeper +
    m.waiting.length * (span / (Engine.config m.engine).poll + 3)

/-- More alarms than the world has in a span. -/
def alarmBound (w : World) (span : Nat) : Nat :=
  (w.spaces.toList.map fun s =>
    (s.backing.view fun m => monitorAlarms span m) +
      ((s.registry.map fun r => monitorAlarms span r.monitor).getD 0)).foldr (· + ·) 1

/-- Moves the clock forward. -/
def advance (w : World) (span : Nat) : World :=
  let until_ := w.now + span
  let w := ringUntil until_ none (w.alarmBound span) w
  { w with now := max w.now until_ }

/-- Moves the clock forward, alarm by alarm, until a call has ended, at most to an instant. -/
def await (w : World) (ticket deadline : Nat) : World :=
  ringUntil deadline (some ticket) (w.alarmBound (deadline - w.now)) w

/-- Makes a token. -/
def newToken (w : World) : World × Nat :=
  ({ w with nextToken := w.nextToken + 1 }, w.nextToken)

/-- Whether a token has been cancelled. -/
def isCancelled (w : World) (token : Nat) : Bool := decide (token ∈ w.cancelled)

/-- What is shown of a token. -/
def describeToken (w : World) (token : Nat) : String :=
  "CancelToken \x7b cancelled: " ++ toString (w.isCancelled token) ++ " \x7d"

/-- Marks a token as cancelled and every call that waits with it as ready. -/
def cancelUnsettled (w : World) (token : Nat) : World :=
  let w := { w with
    cancelled := if token ∈ w.cancelled then w.cancelled else token :: w.cancelled }
  let announce (w : World) (i : Nat) : World :=
    (w.onMonitor i () fun m => (m.cancel token, ())).1
  (List.range w.spaces.size).foldl announce w

/-- Cancels a token: every call that waits with it runs again and ends. -/
def cancel (w : World) (token : Nat) : World :=
  (w.cancelUnsettled token).settle

/-- Makes a listener. -/
def newListener (w : World) (l : Listener) : World × Nat :=
  ({ w with listeners := w.listeners.push l }, w.listeners.size)

/-- Notes something. -/
def note (w : World) (n : Note) : World :=
  { w with notes := w.notes ++ [n] }

/-- Forgets the notes taken so far. -/
def clearNotes (w : World) : World :=
  { w with notes := [] }

end World

end TupleSpace
