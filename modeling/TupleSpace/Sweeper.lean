import TupleSpace.Config
import TupleSpace.Generations

/-!
# The background sweeper

When the two generations are swept.  A sweeper sleeps until the earlier of its two next ticks, runs
whichever are due, the short one first, and sets the next tick of each one interval after the clock
at which it ran.  It does not keep its target alive, and a tick that panics does not stop it.

The clock is only read here: what moves it decides when a sweeper is woken.
-/

namespace TupleSpace

/-- What a sweep of one generation did. -/
structure SweepReport where
  /-- Keys that awaited the sweep. -/
  keys : Nat := 0
  /-- Expired entries dropped. -/
  expired : Nat := 0
  /-- Keys whose storage was given up. -/
  recordsRemoved : Nat := 0
deriving DecidableEq, Repr

/-- Something that can be swept, with a state of type `τ`. -/
structure SweepTarget (τ : Type) where
  /-- Whether the target still exists. -/
  isAlive : τ → Bool
  /-- Sweeps a generation; the second part tells whether the sweep panicked. -/
  sweep : Generation → τ → τ × Bool
  /-- Told after a sweep that panicked. -/
  panicked : Generation → τ → τ
  /-- Whether the target has asked its sweeper to stop. -/
  asksToStop : τ → Bool

/-- One tick of a generation. -/
def SweepTarget.tick {τ : Type} (target : SweepTarget τ) (gen : Generation) (t : τ) : τ :=
  match target.sweep gen t with
  | (t', true) => target.panicked gen t'
  | (t', false) => t'

/-- A sweeper between two ticks. -/
structure Sweeper where
  shortEvery : Nat
  longEvery : Nat
  nextShort : Nat
  nextLong : Nat
  /-- Whether it was asked to stop. -/
  stopped : Bool := false
  /-- Whether it has found its target gone. -/
  ended : Bool := false
deriving DecidableEq, Repr

namespace Sweeper

/-- A sweeper with the intervals of a configuration, started now. -/
def start (config : SpaceConfig) (now : Nat) : Sweeper where
  shortEvery := config.shortSweep
  longEvery := config.longSweep
  nextShort := now + config.shortSweep
  nextLong := now + config.longSweep

/-- Asks the sweeper to stop; no tick begins any more. -/
def stop (s : Sweeper) : Sweeper :=
  { s with stopped := true }

/-- Whether ticks can still begin. -/
def isRunning (s : Sweeper) : Bool :=
  !(s.stopped || s.ended)

/-- The instant at which the sweeper wakes. -/
def wakeAt? (s : Sweeper) : Option Nat :=
  if s.isRunning then some (min s.nextShort s.nextLong) else none

/-- Runs the short tick if it is due. -/
def tickShort {τ : Type} (target : SweepTarget τ) (now : Nat) (s : Sweeper) (t : τ) :
    Sweeper × τ :=
  if s.nextShort ≤ now then ({ s with nextShort := now + s.shortEvery }, target.tick .short t)
  else (s, t)

/-- Runs the long tick if it is due. -/
def tickLong {τ : Type} (target : SweepTarget τ) (now : Nat) (s : Sweeper) (t : τ) :
    Sweeper × τ :=
  if s.nextLong ≤ now then ({ s with nextLong := now + s.longEvery }, target.tick .long t)
  else (s, t)

/-- What the sweeper does when it wakes: the ticks that are due, or nothing any more if its target
is gone.  A target that asks to stop during the short tick still gets the long tick of the same
instant. -/
def wake {τ : Type} (target : SweepTarget τ) (now : Nat) (s : Sweeper) (t : τ) : Sweeper × τ :=
  if target.isAlive t then
    let (s, t) := tickShort target now s t
    let (s, t) := tickLong target now s t
    (if target.asksToStop t then s.stop else s, t)
  else ({ s with ended := true }, t)

/-- Lets the clock run up to an instant, waking the sweeper whenever it is due; at most `fuel`
times. -/
def runUntil {τ : Type} (target : SweepTarget τ) (until_ : Nat) :
    Nat → Sweeper → τ → Sweeper × τ
  | 0, s, t => (s, t)
  | fuel + 1, s, t =>
    match s.wakeAt? with
    | some at_ =>
      if at_ ≤ until_ then
        let (s, t) := wake target at_ s t
        runUntil target until_ fuel s t
      else (s, t)
    | none => (s, t)

/-- More wake-ups than a sweeper with positive intervals has up to an instant. -/
def wakeBound (s : Sweeper) (until_ : Nat) : Nat :=
  until_ / s.shortEvery + until_ / s.longEvery + 2

/-- Lets the clock run up to an instant. -/
def advance {τ : Type} (target : SweepTarget τ) (until_ : Nat) (s : Sweeper) (t : τ) :
    Sweeper × τ :=
  runUntil target until_ (s.wakeBound until_) s t

/-- What is shown of a sweeper. -/
def describe (s : Sweeper) : String :=
  "Sweeper \x7b stopped: " ++ toString s.stopped ++ " \x7d"

end Sweeper

end TupleSpace
