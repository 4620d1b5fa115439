import TupleSpace.Call
import TupleSpace.KeyQueue
import TupleSpace.Metrics
import TupleSpace.Sweeper

/-!
# Engines

What an engine has to offer so that calls can wait on it.  An engine is a state of some type `σ`
with pure operations; it never waits itself, but says what a request has to wait for.  The class
states no laws: what the engines have in common is proved for each of them.
-/

namespace TupleSpace

/-- A store of keyed queues on which calls can wait. -/
class Engine (σ : Type) (κ α : outParam Type) where
  /-- The name of the space. -/
  name : σ → String
  /-- Its settings. -/
  config : σ → SpaceConfig
  /-- Whether it has been closed. -/
  isClosed : σ → Bool
  /-- Its counters. -/
  metrics : σ → Metrics
  /-- Counts one event. -/
  count : Metrics.Event → σ → σ
  /-- The keys that own storage. -/
  keys : σ → List κ
  /-- The entries stored under a key, expired ones included. -/
  stored : σ → κ → List (Entry α)
  /-- The keys that await a sweep of a generation. -/
  awaiting : σ → Generation → List κ
  /-- Stores a value. -/
  insert : (now : Nat) → (key : κ) → (value : α) → (timeout : Nat) → Placement → σ →
    Turn σ (Except SpaceError Unit)
  /-- Runs a request for the first time. -/
  attempt : (now : Nat) → (cancelled : Bool) → Request κ α → σ → Turn σ (Progress α)
  /-- Runs a request again that has waited on a condition. -/
  resume : (now : Nat) → (cancelled : Bool) → Request κ α → (on : Condition) → σ →
    Turn σ (Progress α)
  /-- Whether one of some keys has a live entry. -/
  existsAny : (now : Nat) → List κ → σ → Turn σ (Except SpaceError Bool)
  /-- Sweeps a generation. -/
  sweep : (now : Nat) → Generation → σ → Turn σ SweepReport
  /-- Refuses every operation from now on. -/
  shut : σ → σ
  /-- Gives up all storage, of an engine that has been shut. -/
  clear : σ → Turn σ Unit

namespace Engine

variable {σ κ α : Type} [Engine σ κ α]

/-- The number of entries stored under a key, expired ones included. -/
def size (s : σ) (key : κ) : Nat := (Engine.stored s key).length

/-- The number of keys that await a sweep of a generation. -/
def pending (s : σ) (gen : Generation) : Nat := (Engine.awaiting s gen).length

/-- Fails if the engine has been closed. -/
def ensureOpen (s : σ) : Except SpaceError Unit :=
  if Engine.isClosed s then .error (.closed (Engine.name s)) else .ok ()

end Engine

end TupleSpace
