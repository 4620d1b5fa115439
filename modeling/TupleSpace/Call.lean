import TupleSpace.Error

/-!
# Calls that may wait

The requests that can block, what they wait for, and how they end.  A blocked call is a value: the
request, the condition it waits on and the instant at which it wakes by itself.  Running it again
is the same as running it for the first time, except for the bookkeeping of the record it waited
on.
-/

namespace TupleSpace

/-- What a retrieval does with the entry it finds. -/
inductive Mode where
  | take
  | read
deriving DecidableEq, Repr

/-- How long a call is willing to wait. -/
inductive Patience where
  /-- Not at all. -/
  | probe
  /-- Until an instant. -/
  | until (deadline : Nat)
  /-- Without an end. -/
  | forever
deriving DecidableEq, Repr

/-- The patience of a call with a timeout; a deadline beyond the clock is never reached. -/
def Patience.ofTimeout (now timeout : Nat) : Patience :=
  match Instant.add? now timeout with
  | some deadline => .until deadline
  | none => .forever

/-- Whether a call that has found nothing has to give up. -/
def Patience.isOver (now : Nat) : Patience → Bool
  | probe => true
  | .until deadline => decide (deadline ≤ now)
  | forever => false

/-- The deadline of a call, if it has one. -/
def Patience.deadline? : Patience → Option Nat
  | .until deadline => some deadline
  | _ => none

/-- A take or a read. -/
structure Retrieval (κ α : Type) where
  key : κ
  accepts : α → Bool
  mode : Mode
  patience : Patience
  /-- The token whose cancellation ends the call. -/
  token : Option Nat

/-- A request that can block. -/
inductive Request (κ α : Type) where
  /-- Wait for an entry. -/
  | retrieve (retrieval : Retrieval κ α)
  /-- Wait until a key has no live entry. -/
  | drain (key : κ) (patience : Patience)
  /-- Wait until one of some keys has a live entry. -/
  | presence (keys : List κ) (deadline : Option Nat)

/-- The token of a request, if it has one. -/
def Request.token? {κ α : Type} : Request κ α → Option Nat
  | retrieve r => r.token
  | _ => none

/-- How a request ends when it does not fail. -/
inductive Answer (α : Type) where
  /-- The entry found by a retrieval, or the one still there at the end of a drain. -/
  | found (value : Option α)
  /-- Whether one of the keys has a live entry. -/
  | present (value : Bool)
deriving Repr

/-- The end of a request. -/
abbrev Outcome (α : Type) := Except SpaceError (Answer α)

/-- What a blocked call waits for.  Records are told apart by number, because a key whose record is
given up gets a new one later. -/
inductive Condition where
  /-- An insertion into a record. -/
  | valueArrived (record : Nat)
  /-- A record whose queue became empty. -/
  | becameEmpty (record : Nat)
  /-- An insertion anywhere in the space. -/
  | inserted
  /-- Any change of the space. -/
  | changed
deriving DecidableEq, Repr

/-- How far a request has got. -/
inductive Progress (α : Type) where
  /-- It has ended. -/
  | finished (outcome : Outcome α)
  /-- It waits, at most until an instant. -/
  | waiting (on : Condition) (wakeAt : Option Nat)

/-- The value found by a request that has ended, or nothing. -/
def Outcome.value? {α : Type} : Outcome α → Except SpaceError (Option α)
  | .error e => .error e
  | .ok (.found v) => .ok v
  | .ok (.present _) => .ok none

/-- The value found by a request that was to wait without an end. -/
def Outcome.value {α : Type} (o : Outcome α) : Except SpaceError α :=
  match Outcome.value? o with
  | .error e => .error e
  | .ok (some v) => .ok v
  | .ok none => .error (.coordination .waitEndedEmpty none)

/-- Whether one of the keys of a request that has ended had a live entry. -/
def Outcome.isPresent {α : Type} : Outcome α → Except SpaceError Bool
  | .error e => .error e
  | .ok (.present b) => .ok b
  | .ok (.found v) => .ok v.isSome

/-- The end of a request that has ended, or finding nothing for one that has not. -/
def Progress.outcome {α : Type} : Progress α → Outcome α
  | .finished o => o
  | .waiting _ _ => .ok (.found none)

/-- What one operation on an engine leaves: the new state, the conditions it raised, and its
result.  `parked` are the conditions that a later cancellation of the request's token raises. -/
structure Turn (σ β : Type) where
  state : σ
  raised : List Condition := []
  result : β
  parked : List Condition := []

namespace Turn

variable {σ β γ : Type}

/-- An operation that changes nothing. -/
def pure (state : σ) (result : β) : Turn σ β := { state, result }

/-- The same turn with a result computed from its own. -/
def map (f : β → γ) (t : Turn σ β) : Turn σ γ :=
  { state := t.state, raised := t.raised, result := f t.result, parked := t.parked }

/-- The same turn with another result. -/
def andReturn (t : Turn σ β) (result : γ) : Turn σ γ :=
  t.map fun _ => result

/-- The same turn, with parking places. -/
def parkedOn (t : Turn σ β) (places : List Condition) : Turn σ β :=
  { t with parked := t.parked ++ places }

/-- Another operation behind this one. -/
def bind (t : Turn σ β) (f : σ → β → Turn σ γ) : Turn σ γ :=
  let next := f t.state t.result
  { state := next.state, raised := t.raised ++ next.raised, result := next.result,
    parked := t.parked ++ next.parked }

end Turn

end TupleSpace
