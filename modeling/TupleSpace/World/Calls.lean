import TupleSpace.World.Insertion

/-!
# Calls on spaces

The operations on a space other than insertions.  Each of them ends at a moment at which no call is
ready: whatever it woke has run.
-/

namespace TupleSpace.World

/-- Takes or reads without waiting. -/
def probe (w : World) (i : Nat) (mode : Mode) (key : String) (accepts : Json → Bool) :
    World × Except SpaceError (Option Json) :=
  let (w, result) := w.probeUnsettled i mode key accepts
  (w.settle, result)

/-- Whether one of some keys has a live entry. -/
def existsAny (w : World) (i : Nat) (keys : List String) : World × Except SpaceError Bool :=
  let (w, result) := w.onMonitor i (.ok false) fun m => m.perform (Engine.existsAny w.now keys)
  (w.settle, result)

/-- Sweeps a generation. -/
def sweep (w : World) (i : Nat) (gen : Generation) : World × SweepReport :=
  let (w, report) := w.onMonitor i {} fun m => m.perform (Engine.sweep w.now gen)
  (w.settle, report)

/-- A fresh ticket. -/
def newTicket (w : World) : World × Nat :=
  ({ w with nextTicket := w.nextTicket + 1 }, w.nextTicket)

/-- Starts a request under a ticket. -/
def submit (w : World) (i ticket : Nat) (q : Request String Json) : World :=
  let (w, outcome) := w.onMonitor i none fun m => m.submit w.now w.cancelled ticket q
  match outcome with
  | some o => (w.deliver ⟨ticket, o⟩).settle
  | none => w.settle

/-- Starts a request that may wait; its outcome is fetched by the ticket. -/
def start (w : World) (i : Nat) (q : Request String Json) : World × Nat :=
  let (w, ticket) := w.newTicket
  (w.submit i ticket q, ticket)

end TupleSpace.World
