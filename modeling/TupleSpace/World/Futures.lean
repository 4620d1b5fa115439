import TupleSpace.World.Calls

/-!
# Futures

Retrievals that run on behalf of a caller who asks for the outcome later, or goes away.  A take or
read that nobody waits for any more is cancelled, and a value that it had already taken is put back
at the head of its key, never to expire.  A call that cannot be cancelled goes on, and its outcome
is dropped.
-/

namespace TupleSpace.World

/-- Starts a request on behalf of a future.  A value that nobody receives is put
back under `restoreKey`. -/
def startFuture (w : World) (i : Nat) (q : Option Nat → Request String Json)
    (cancellable : Bool) (restoreKey : Option String) : World × Nat :=
  let (w, ticket) := w.newTicket
  let (w, token) : World × Option Nat :=
    if cancellable then
      let (w, t) := w.newToken
      (w, some t)
    else (w, none)
  let f : Future := { ticket, space := i, token, restoreKey }
  let w := { w with futures := w.futures ++ [f] }
  (w.submit i ticket (q token), ticket)

/-- The outcome of a future, if its request has ended; the future is gone then. -/
def pollFuture (w : World) (ticket : Nat) : World × Option (Outcome Json) :=
  match (w.future? ticket).bind Future.outcome with
  | none => (w, none)
  | some o => (w.dropFuture ticket, some o)

/-- Puts back the value that a future has taken and not handed out. -/
def putBack (w : World) (f : Future) : World :=
  match f.restoreKey, f.outcome with
  | some key, some (.ok (.found (some v))) => (w.insertUnsettled f.space key v 0 .head).1
  | _, _ => w

/-- Goes away without the outcome of a future. -/
def abandonFuture (w : World) (ticket : Nat) : World :=
  match w.future? ticket with
  | none => w
  | some f =>
    let w :=
      if f.outcome.isSome then w.dropFuture ticket
      else w.updateFuture { f with abandoned := true }
    match f.token with
    | none => w
    | some token => ((w.cancelUnsettled token).putBack f).settle

end TupleSpace.World
