import TupleSpace.Time

/-!
# Entries

A stored value together with the instant from which on it counts as absent.  An entry is live
strictly before that instant and expired at it and after; an entry without one is permanent.
Nothing here removes an entry: expiry is a matter of reading the clock.
-/

namespace TupleSpace

/-- A value that may expire. -/
structure Entry (α : Type) where
  value : α
  /-- The first instant at which the entry is expired; `none` if it is permanent. -/
  expiresAt : Option Nat
deriving DecidableEq, Repr

namespace Entry

variable {α : Type}

/-- An entry that never expires. -/
def permanent (value : α) : Entry α := ⟨value, none⟩

/-- An entry that expires at an instant. -/
def expiringAt (value : α) (deadline : Nat) : Entry α := ⟨value, some deadline⟩

/-- An entry that lives for a span from now on; a span of zero stands for ever.  There is no such
entry if its end lies beyond the clock. -/
def withTimeout? (value : α) (timeout now : Nat) : Option (Entry α) :=
  if timeout = 0 then some (permanent value)
  else (Instant.add? now timeout).map (expiringAt value)

theorem withTimeout?_eq_some_iff {value : α} {timeout now : Nat} {e : Entry α} :
    withTimeout? value timeout now = some e ↔
      timeout = 0 ∧ e = permanent value ∨
        timeout ≠ 0 ∧ now + timeout < Instant.bound ∧ e = expiringAt value (now + timeout) := by
  unfold withTimeout?
  split
  next htimeout => simp [htimeout, eq_comm]
  next htimeout =>
    simp [htimeout, Option.map_eq_some_iff, Instant.add?_eq_some_iff, and_assoc, @eq_comm _ e]

theorem withTimeout?_eq_none_iff {value : α} {timeout now : Nat} :
    withTimeout? value timeout now = none ↔ timeout ≠ 0 ∧ Instant.bound ≤ now + timeout := by
  unfold withTimeout? Instant.add?
  split
  next htimeout => simp [htimeout]
  next htimeout => simp [htimeout]

/-- Whether an entry is expired. -/
def isExpired (e : Entry α) (now : Nat) : Bool :=
  match e.expiresAt with
  | none => false
  | some deadline => decide (deadline ≤ now)

/-- Whether an entry is live. -/
def isLive (e : Entry α) (now : Nat) : Bool :=
  !e.isExpired now

/-- The time that an entry has left; `none` if it is permanent. -/
def remaining? (e : Entry α) (now : Nat) : Option Nat :=
  e.expiresAt.map (· - now)

/-- The value, while the entry is live. -/
def get? (e : Entry α) (now : Nat) : Option α :=
  if e.isExpired now then none else some e.value

theorem isLive_iff {e : Entry α} {now : Nat} :
    e.isLive now = true ↔ ∀ d, e.expiresAt = some d → now < d := by
  unfold isLive isExpired
  cases e.expiresAt <;> simp

theorem isExpired_mono {e : Entry α} {now later : Nat} (h : now ≤ later)
    (he : e.isExpired now = true) : e.isExpired later = true := by
  unfold isExpired at *
  cases hd : e.expiresAt with
  | none => simp [hd] at he
  | some d => simp [hd] at he ⊢; omega

end Entry

end TupleSpace
