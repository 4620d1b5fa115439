import TupleSpace.Word

/-!
# Time

A clock reading counts the nanoseconds since its clock was started, and a span counts the
nanoseconds between two readings.  Both are plain natural numbers, so deadlines are compared and
added exactly; the only failing operation is a deadline that lies beyond the last reading.

The text of a span is the one used in messages: the largest of the units `s`, `ms`, `µs` and `ns`
that leaves a whole part, followed by as many decimals as are needed to be exact.
-/

namespace TupleSpace

namespace Span

/-- The nanoseconds in one second. -/
def nanosPerSecond : Nat := 1000000000

/-- The span of so many milliseconds. -/
def ofMillis (ms : Nat) : Nat := ms * 1000000

/-- The span of so many seconds and nanoseconds. -/
def ofSeconds (seconds nanos : Nat) : Nat := seconds * nanosPerSecond + nanos

/-- The whole seconds of a span. -/
def seconds (t : Nat) : Nat := t / nanosPerSecond

/-- The nanoseconds of a span beyond its whole seconds. -/
def subsecond (t : Nat) : Nat := t % nanosPerSecond

/-- The decimals of `n / 10 ^ width`, without the zeros at the end. -/
def decimals (width n : Nat) : List Char :=
  let digits := (toString n).toList
  let padded := List.replicate (width - digits.length) '0' ++ digits
  (padded.reverse.dropWhile (· == '0')).reverse

/-- A whole part, the decimals of `rest / 10 ^ width` if there are any, and a unit. -/
def fixedPoint (whole width rest : Nat) (unit : String) : String :=
  match decimals width rest with
  | [] => toString whole ++ unit
  | digits => toString whole ++ "." ++ String.ofList digits ++ unit

/-- The text of a span in messages. -/
def describe (t : Nat) : String :=
  if nanosPerSecond ≤ t then fixedPoint (seconds t) 9 (subsecond t) "s"
  else if 1000000 ≤ t then fixedPoint (t / 1000000) 6 (t % 1000000) "ms"
  else if 1000 ≤ t then fixedPoint (t / 1000) 3 (t % 1000) "µs"
  else fixedPoint t 0 0 "ns"

end Span

namespace Instant

/-- The first reading that a clock cannot show. -/
def bound : Nat := Word.signedLimit * Span.nanosPerSecond

/-- The reading one span later, unless the clock cannot show it. -/
def add? (now t : Nat) : Option Nat :=
  if now + t < bound then some (now + t) else none

theorem add?_eq_some_iff {now t later : Nat} :
    Instant.add? now t = some later ↔ now + t < bound ∧ later = now + t := by
  unfold Instant.add?
  split
  · simp_all [eq_comm]
  · constructor
    · intro h; cases h
    · intro h; omega

end Instant

end TupleSpace
