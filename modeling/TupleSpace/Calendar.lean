import TupleSpace.Time

/-!
# Calendar

Instants of the wall clock in the proleptic Gregorian calendar, in universal time.  Days are
counted from the first of January 1970, and years from March on, so that a leap day is the last of
its year.
-/

namespace TupleSpace

/-- A calendar date. -/
structure Date where
  year : Int
  month : Nat
  day : Nat
deriving DecidableEq, Repr

namespace Date

/-- Whether a year has a leap day. -/
def isLeap (year : Int) : Bool :=
  (year % 4 == 0 && year % 100 != 0) || year % 400 == 0

/-- The number of days in a month. -/
def daysInMonth (year : Int) (month : Nat) : Nat :=
  if month = 2 then if isLeap year then 29 else 28
  else if month = 4 ∨ month = 6 ∨ month = 9 ∨ month = 11 then 30
  else 31

/-- The first and the last year of the calendar. -/
def firstYear : Int := -262143

/-- The last year of the calendar. -/
def lastYear : Int := 262142

/-- Whether there is such a date. -/
def isValid (d : Date) : Bool :=
  firstYear ≤ d.year && d.year ≤ lastYear && 1 ≤ d.month && d.month ≤ 12 && 1 ≤ d.day &&
    d.day ≤ daysInMonth d.year d.month

/-- The number of days from the first of January 1970 to a date. -/
def toDays (d : Date) : Int :=
  let y := if d.month ≤ 2 then d.year - 1 else d.year
  let era := Int.fdiv y 400
  let yearOfEra := y - era * 400
  let m : Int := if d.month ≤ 2 then d.month + 9 else (d.month : Int) - 3
  let dayOfYear := (153 * m + 2) / 5 + d.day - 1
  let dayOfEra := yearOfEra * 365 + yearOfEra / 4 - yearOfEra / 100 + dayOfYear
  era * 146097 + dayOfEra - 719468

/-- The date so many days after the first of January 1970. -/
def ofDays (days : Int) : Date :=
  let z := days + 719468
  let era := Int.fdiv z 146097
  let dayOfEra := z - era * 146097
  let yearOfEra := (dayOfEra - dayOfEra / 1460 + dayOfEra / 36524 - dayOfEra / 146096) / 365
  let dayOfYear := dayOfEra - (365 * yearOfEra + yearOfEra / 4 - yearOfEra / 100)
  let m := (5 * dayOfYear + 2) / 153
  let day := dayOfYear - (153 * m + 2) / 5 + 1
  let month := if m < 10 then m + 3 else m - 9
  let year := yearOfEra + era * 400 + (if month ≤ 2 then 1 else 0)
  ⟨year, month.toNat, day.toNat⟩

end Date

/-- An instant of the wall clock: a day, a second of that day, and the nanoseconds since that
second began.  In a leap second, which has no number of its own, the nanoseconds go on beyond
`10 ^ 9`. -/
structure Moment where
  /-- Days since the first of January 1970. -/
  days : Int
  second : Nat
  nanos : Nat
deriving DecidableEq, Repr

namespace Moment

/-- The seconds of a day. -/
def secondsPerDay : Nat := 86400

/-- The instant one span later; leap seconds are not counted. -/
def after (m : Moment) (t : Nat) : Moment :=
  let nanos := m.nanos + Span.subsecond t
  let seconds := m.second + Span.seconds t + nanos / Span.nanosPerSecond
  ⟨m.days + (seconds / secondsPerDay : Nat), seconds % secondsPerDay,
    nanos % Span.nanosPerSecond⟩

/-- Whether the calendar has the instant. -/
def isValid (m : Moment) : Bool :=
  (Date.ofDays m.days).isValid

/-- The instant one span later, if the calendar still has it. -/
def after? (m : Moment) (t : Nat) : Option Moment :=
  if (m.after t).isValid then some (m.after t) else none

/-- The nanoseconds from one instant to another, negative if the other is earlier.  A leap second
counts one second less when the other instant is later in the day. -/
def since (m earlier : Moment) : Int :=
  let leap : Int :=
    if earlier.second < m.second ∧ Span.nanosPerSecond ≤ earlier.nanos then 1
    else if m.second < earlier.second ∧ Span.nanosPerSecond ≤ m.nanos then -1
    else 0
  let seconds :=
    (m.days - earlier.days) * secondsPerDay + ((m.second : Int) - earlier.second) + leap
  seconds * Span.nanosPerSecond + ((m.nanos : Int) - earlier.nanos)

end Moment

end TupleSpace
