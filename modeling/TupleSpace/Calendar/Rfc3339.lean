import TupleSpace.Calendar
import TupleSpace.Text.Blank

/-!
# RFC 3339 timestamps

The text of an instant of the wall clock.  It is written in universal time, with `Z` and with no,
three, six or nine decimals, as few as are exact; a year that needs more than four digits has a
sign.

More is read than is written: any offset below a day, with or without a colon in it, a blank or
`t` in place of `T`, `z` or `UTC` in place of `Z`, blanks in front of the parts, second 60, and
decimals beyond the ninth, which are dropped.
-/

namespace TupleSpace.Rfc3339

/-- A number with at least so many digits. -/
def padded (width n : Nat) : List Char :=
  let digits := (toString n).toList
  List.replicate (width - digits.length) '0' ++ digits

/-- The text of a year. -/
def yearChars (year : Int) : List Char :=
  if 0 ≤ year ∧ year ≤ 9999 then padded 4 year.toNat
  else (if year < 0 then '-' else '+') :: padded 5 year.natAbs

/-- The decimals of a second: as few groups of three as are exact. -/
def fractionChars (nanos : Nat) : List Char :=
  if nanos = 0 then []
  else if nanos % 1000000 = 0 then '.' :: padded 3 (nanos / 1000000)
  else if nanos % 1000 = 0 then '.' :: padded 6 (nanos / 1000)
  else '.' :: padded 9 nanos

/-- The text of an instant. -/
def write (m : Moment) : String :=
  let d := Date.ofDays m.days
  let leap := m.nanos / Span.nanosPerSecond
  String.ofList <|
    yearChars d.year ++ '-' :: padded 2 d.month ++ '-' :: padded 2 d.day ++
      'T' :: padded 2 (m.second / 3600) ++ ':' :: padded 2 (m.second / 60 % 60) ++
      ':' :: padded 2 (m.second % 60 + leap) ++
      fractionChars (m.nanos % Span.nanosPerSecond) ++ ['Z']

/-- The digits in front, at most so many, as a number, how many there were, and the text behind
them. -/
def takeNumber : Nat → List Char → Nat → Nat → Nat × Nat × List Char
  | 0, cs, acc, n => (acc, n, cs)
  | _, [], acc, n => (acc, n, [])
  | width + 1, c :: cs, acc, n =>
    if c.isDigit then takeNumber width cs (acc * 10 + (c.toNat - 48)) (n + 1)
    else (acc, n, c :: cs)

/-- A number of at least one and at most `width` digits. -/
def number? (width : Nat) (cs : List Char) : Option (Nat × List Char) :=
  match takeNumber width cs 0 0 with
  | (_, 0, _) => none
  | (v, _, rest) => some (v, rest)

/-- A number of at most `width` digits behind blanks. -/
def field? (width : Nat) (cs : List Char) : Option (Nat × List Char) :=
  number? width (Text.trimLeft cs)

/-- A year behind blanks: with a sign of any length, without one of at most four digits. -/
def year? (cs : List Char) : Option (Int × List Char) :=
  match Text.trimLeft cs with
  | '-' :: rest => (number? rest.length rest).map fun (v, tail) => (-(v : Int), tail)
  | '+' :: rest => (number? rest.length rest).map fun (v, tail) => ((v : Int), tail)
  | rest => (number? 4 rest).map fun (v, tail) => ((v : Int), tail)

/-- A mark behind blanks. -/
def mark? (c : Char) (cs : List Char) : Option (List Char) :=
  match Text.trimLeft cs with
  | d :: rest => if d = c then some rest else none
  | [] => none

/-- The nanoseconds behind a point, if there is one; digits beyond the ninth are dropped. -/
def fraction? (cs : List Char) : Option (Nat × List Char) :=
  match cs with
  | '.' :: rest =>
    match takeNumber 9 rest 0 0 with
    | (_, 0, _) => none
    | (v, n, tail) => some (v * Nat.pow 10 (9 - n), tail.dropWhile Char.isDigit)
  | _ => some (0, cs)

/-- The mark between date and time. -/
def separator? : List Char → Option (List Char)
  | c :: rest => if c == 'T' || c == 't' || c == ' ' then some rest else none
  | [] => none

/-- A two-digit number. -/
def pair? : List Char → Option (Nat × List Char)
  | a :: b :: rest =>
    if a.isDigit && b.isDigit then some ((a.toNat - 48) * 10 + (b.toNat - 48), rest) else none
  | _ => none

/-- The seconds east of universal time. -/
def offset? (cs : List Char) : Option (Int × List Char) :=
  match cs with
  | c :: rest =>
    if c == 'Z' || c == 'z' then some (0, rest)
    else
      match cs with
      | u :: t :: k :: tail =>
        if u.toUpper == 'U' && t.toUpper == 'T' && k.toUpper == 'C' then some (0, tail)
        else signed c rest
      | _ => signed c rest
  | [] => none
where
  /-- An offset with a sign; the minus may be the mathematical one. -/
  signed (c : Char) (rest : List Char) : Option (Int × List Char) :=
    if c == '+' || c == '-' || c.toNat == 0x2212 then do
      let (hours, rest) ← pair? rest
      let rest := rest.dropWhile fun x => x == ':' || Text.isBlank x
      let (minutes, rest) ← pair? rest
      if 60 ≤ minutes then none
      else
        let seconds : Int := hours * 3600 + minutes * 60
        return (if c == '+' then seconds else -seconds, rest)
    else none

/-- The instant of a local date and time at an offset from universal time. -/
def moment? (d : Date) (hour minute second nanos : Nat) (offset : Int) : Option Moment :=
  if d.isValid && decide (hour ≤ 23) && decide (minute ≤ 59) && decide (second ≤ 60) &&
      decide (offset.natAbs < Moment.secondsPerDay) then
    let leap := second == 60
    let localSecond : Int :=
      hour * 3600 + minute * 60 + (if leap then 59 else (second : Int)) - offset
    let m : Moment :=
      ⟨d.toDays + Int.fdiv localSecond Moment.secondsPerDay,
        (Int.fmod localSecond Moment.secondsPerDay).toNat,
        nanos + (if leap then Span.nanosPerSecond else 0)⟩
    if m.isValid then some m else none
  else none

/-- The instant that a text names. -/
def read? (text : String) : Option Moment := do
  let (year, cs) ← year? text.toList
  let cs ← mark? '-' cs
  let (month, cs) ← field? 2 cs
  let cs ← mark? '-' cs
  let (day, cs) ← field? 2 cs
  let cs ← separator? cs
  let (hour, cs) ← field? 2 cs
  let cs ← mark? ':' cs
  let (minute, cs) ← field? 2 cs
  let cs ← mark? ':' cs
  let (second, cs) ← field? 2 cs
  let (nanos, cs) ← fraction? cs
  let (offset, cs) ← offset? (Text.trimLeft cs)
  if (Text.trimLeft cs).isEmpty then moment? ⟨year, month, day⟩ hour minute second nanos offset
  else none

end TupleSpace.Rfc3339
