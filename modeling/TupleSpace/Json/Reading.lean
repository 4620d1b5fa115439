import TupleSpace.Json.Value
import TupleSpace.Json.Written
import TupleSpace.Word

/-!
# What a JSON text means

The meaning of numbers and strings, and the value of a whole text.

A number without point and exponent is whole if it lies between `-2 ^ 63` and `2 ^ 64 - 1`; a minus
zero is not.  Every other number is read from a significand below `2 ^ 64` and a power of ten: the
significand takes digits as long as they fit, and is then scaled in rounded steps, so that a long
numeral may miss the nearest number by a unit in the last place.  A number too large for the
format is an error, and so are an escape that leaves half a surrogate pair and nesting deeper than
127 levels.
-/

namespace TupleSpace.Json

/-- The greatest significand. -/
def maxSignificand : Nat := Word.limit - 1

/-- The greatest exponent that is taken literally. -/
def maxExponentText : Nat := 2147483647

/-- Appends digits to a significand while the result stays within a bound: the significand, and
the digits left over. -/
def appendDigits (bound significand : Nat) : List Nat → Nat × List Nat
  | [] => (significand, [])
  | d :: ds =>
    if significand * 10 + d ≤ bound then appendDigits bound (significand * 10 + d) ds
    else (significand, d :: ds)

/-- A significand times a power of ten, with a sign. -/
def scaled? (negative : Bool) (significand : Nat) (e : Int) : Option Number :=
  ((Binary64.ofNat? significand).bind fun x => x.scaleByTen? e).map fun x =>
    .float (x.withSign negative)

/-- Applies a written exponent.  One that cannot be taken literally gives zero, or is an error if
the number would be too large. -/
def withExponent? (negative : Bool) (significand : Nat) (shift : Int)
    (exponent : Option (Bool × List Nat)) : Option Number :=
  match exponent with
  | none => scaled? negative significand shift
  | some (below, ds) =>
    match appendDigits maxExponentText 0 ds with
    | (e, []) => scaled? negative significand (if below then shift - e else shift + e)
    | _ =>
      if significand ≠ 0 ∧ ¬below then none
      else some (.float (Binary64.zero negative))

/-- The number that a numeral stands for. -/
def Numeral.toNumber? (n : Numeral) : Option Number :=
  let (significand, dropped) := appendDigits maxSignificand 0 n.integer
  match n.fraction, n.exponent with
  | none, none =>
    if dropped.isEmpty then
      if n.negative then
        if 0 < significand ∧ significand ≤ Word.signedLimit then some (.whole (-significand))
        else scaled? true significand 0
      else some (.whole significand)
    else scaled? n.negative significand dropped.length
  | fraction, exponent =>
    let digits := fraction.getD []
    let (significand, left) := appendDigits maxSignificand significand digits
    let shift : Int := dropped.length - ((digits.length - left.length : Nat) : Int)
    withExponent? n.negative significand shift exponent

/-- The characters of a string; a unit that is half of a surrogate pair wants the other half. -/
def charsOf? : List Piece → Option (List Char)
  | [] => some []
  | .char c :: rest => (charsOf? rest).map (c :: ·)
  | .unit u :: rest =>
    if 0xDC00 ≤ u ∧ u ≤ 0xDFFF then none
    else if 0xD800 ≤ u ∧ u ≤ 0xDBFF then
      match rest with
      | .unit l :: tail =>
        if 0xDC00 ≤ l ∧ l ≤ 0xDFFF then
          (charsOf? tail).map
            (Char.ofNat (0x10000 + (u - 0xD800) * 0x400 + (l - 0xDC00)) :: ·)
        else none
      | _ => none
    else (charsOf? rest).map (Char.ofNat u :: ·)

/-- The text of a string. -/
def textOf? (pieces : List Piece) : Option String :=
  (charsOf? pieces).map String.ofList

mutual

/-- The value of a written text that may open `depth` more levels. -/
def Written.toValue? (depth : Nat) : Written → Option Json
  | .null => some Json.null
  | .bool b => some (Json.bool b)
  | .number n => n.toNumber?.map Json.number
  | .string ps => (textOf? ps).map Json.string
  | .array items =>
    if depth = 0 then none
    else (Written.toValues? (depth - 1) items).map Json.array
  | .object fields =>
    if depth = 0 then none
    else (Written.toFields? (depth - 1) fields).map Json.ofFields

/-- The values of written items. -/
def Written.toValues? (depth : Nat) : List Written → Option (List Json)
  | [] => some []
  | w :: ws =>
    match Written.toValue? depth w with
    | none => none
    | some v => (Written.toValues? depth ws).map (v :: ·)

/-- The values of written fields. -/
def Written.toFields? (depth : Nat) : List (List Piece × Written) → Option (List (String × Json))
  | [] => some []
  | (name, w) :: fs =>
    match textOf? name, Written.toValue? depth w with
    | some name, some v => (Written.toFields? depth fs).map ((name, v) :: ·)
    | _, _ => none

end

/-- The number of levels a text may nest. -/
def maxDepth : Nat := 127

/-- The value of a JSON text. -/
def ofText? (text : String) : Option Json :=
  (Written.ofText? text).bind (Written.toValue? maxDepth)

end TupleSpace.Json
