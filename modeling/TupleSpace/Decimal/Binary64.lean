/-!
# Binary floating-point numbers

The finite numbers of the 64-bit binary format, kept as a sign, a mantissa and a power of two, with
exact rational rounding.  Infinities and other non-numbers do not occur: an operation whose result
is too large answers `none`.

A number is written in one way only, so two numbers of the same sign are equal exactly when their
fields are; the two zeros are told apart by the sign alone.
-/

namespace TupleSpace

/-- The number `mantissa * 2 ^ exponent`, negated if `negative` holds.  The exponent is at least
`-1074`, and unless it is `-1074` the mantissa has 53 binary digits. -/
structure Binary64 where
  negative : Bool
  mantissa : Nat
  exponent : Int
deriving DecidableEq, Repr

namespace Binary64

/-- The least power of two. -/
def minExponent : Int := -1074

/-- The greatest power of two. -/
def maxExponent : Int := 971

/-- The least mantissa of a number above the least exponent, `2 ^ 52`. -/
def leastMantissa : Nat := 4503599627370496

/-- Zero with a sign. -/
def zero (negative : Bool) : Binary64 := ⟨negative, 0, minExponent⟩

/-- A natural number divided by another, rounded to the nearest integer, ties to even. -/
def roundQuotient (num den : Nat) : Nat :=
  let q := num / den
  let r := num % den
  if den < 2 * r ∨ (den = 2 * r ∧ q % 2 = 1) then q + 1 else q

/-- `num / (den * 2 ^ e)`, rounded to the nearest integer, ties to even. -/
def roundScaled (num den : Nat) (e : Int) : Nat :=
  if 0 ≤ e then roundQuotient num (den * Nat.pow 2 e.toNat)
  else roundQuotient (num * Nat.pow 2 (-e).toNat) den

/-- The power of two that leaves the quotient `num / den` a mantissa of 53 binary digits, or the
least power if that is greater. -/
def exponentFor (num den : Nat) : Int :=
  let estimate : Int := (Nat.log2 num : Int) - (Nat.log2 den : Int) - 53
  let fits :=
    if 0 ≤ estimate then decide (num < den * Nat.pow 2 (53 + estimate.toNat))
    else decide (num * Nat.pow 2 (-estimate).toNat < den * (2 * leastMantissa))
  max minExponent (if fits then estimate else estimate + 1)

/-- The number nearest to `num / den`, or `none` if it is too large for the format. -/
def ofQuotient? (negative : Bool) (num den : Nat) : Option Binary64 :=
  if num = 0 then some (zero negative)
  else
    let e := exponentFor num den
    let m := roundScaled num den e
    if m = 2 * leastMantissa then
      if e + 1 ≤ maxExponent then some ⟨negative, leastMantissa, e + 1⟩ else none
    else if e ≤ maxExponent then some ⟨negative, m, e⟩ else none

/-- The number nearest to a natural number. -/
def ofNat? (n : Nat) : Option Binary64 :=
  ofQuotient? false n 1

/-- Numerator of the magnitude, over `denominator`. -/
def numerator (x : Binary64) : Nat :=
  if 0 ≤ x.exponent then x.mantissa * Nat.pow 2 x.exponent.toNat else x.mantissa

/-- Denominator of the magnitude, a power of two. -/
def denominator (x : Binary64) : Nat :=
  if 0 ≤ x.exponent then 1 else Nat.pow 2 (-x.exponent).toNat

/-- Product, rounded. -/
def mul? (x y : Binary64) : Option Binary64 :=
  ofQuotient? (x.negative != y.negative) (x.numerator * y.numerator)
    (x.denominator * y.denominator)

/-- Quotient by a number that is not zero, rounded. -/
def div? (x y : Binary64) : Option Binary64 :=
  ofQuotient? (x.negative != y.negative) (x.numerator * y.denominator)
    (x.denominator * y.numerator)

/-- The same number with the given sign. -/
def withSign (x : Binary64) (negative : Bool) : Binary64 :=
  { x with negative := negative }

/-- Numerical equality: the fields agree, or both numbers are zero. -/
def equals (x y : Binary64) : Bool :=
  x == y || (x.mantissa == 0 && y.mantissa == 0)

/-- The number nearest to `10 ^ k`. -/
def powerOfTen? (k : Nat) : Option Binary64 :=
  ofQuotient? false (Nat.pow 10 k) 1

/-- The greatest power of ten used as one factor. -/
def greatestStep : Nat := 308

/-- Divides by the greatest step so many times, stopping at zero. -/
def shrink? : Nat → Binary64 → Option Binary64
  | 0, x => some x
  | n + 1, x =>
    if x.mantissa = 0 then some x
    else ((powerOfTen? greatestStep).bind x.div?).bind (shrink? n)

/-- Scales a number by a power of ten, one rounded multiplication or division by at most `10 ^ 308`
at a time.  Each of these steps rounds, so the result may miss the nearest number by a unit in
the last place; it is `none` if a product is too large. -/
def scaleByTen? (x : Binary64) (e : Int) : Option Binary64 :=
  if 0 ≤ e then
    if e ≤ greatestStep then (powerOfTen? e.toNat).bind x.mul?
    else if x.mantissa = 0 then some x else none
  else
    let k := (-e).toNat
    let steps := (k - 1) / greatestStep
    (shrink? steps x).bind fun y => (powerOfTen? (k - steps * greatestStep)).bind y.div?

end Binary64

end TupleSpace
