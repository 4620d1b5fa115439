import TupleSpace.Decimal.Binary64

/-!
# Shortest decimals

The fewest decimal digits that read back as a given binary number.  A decimal reads back as the
number exactly when it lies in the number's rounding interval, whose ends belong to it when the
mantissa is even.  The search runs over the grids of multiples of a power of ten, coarse ones
first; if a grid meets the interval at all, then in one of the two grid points next to the number.
-/

namespace TupleSpace.Decimal

/-- A positive decimal number `digits * 10 ^ exponent`. -/
structure Scientific where
  digits : Nat
  exponent : Int
deriving DecidableEq, Repr

/-- A positive number with its rounding interval, all in units of a quarter of the last place:
the number is `4 * mantissa` such units, a unit being `2 ^ scale`. -/
structure Rounding where
  low : Nat
  centre : Nat
  high : Nat
  closed : Bool
  scale : Int
deriving DecidableEq, Repr

/-- The rounding interval of a binary number.  Below a power of two the neighbours are closer
together, so the lower half of the interval is half as long there. -/
def Rounding.of (x : Binary64) : Rounding where
  low :=
    if x.mantissa = Binary64.leastMantissa ∧ Binary64.minExponent < x.exponent then
      4 * x.mantissa - 1
    else
      4 * x.mantissa - 2
  centre := 4 * x.mantissa
  high := 4 * x.mantissa + 2
  closed := x.mantissa % 2 == 0
  scale := x.exponent - 2

/-- The two factors that bring `u` units and `d` grid points of size `10 ^ e` to one scale: `u`
times the first is to be compared with `d` times the second. -/
def factors (scale e : Int) : Nat × Nat :=
  (Nat.pow 2 scale.toNat * Nat.pow 10 (-e).toNat,
    Nat.pow 2 (-scale).toNat * Nat.pow 10 e.toNat)

/-- Whether the grid point `d * 10 ^ e` lies in the interval. -/
def Rounding.contains (r : Rounding) (d : Nat) (e : Int) : Bool :=
  let (u, g) := factors r.scale e
  if r.closed then r.low * u ≤ d * g && d * g ≤ r.high * u
  else r.low * u < d * g && d * g < r.high * u

/-- The greatest grid point that does not exceed the number. -/
def Rounding.gridFloor (r : Rounding) (e : Int) : Nat :=
  let (u, g) := factors r.scale e
  r.centre * u / g

/-- The grid point next to the number that lies in the interval, the nearer one if both do. -/
def Rounding.onGrid? (r : Rounding) (e : Int) : Option Nat :=
  let d := r.gridFloor e
  let (u, g) := factors r.scale e
  let below := d != 0 && r.contains d e
  let above := r.contains (d + 1) e
  if below && above then
    let down := r.centre * u - d * g
    let up := (d + 1) * g - r.centre * u
    if down < up || (down == up && d % 2 == 0) then some d else some (d + 1)
  else if below then some d
  else if above then some (d + 1)
  else none

/-- Tries the grids of `10 ^ e`, `10 ^ (e - 1)` and so on. -/
def Rounding.search (r : Rounding) : Nat → Int → Option Scientific
  | 0, _ => none
  | fuel + 1, e =>
    match r.onGrid? e with
    | some d => some ⟨d, e⟩
    | none => r.search fuel (e - 1)

/-- A power of ten above the number: `log10 2` is less than `30103 / 100000`. -/
def coarsest (x : Binary64) : Int :=
  (x.exponent + Nat.log2 x.mantissa + 1) * 30103 / 100000 + 2

/-- The shortest decimal that reads back as a number other than zero; its sign is left out.  Of
seventeen digits one always reads back, so the search does not fail. -/
def shortest (x : Binary64) : Scientific :=
  ((Rounding.of x).search 40 (coarsest x)).getD ⟨x.mantissa, x.exponent⟩

end TupleSpace.Decimal
