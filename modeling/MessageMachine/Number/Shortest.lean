import MessageMachine.Number.Double
import MessageMachine.Number.Integer

/-!
# Shortest decimals

A finite double other than zero is written with the fewest decimal digits that read back as the
same double.  The reals that round to the double `mantissa · 2 ^ exponent` form an interval, whose
ends belong to it exactly when the mantissa is even.  For one digit, two digits and so on, the two
neighbours of the double on the decimal grid with that many digits are tested; the first grid with
a neighbour inside the interval wins, and of two such neighbours the nearer one.
-/

namespace MessageMachine

namespace Double

/-- The number `digits · 10 ^ exponent`. -/
structure Decimal where
  digits : Nat
  exponent : Int
deriving DecidableEq, Repr

/-- A double and the ends of the interval of reals that round to it, over one denominator. -/
structure Interval where
  lower : Nat
  centre : Nat
  upper : Nat
  denominator : Nat
  closed : Bool

namespace Interval

/-- The interval of a positive double.  It is narrower below a power of two, where the doubles
are twice as dense, except at the bottom of the format. -/
def ofBinary (mantissa : Nat) (exponent : Int) : Interval :=
  let below := if mantissa = powerOfTwo 52 ∧ -1074 < exponent then 1 else 2
  let scale := if 0 ≤ exponent - 2 then powerOfTwo (exponent - 2).toNat else 1
  { lower := (4 * mantissa - below) * scale
    centre := 4 * mantissa * scale
    upper := (4 * mantissa + 2) * scale
    denominator := if 0 ≤ exponent - 2 then 1 else powerOfTwo (2 - exponent).toNat
    closed := mantissa % 2 = 0 }

/-- Whether the quotient `numerator / denominator` lies in the interval. -/
def contains (interval : Interval) (numerator denominator : Nat) : Bool :=
  let point := numerator * interval.denominator
  let lower := interval.lower * denominator
  let upper := interval.upper * denominator
  if interval.closed then decide (lower ≤ point) && decide (point ≤ upper)
  else decide (lower < point) && decide (point < upper)

/-- The exponent of the leading decimal digit of the centre: the `e` such that the centre lies
between `10 ^ e` and `10 ^ (e + 1)`. -/
def leadingDecimal (interval : Interval) : Int :=
  if interval.denominator ≤ interval.centre then
    ((Integer.digits (interval.centre / interval.denominator)).length : Int) - 1
  else
    -((Integer.digits ((interval.denominator - 1) / interval.centre)).length : Int)

/-- The neighbour of the centre that is inside the interval, on the grid of multiples of
`10 ^ exponent`; of two, the nearer one, and the upper one if both are equally near. -/
def neighbour? (interval : Interval) (exponent : Int) : Option Decimal :=
  let step := if 0 ≤ exponent then powerOfTen exponent.toNat else 1
  let parts := if 0 ≤ exponent then 1 else powerOfTen (-exponent).toNat
  let numerator := interval.centre * parts
  let denominator := interval.denominator * step
  let digits := numerator / denominator
  let insideBelow := interval.contains (digits * step) parts
  let insideAbove := interval.contains ((digits + 1) * step) parts
  let nearerAbove := decide (denominator ≤ 2 * (numerator % denominator))
  if insideAbove && (!insideBelow || nearerAbove) then some { digits := digits + 1, exponent }
  else if insideBelow then some { digits, exponent }
  else none

end Interval

/-- Drop trailing zeros from the digits. -/
def Decimal.trim (decimal : Decimal) : Decimal :=
  if decimal.digits ≠ 0 ∧ decimal.digits % 10 = 0 then
    Decimal.trim { digits := decimal.digits / 10, exponent := decimal.exponent + 1 }
  else decimal
termination_by decimal.digits
decreasing_by omega

/-- The shortest decimal that reads back as the positive double `mantissa · 2 ^ exponent`.
Seventeen digits always suffice. -/
def shortest (mantissa : Nat) (exponent : Int) : Decimal :=
  let interval := Interval.ofBinary mantissa exponent
  let leading := interval.leadingDecimal
  let found := (List.range 17).findSome? fun (places : Nat) =>
    interval.neighbour? (leading - places)
  (found.getD { digits := 0, exponent := 0 }).trim

end Double

end MessageMachine
