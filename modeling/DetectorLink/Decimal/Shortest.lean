import DetectorLink.Decimal.Fraction

/-!
# The fewest digits that read back

A decimal number reads back as a floating-point number if it lies in the interval of reals that
round to it. For each number of digits the two decimals next to the value are tried; the first
number of digits with a hit is taken, and of two hits the nearer.
-/

namespace DetectorLink.Decimal

/-- A decimal number: `digits` times ten to the `exponent`. -/
structure Digits where
  /-- Significant digits as a number. -/
  digits : Nat
  /-- Exponent of ten. -/
  exponent : Int
  deriving DecidableEq, Repr

/-- Exact value. -/
def Digits.value (d : Digits) : Fraction := .ofPower d.digits 10 d.exponent

/-- The reals that round to a floating-point number. -/
structure Interval where
  /-- Lower end. -/
  low : Fraction
  /-- Upper end. -/
  high : Fraction
  /-- The ends belong to it. -/
  closed : Bool

namespace Interval

/-- The reals that round to `b`. Below the least significand of an exponent the neighbour is only
half as far away. -/
def around (b : Binary) : Interval :=
  let gap := if b.significand = Nat.pow 2 52 ∧ -1074 < b.exponent then 1 else 2
  { low := .ofPower (4 * b.significand - gap) 2 (b.exponent - 2)
    high := .ofPower (4 * b.significand + 2) 2 (b.exponent - 2)
    closed := b.significand % 2 == 0 }

/-- True if a value lies in the interval. -/
def contains (i : Interval) (f : Fraction) : Bool :=
  if i.closed then i.low.le f && f.le i.high else i.low.lt f && f.lt i.high

end Interval

/-- Exponent of the leading digit of a positive value. -/
def leadingExponent (f : Fraction) : Int :=
  if f.den ≤ f.num then ((Nat.toDigits 10 f.floor).length : Int) - 1
  else
    let n := (Nat.toDigits 10 (f.den / f.num)).length
    if f.den ≤ f.num * Nat.pow 10 (n - 1) then 1 - (n : Int) else -(n : Int)

/-- The decimal of `n` digits that reads back and is next to the value. -/
def nearest? (b : Binary) (n : Nat) : Option Digits :=
  let value := b.magnitude
  let exponent := leadingExponent value - (n : Int) + 1
  let below := (value.mul (.ofPower 1 10 (-exponent))).floor
  let candidates := [below, below + 1].map fun d => (⟨d, exponent⟩ : Digits)
  match candidates.filter fun d => (Interval.around b).contains d.value with
  | [x, y] => if (y.value.distance value).lt (x.value.distance value) then some y else some x
  | [x] => some x
  | _ => none

/-- Drop zeros at the end. -/
def stripZeros (d : Digits) : Nat → Digits
  | 0 => d
  | fuel + 1 =>
    if d.digits ≠ 0 ∧ d.digits % 10 = 0 then stripZeros ⟨d.digits / 10, d.exponent + 1⟩ fuel else d

/-- The fewest digits that read back. Seventeen are always enough. -/
def shortest (b : Binary) : Digits :=
  if b.significand = 0 then ⟨0, 0⟩
  else
    let found := (List.range 17).findSome? fun n => nearest? b (n + 1)
    stripZeros (found.getD ⟨b.significand, 0⟩) 18

end DetectorLink.Decimal
