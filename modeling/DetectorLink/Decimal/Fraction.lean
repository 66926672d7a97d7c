/-!
# Fractions of powers

Floating-point numbers are integers times a power of two, decimal numbers integers times a power of
ten. Both are fractions of natural numbers, which are compared and rounded exactly.
-/

namespace DetectorLink.Decimal

/-- A quotient of natural numbers. -/
structure Fraction where
  /-- Numerator. -/
  num : Nat
  /-- Denominator. -/
  den : Nat
  deriving DecidableEq, Repr

namespace Fraction

/-- `n` times a power of `base`. -/
def ofPower (n base : Nat) : Int → Fraction
  | .ofNat e => ⟨n * Nat.pow base e, 1⟩
  | .negSucc e => ⟨n, Nat.pow base (e + 1)⟩

/-- Comparison of values. -/
def le (a b : Fraction) : Bool := a.num * b.den ≤ b.num * a.den

/-- Strict comparison of values. -/
def lt (a b : Fraction) : Bool := a.num * b.den < b.num * a.den

/-- Product. -/
def mul (a b : Fraction) : Fraction := ⟨a.num * b.num, a.den * b.den⟩

/-- Distance of two values. -/
def distance (a b : Fraction) : Fraction :=
  let x := a.num * b.den
  let y := b.num * a.den
  ⟨max x y - min x y, a.den * b.den⟩

/-- The greatest integer that is not above the value. -/
def floor (a : Fraction) : Nat := a.num / a.den

/-- The nearest integer; a half goes to the even neighbour. -/
def round (a : Fraction) : Nat :=
  let q := a.num / a.den
  let r := a.num % a.den
  if 2 * r < a.den then q
  else if a.den < 2 * r then q + 1
  else if q % 2 = 0 then q else q + 1

/-- A rounded value is at most half a unit away. -/
theorem round_near (a : Fraction) (h : 0 < a.den) :
    2 * (a.round * a.den) ≤ 2 * a.num + a.den ∧ 2 * a.num ≤ 2 * (a.round * a.den) + a.den := by
  have e : a.den * (a.num / a.den) + a.num % a.den = a.num := Nat.div_add_mod a.num a.den
  have hr : a.num % a.den < a.den := Nat.mod_lt _ h
  have hq : a.num / a.den * a.den = a.den * (a.num / a.den) := Nat.mul_comm _ _
  have hs : (a.num / a.den + 1) * a.den = a.den * (a.num / a.den) + a.den := by
    rw [Nat.add_mul, Nat.one_mul, hq]
  simp only [round]
  repeat' split
  all_goals first | rw [hq] | rw [hs]
  all_goals omega

end Fraction

/-- A finite floating-point number: its sign, and `significand` times two to the `exponent`. -/
structure Binary where
  /-- Below zero, or the zero that counts as such. -/
  negative : Bool
  /-- Significand. -/
  significand : Nat
  /-- Exponent of two. -/
  exponent : Int
  deriving DecidableEq, Repr

namespace Binary

/-- The number that 64 bits stand for. Infinities are taken as numbers of the next exponent. -/
def ofBits (bits : UInt64) : Binary :=
  let n := bits.toNat
  let field : Nat := n / Nat.pow 2 52 % Nat.pow 2 11
  let tail : Nat := n % Nat.pow 2 52
  let negative : Bool := Nat.pow 2 63 ≤ n
  if field = 0 then ⟨negative, tail, -1074⟩
  else ⟨negative, Nat.pow 2 52 + tail, (field : Int) - 1075⟩

/-- The number without its sign. -/
def magnitude (b : Binary) : Fraction := .ofPower b.significand 2 b.exponent

end Binary

end DetectorLink.Decimal
