/-!
# Arithmetic of bounded numbers

A sum, a difference or a remainder that is no number of its type is not wrapped: the computation
stops there. So does one that asks for more bytes than can be addressed.
-/

namespace DetectorLink

/-- Why a computation stops. -/
inductive Overflow where
  /-- A sum has more bits than its type. -/
  | sum
  /-- A difference is below zero. -/
  | difference
  /-- A remainder by zero is asked for. -/
  | remainder
  /-- A list would have more bytes than can be addressed. -/
  | capacity
  deriving DecidableEq, Repr

variable (bound a b : Nat)

/-- Sum of two numbers that lie below a bound. -/
def checkedAdd : Except Overflow Nat := if a + b < bound then .ok (a + b) else .error .sum

/-- Difference of two numbers. -/
def checkedSub : Except Overflow Nat := if b ≤ a then .ok (a - b) else .error .difference

/-- Remainder of a division. -/
def checkedMod : Except Overflow Nat := if b = 0 then .error .remainder else .ok (a % b)

/-- Bytes of a list in memory are fewer than this. -/
def addressBound : Nat := 0x8000000000000000

variable {bound a b}

theorem checkedAdd_of_lt (h : a + b < bound) : checkedAdd bound a b = .ok (a + b) :=
  if_pos h

theorem checkedAdd_of_le (h : bound ≤ a + b) : checkedAdd bound a b = .error .sum :=
  if_neg (Nat.not_lt.mpr h)

end DetectorLink
