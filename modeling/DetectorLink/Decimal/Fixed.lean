import DetectorLink.Decimal.Fraction

/-!
# Numbers with a set number of places

The exact value is rounded once, a half going to the even neighbour. The sign of a negative number
stays when it rounds to zero.
-/

namespace DetectorLink.Decimal

/-- Digits of `n`, at least `width` of them. -/
def paddedDigits (width n : Nat) : String :=
  let digits := Nat.toDigits 10 n
  String.ofList (List.replicate (width - digits.length) '0' ++ digits)

/-- A magnitude with `places` digits after the point. -/
def fixedMagnitude (places : Nat) (f : Fraction) : String :=
  let n := (f.mul ⟨Nat.pow 10 places, 1⟩).round
  let whole := toString (n / Nat.pow 10 places)
  if places = 0 then whole else whole ++ "." ++ paddedDigits places (n % Nat.pow 10 places)

/-- A number with `places` digits after the point. -/
def fixed (places : Nat) (x : Float) : String :=
  let b := Binary.ofBits x.toBits
  (if b.negative then "-" else "") ++ fixedMagnitude places b.magnitude

end DetectorLink.Decimal
