/-!
# Unsigned numerals

Reading bounded unsigned numbers in a given radix, and writing them in hexadecimal. Reading stops
at the first character that cannot be used, and the refusal names the cause.
-/

namespace DetectorLink

/-- Why a numeral was refused. -/
inductive NumeralError where
  /-- There is no character at all. -/
  | empty
  /-- A character is not a digit of the radix, or only a sign is present. -/
  | invalidDigit
  /-- The value reaches the bound. -/
  | tooLarge
  deriving DecidableEq, Repr

/-- Wording of a refusal. -/
def NumeralError.message : NumeralError → String
  | .empty => "cannot parse integer from empty string"
  | .invalidDigit => "invalid digit found in string"
  | .tooLarge => "number too large to fit in target type"

namespace Numeral

/-- Values of 32 bits lie below this bound. -/
def wordBound : Nat := 0x100000000

/-- Values of 64 bits lie below this bound. -/
def longBound : Nat := 0x10000000000000000

/-- Value of an ASCII digit or letter in `radix`. -/
def digit? (radix : Nat) (c : Char) : Option Nat :=
  let value :=
    if '0' ≤ c ∧ c ≤ '9' then some (c.toNat - '0'.toNat)
    else if 'a' ≤ c ∧ c ≤ 'z' then some (c.toNat - 'a'.toNat + 10)
    else if 'A' ≤ c ∧ c ≤ 'Z' then some (c.toNat - 'A'.toNat + 10)
    else none
  value.filter (· < radix)

/-- Digits after the value `acc`, as long as the value stays below `bound`. -/
def readDigits (radix bound acc : Nat) : List Char → Except NumeralError Nat
  | [] => .ok acc
  | c :: cs =>
    match digit? radix c with
    | none => .error .invalidDigit
    | some d =>
      if acc * radix + d < bound then readDigits radix bound (acc * radix + d) cs
      else .error .tooLarge

/-- An unsigned numeral below `bound`. One leading plus sign is allowed. -/
def read (radix bound : Nat) : List Char → Except NumeralError Nat
  | [] => .error .empty
  | ['+'] => .error .invalidDigit
  | '+' :: cs => readDigits radix bound 0 cs
  | cs => readDigits radix bound 0 cs

/-- The text after a hexadecimal mark, if there is one. -/
def afterHexMark? : List Char → Option (List Char)
  | '0' :: 'x' :: cs => some cs
  | '0' :: 'X' :: cs => some cs
  | _ => none

/-- Lower-case hexadecimal digits, at least `width` of them. -/
def hex (width n : Nat) : String :=
  let digits := Nat.toDigits 16 n
  String.ofList (List.replicate (width - digits.length) '0' ++ digits)

/-- Upper-case hexadecimal digits, at least `width` of them. -/
def hexUpper (width n : Nat) : String :=
  String.ofList ((hex width n).toList.map Char.toUpper)

/-- A marked hexadecimal number with at least `width` digits. -/
def marked (width n : Nat) : String := "0x" ++ hex width n

theorem readDigits_lt {radix bound acc n : Nat} {cs : List Char} (hacc : acc < bound)
    (h : readDigits radix bound acc cs = .ok n) : n < bound := by
  induction cs generalizing acc with
  | nil => simp only [readDigits, Except.ok.injEq] at h; omega
  | cons c cs ih =>
    simp only [readDigits] at h
    split at h
    · contradiction
    · split at h
      · next hlt => exact ih hlt h
      · contradiction

/-- What is read stays below the bound. -/
theorem read_lt {radix bound n : Nat} {cs : List Char} (hb : 0 < bound)
    (h : read radix bound cs = .ok n) : n < bound := by
  unfold read at h
  split at h
  · contradiction
  · contradiction
  · exact readDigits_lt hb h
  · exact readDigits_lt hb h

end Numeral

end DetectorLink
