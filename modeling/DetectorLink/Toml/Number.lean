import DetectorLink.Config.Datum

/-!
# Numbers

Integers are decimal with an optional sign, or have a mark for base sixteen, eight or two. Digits may
be grouped by single underscores between them. An integer of more than 128 bits and a number that
is too large to be finite are refused.
-/

namespace DetectorLink.Toml

/-- Decimal digit. -/
def isDigit (c : Char) : Bool := c.isDigit

/-- Value of a digit in a base of at most sixteen. -/
def digitIn? (base : Nat) (c : Char) : Option Nat :=
  let value :=
    if c.isDigit then some (c.toNat - '0'.toNat)
    else if 'a' ≤ c ∧ c ≤ 'f' then some (c.toNat - 'a'.toNat + 10)
    else if 'A' ≤ c ∧ c ≤ 'F' then some (c.toNat - 'A'.toNat + 10)
    else none
  value.filter (· < base)

/-- The digits of a group without the underscores between them. -/
def ungroup (base : Nat) : List Char → Option (List Nat)
  | [] => none
  | [c] => (digitIn? base c).map ([·])
  | c :: '_' :: cs => do return (← digitIn? base c) :: (← ungroup base cs)
  | c :: cs => do return (← digitIn? base c) :: (← ungroup base cs)

/-- Value of digits. -/
def ofDigits (base : Nat) (ds : List Nat) : Nat := ds.foldl (fun n d => n * base + d) 0

/-- A sign, true for minus, and what follows it. -/
def splitSign : List Char → Bool × List Char
  | '-' :: cs => (true, cs)
  | '+' :: cs => (false, cs)
  | cs => (false, cs)

/-- Decimal digits without a zero before others. -/
def decimalDigits? (cs : List Char) : Option (List Nat) := do
  let ds ← ungroup 10 cs
  if ds.head? == some 0 && ds.length != 1 then none else some ds

/-- Magnitude of the least integer, half of what the greatest one stays below. -/
def signedLimit : Int := 0x80000000000000000000000000000000

/-- An integer. -/
def integer? (cs : List Char) : Option Int := do
  let n : Int ← match cs with
    | '0' :: 'x' :: cs => (ungroup 16 cs).map fun ds => (ofDigits 16 ds : Int)
    | '0' :: 'o' :: cs => (ungroup 8 cs).map fun ds => (ofDigits 8 ds : Int)
    | '0' :: 'b' :: cs => (ungroup 2 cs).map fun ds => (ofDigits 2 ds : Int)
    | cs =>
      let (minus, cs) := splitSign cs
      (decimalDigits? cs).map fun ds => if minus then -(ofDigits 10 ds : Int) else ofDigits 10 ds
  if -signedLimit ≤ n ∧ n < 2 * signedLimit then some n else none

/-- True if `n` times ten to the `exponent` rounds to a finite number. -/
def isFinite (n : Nat) (exponent : Int) : Bool :=
  let limit := Nat.pow 2 1024 - Nat.pow 2 970
  let digits : Int := (toString n).length
  if n = 0 || exponent + digits < 300 then true
  else if 320 < exponent + digits then false
  else match exponent with
    | .ofNat e => n * Nat.pow 10 e < limit
    | .negSucc e => n < limit * Nat.pow 10 (e + 1)

/-- The digits after a point. -/
def fraction? : List Char → Option (List Nat)
  | [] => some []
  | '.' :: cs => ungroup 10 cs
  | _ => none

/-- The exponent after its mark. -/
def exponent? : List Char → Option Int
  | [] => some 0
  | _ :: cs =>
    let (minus, cs) := splitSign cs
    (ungroup 10 cs).map fun ds => if minus then -(ofDigits 10 ds : Int) else ofDigits 10 ds

/-- A number with a fraction or an exponent, an infinity, or no number. -/
def isReal (cs : List Char) : Bool :=
  let (_, cs) := splitSign cs
  if cs = ['i', 'n', 'f'] || cs = ['n', 'a', 'n'] then true
  else
    let mantissa := cs.takeWhile fun c => c != 'e' && c != 'E'
    let scale := cs.dropWhile fun c => c != 'e' && c != 'E'
    let whole := mantissa.takeWhile (· != '.')
    let tail := mantissa.dropWhile (· != '.')
    if scale.isEmpty && tail.isEmpty then false
    else match decimalDigits? whole, fraction? tail, exponent? scale with
      | some w, some f, some e => isFinite (ofDigits 10 (w ++ f)) (e - f.length)
      | _, _, _ => false

end DetectorLink.Toml
