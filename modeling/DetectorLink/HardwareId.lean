import DetectorLink.Text.Blank
import DetectorLink.Text.Numeral

/-!
# Hardware ids

A module is addressed by a 32-bit id. Ids are written as dotted quads and read from a dotted quad,
a marked hexadecimal number or a plain decimal number, with blanks around them ignored.
-/

namespace DetectorLink

/-- Address of a front-end module. -/
structure HardwareId where
  /-- The 32-bit address itself. -/
  raw : UInt32
  deriving DecidableEq, Repr, Inhabited

namespace HardwareId

/-- Destination that reaches every module of a link. -/
def broadcast : UInt32 := 0

/-- Source of the packets that this host sends. -/
def self : UInt32 := 0x000F10CC

/-- The four octets, most significant first. -/
def octets (id : HardwareId) : List Nat :=
  let n := id.raw.toNat
  [n / 16777216, n / 65536 % 256, n / 256 % 256, n % 256]

/-- Dotted quad. -/
def text (id : HardwareId) : String := ".".intercalate (id.octets.map toString)

/-- An octet: one to three decimal digits, no leading zero, at most 255. -/
def readOctet? (cs : List Char) : Option Nat :=
  if cs.isEmpty || 3 < cs.length || (1 < cs.length && cs.head? == some '0') then none
  else if cs.all Char.isDigit then
    let n := cs.foldl (fun acc c => acc * 10 + (c.toNat - '0'.toNat)) 0
    if n < 256 then some n else none
  else none

/-- The pieces of `cs` between dots. -/
def splitDots : List Char → List (List Char)
  | [] => [[]]
  | c :: cs =>
    match splitDots cs with
    | [] => [[c]]
    | piece :: pieces => if c = '.' then [] :: piece :: pieces else (c :: piece) :: pieces

/-- Four octets separated by dots. -/
def readQuad? (cs : List Char) : Option Nat :=
  match (splitDots cs).map readOctet? with
  | [some a, some b, some c, some d] => some (a * 16777216 + b * 65536 + c * 256 + d)
  | _ => none

/-- Reads any of the three notations. -/
def parse? (text : String) : Option HardwareId :=
  let cs := Text.trimChars text.toList
  let value :=
    match Numeral.afterHexMark? cs with
    | some digits => (Numeral.read 16 Numeral.wordBound digits).toOption
    | none =>
      if cs.contains '.' then readQuad? cs
      else (Numeral.read 10 Numeral.wordBound cs).toOption
  value.map fun n => ⟨UInt32.ofNat n⟩

/-- Wording of the refusal of `text`. -/
def refusal (text : String) : String :=
  "Invalid hardware id '" ++ text ++ "', expected dotted quad or 0x-prefixed hex"

end HardwareId

end DetectorLink
