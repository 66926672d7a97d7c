import DetectorLink.Bytes
import DetectorLink.Text.Numeral

/-!
# Bytes in hexadecimal

Bytes are written as two lower-case digits each, and read back from them.
-/

namespace DetectorLink.Hex

/-- Character of a digit below 16. -/
def digit (n : Nat) : Char := Char.ofNat (if n < 10 then 48 + n else 87 + n)

/-- Two digits for every byte. -/
def encode (b : Bytes) : String :=
  String.ofList (b.flatMap fun x => [digit (x.toNat / 16), digit (x.toNat % 16)])

/-- Bytes of two digits each; a digit without a partner is dropped. -/
def decodeChars : List Char → Bytes
  | high :: low :: rest =>
    let value (c : Char) := (Numeral.digit? 16 c).getD 0
    UInt8.ofNat (value high * 16 + value low) :: decodeChars rest
  | _ => []

/-- Bytes of two digits each. -/
def decode (s : String) : Bytes := decodeChars s.toList

end DetectorLink.Hex
