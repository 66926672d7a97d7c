import DetectorLink.Module.Error
import DetectorLink.Overflow

/-!
# Bit fields

A parameter occupies `width` bits at `shift` of one payload word. The main statement: what is
inserted is what is extracted.
-/

namespace DetectorLink

/-- Bits of a payload word. -/
structure BitField where
  /-- Index of the word. -/
  offset : Nat
  /-- Number of bits. -/
  width : Nat
  /-- Lowest bit. -/
  shift : Nat
  deriving DecidableEq, Repr

namespace BitField

/-- The lowest `width` bits. -/
def mask (width : Nat) : UInt32 :=
  if 32 ≤ width then 0xFFFFFFFF else ((1 : UInt32) <<< UInt32.ofNat width) - 1

variable (f : BitField)

/-- Refuse a field without bits or beyond its word, unless its end has more than 32 bits itself. -/
def check : Except Overflow (Except ParameterError Unit) :=
  if f.width = 0 then .ok (.error .zeroWidth)
  else do
    let stop ← checkedAdd UInt32.size f.shift f.width
    return if 32 < stop then .error (.exceedsWord f.shift f.width) else .ok ()

/-- Value of the field in its word. -/
def extract (word : UInt32) : UInt32 := (word >>> UInt32.ofNat f.shift) &&& mask f.width

/-- The word that holds a value in the field and nothing else. -/
def insert (value : UInt32) : UInt32 := (value &&& mask f.width) <<< UInt32.ofNat f.shift

/-- True if a value has no more bits than the field. -/
def fits (value : UInt32) : Bool := value &&& ~~~(mask f.width) == 0

end BitField

end DetectorLink
