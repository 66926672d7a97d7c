/-!
# Packet errors

Causes for which a packet cannot be built or decoded, and their wording.
-/

namespace DetectorLink

/-- Why a packet could not be built or decoded. -/
inductive CodecError where
  /-- Fewer units than the structure needs. -/
  | truncated (needed available : Nat)
  /-- The packet would exceed the longest allowed one. -/
  | payloadTooLong (length max : Nat)
  /-- A length breaks the alignment rules. -/
  | misaligned (length : Nat)
  /-- A frame has odd parity; frame 0 is the header. -/
  | parity (index : Nat)
  /-- A start or stop flag is out of place. -/
  | framing (index : Nat)
  /-- The packet is no framed pass-through command. -/
  | notLvds
  deriving DecidableEq, Repr

/-- Name of a packet error. -/
def CodecError.name : CodecError → String
  | .truncated .. => "Truncated"
  | .payloadTooLong .. => "PayloadTooLong"
  | .misaligned .. => "Misaligned"
  | .parity .. => "Parity"
  | .framing .. => "Framing"
  | .notLvds => "NotLvds"

/-- Wording of a packet error. -/
def CodecError.message : CodecError → String
  | .truncated needed available => s!"Truncated packet: need {needed} units, have {available}"
  | .payloadTooLong length max => s!"Payload too long: {length} bytes exceeds {max}"
  | .misaligned length => s!"Misaligned length: {length}"
  | .parity index => s!"LVDS parity error in frame {index}"
  | .framing index => s!"LVDS framing error in frame {index}"
  | .notLvds => "Packet is not an LVDS command"

end DetectorLink
