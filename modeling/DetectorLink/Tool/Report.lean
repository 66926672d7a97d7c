import DetectorLink.Decimal.Fixed
import DetectorLink.Link.Status
import DetectorLink.Module.Discovery
import DetectorLink.Text.Column
import DetectorLink.Text.Json

/-!
# Reports

What the tool prints of a board, of the modules found, of their verification and of registers, each
as lines of text or as JSON.
-/

namespace DetectorLink

/-! ## Boards -/

/-- Text of a truth value. -/
def flagText (b : Bool) : String := if b then "true" else "false"

/-- Board model as JSON. -/
def BoardType.toJson (b : BoardType) : Json :=
  match b, b.name? with
  | _, some name => .str name
  | .unknown code, none => .object [("unknown", .word code)]
  | _, none => .null

namespace BoardStatus

variable (s : BoardStatus)

/-- The status as JSON. -/
def toJson : Json :=
  .object [("board", s.board.toJson), ("interface", .str s.interface.name),
    ("hardware_ver", .word s.hardwareVersion), ("firmware_ver", .word s.firmwareVersion),
    ("firmware_date", .word s.firmwareDate), ("fpga_serial", .nat s.serial.toNat),
    ("rx_enabled", .bool s.rxEnabled), ("err_packets_enabled", .bool s.errorPackets),
    ("stalled", .bool s.stalled), ("overflowed", .bool s.overflowed),
    ("optical_signal", .bool s.opticalSignal), ("optical_present", .bool s.opticalPresent),
    ("optical_fault", .bool s.opticalFault), ("dma_size", .nat s.regionSize),
    ("dma_used", .nat s.regionUsed), ("rx_rate", .word s.rxRate),
    ("bars", .array (s.bars.map .word)), ("err_crc", .word s.errCrc),
    ("err_length", .word s.errLength), ("err_frame", .word s.errFrame),
    ("fpga_temp", .float s.temperature), ("fpga_core_volt", .float s.coreVoltage),
    ("fpga_aux_volt", .float s.auxVoltage)]

/-- The status in lines. -/
def lines : List String :=
  let row (label text : String) := Text.padRight 18 (label ++ ":") ++ text
  let hex (w : UInt32) := Numeral.marked 1 w.toNat
  [row "Board" s.board.title,
    row "Interface" s.interface.title,
    row "Hardware version" (hex s.hardwareVersion),
    row "Firmware version"
      (hex s.firmwareVersion ++ " (" ++ Numeral.marked 8 s.firmwareDate.toNat ++ ")"),
    row "FPGA serial" (Numeral.marked 16 s.serial.toNat),
    row "RX enabled" (flagText s.rxEnabled),
    row "Error packets" (flagText s.errorPackets),
    row "Stalled" (flagText s.stalled),
    row "Overflowed" (flagText s.overflowed),
    row "Optical" ("signal=" ++ flagText s.opticalSignal ++
      " present=" ++ flagText s.opticalPresent ++ " fault=" ++ flagText s.opticalFault),
    row "DMA buffer" s!"{s.regionUsed} / {s.regionSize} bytes",
    row "RX rate" s!"{s.rxRate.toNat} B/s",
    row "Errors" (s!"crc={s.errCrc.toNat} length={s.errLength.toNat} " ++
      s!"frame={s.errFrame.toNat}"),
    row "FPGA" (Decimal.fixed 1 s.temperature ++ " C, core " ++ Decimal.fixed 2 s.coreVoltage ++
      " V, aux " ++ Decimal.fixed 2 s.auxVoltage ++ " V")]

end BoardStatus

/-! ## Modules -/

/-- A component's version as JSON. -/
def ComponentVersion.toJson (v : ComponentVersion) : Json :=
  .object [("version", .byte v.version), ("revision", .byte v.revision),
    ("year", .nat v.year.toNat), ("month", .byte v.month), ("day", .byte v.day)]

/-- A version answer as JSON. -/
def DspVersion.toJson (v : DspVersion) : Json :=
  .object [("hardware", v.hardware.toJson), ("firmware", v.firmware.toJson),
    ("eeprom_code1", .word v.eepromCode₁), ("eeprom_code2", .word v.eepromCode₂)]

namespace DiscoveredModule

variable (m : DiscoveredModule)

/-- A module found as JSON. -/
def toJson : Json :=
  .object [("hardware_id", .str m.hardwareId.text),
    ("module_type", .byte m.moduleType.toByte),
    ("parent", Json.ofOption (fun p => .str p.text) m.parent),
    ("version", Json.ofOption DspVersion.toJson m.version)]

/-- A module found on a line. -/
def line : String :=
  Text.padRight 16 m.hardwareId.text ++ " " ++ Text.padRight 8 m.moduleType.name ++
    " parent=" ++ (m.parent.map (·.text)).getD "-" ++
    match m.version with
    | some v => " firmware=" ++ v.firmware.date
    | none => ""

end DiscoveredModule

/-- What became of a command, as JSON. -/
def Outcome.toJson : Outcome → Json
  | .response command action =>
    .object [("response", .str command.name), ("action", Json.ofOption (.str ·.name) action)]
  | .timeout command => .object [("timeout", .str command.name)]

/-- Result of a verification. -/
structure VerifyReport where
  /-- Name of the module. -/
  name : String
  /-- Address of the module. -/
  hardwareId : HardwareId
  /-- How far the verification got. -/
  state : VerifyState
  /-- The version answered. -/
  version : Option DspVersion
  deriving DecidableEq, Repr

namespace VerifyReport

variable (r : VerifyReport)

/-- The result as JSON. -/
def toJson : Json :=
  .object [("name", .str r.name), ("hardware_id", .str r.hardwareId.text),
    ("state", .str r.state.name), ("version", Json.ofOption DspVersion.toJson r.version)]

/-- The result on a line. -/
def line : String :=
  Text.padRight 12 r.name ++ " " ++ Text.padRight 16 r.hardwareId.text ++ " " ++ r.state.title ++
    match r.version with
    | some v =>
      s!" firmware {v.firmware.version.toNat}.{v.firmware.revision.toNat} {v.firmware.date}"
    | none => ""

end VerifyReport

/-! ## Registers -/

/-- A register word. -/
structure RegisterValue where
  /-- Byte offset in its window. -/
  offset : Nat
  /-- Content. -/
  value : UInt32
  deriving DecidableEq, Repr

namespace RegisterValue

/-- Words with their offsets. An offset past the last one of 32 bits is not shown. -/
def sequence (offset : Nat) : List UInt32 → List RegisterValue
  | [] => []
  | w :: ws => if offset < Numeral.wordBound then ⟨offset, w⟩ :: sequence (offset + 4) ws else []

/-- The word as JSON. -/
def toJson (r : RegisterValue) : Json := .object [("offset", .nat r.offset), ("value", .word r.value)]

/-- The word on a line. -/
def line (bar : Nat) (r : RegisterValue) : String :=
  s!"BAR{bar} {Numeral.marked 8 r.offset}: {Numeral.marked 8 r.value.toNat}"

end RegisterValue

end DetectorLink
