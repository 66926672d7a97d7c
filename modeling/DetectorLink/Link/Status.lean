import DetectorLink.Bytes
import DetectorLink.Link.Kind

/-!
# Board status

The driver describes its board in a block of 22 words. `BoardStatus` is the same information in
engineering units; the simulated links report a fixed description of themselves.
-/

namespace DetectorLink

/-! ## Bits of the status word -/

namespace StatusFlag

/-- No signal on the optical link. -/
def opticalNoSignal : UInt32 := 0x001
/-- The optical transceiver is present. -/
def opticalPresent : UInt32 := 0x002
/-- The board runs in optical mode. -/
def modeOptical : UInt32 := 0x004
/-- A reset happened since the last status read. -/
def resetOccurred : UInt32 := 0x008
/-- Reception stalled because the receive region is full. -/
def dmaStalled : UInt32 := 0x010
/-- A message waits in the receive queue. -/
def rxMessage : UInt32 := 0x020
/-- Reception is on. -/
def rxEnabled : UInt32 := 0x040
/-- Packets with link errors are received too. -/
def errorPackets : UInt32 := 0x080
/-- The incoming queue overflowed. -/
def fifoOverflow : UInt32 := 0x100
/-- The optical transceiver failed. -/
def opticalFault : UInt32 := 0x200

/-- True if every bit of `mask` is set. -/
def has (flags mask : UInt32) : Bool := flags &&& mask == mask

end StatusFlag

/-- Model of a board. -/
inductive BoardType where
  /-- PCI-X board. -/
  | snsPcix
  /-- PCI Express board. -/
  | snsPcie
  /-- Variant of the PCI Express board. -/
  | gePcie
  /-- Simulated link. -/
  | simulator
  /-- Board number without a name. -/
  | unknown (code : UInt32)
  deriving DecidableEq, Repr

/-- The model of a board number. -/
def BoardType.ofCode (code : UInt32) : BoardType :=
  if code = 1 then .snsPcix else if code = 2 then .snsPcie else if code = 3 then .gePcie
  else .unknown code

/-- Name in JSON of a board with a name. -/
def BoardType.name? : BoardType → Option String
  | .snsPcix => some "sns_pcix"
  | .snsPcie => some "sns_pcie"
  | .gePcie => some "ge_pcie"
  | .simulator => some "simulator"
  | .unknown _ => none

/-- Name of a board in reports. -/
def BoardType.title : BoardType → String
  | .snsPcix => "SnsPcix"
  | .snsPcie => "SnsPcie"
  | .gePcie => "GePcie"
  | .simulator => "Simulator"
  | .unknown code => s!"Unknown({code.toNat})"

/-- Description of a board as its driver gives it. -/
structure StatusBlock where
  /-- Version of the block's layout. -/
  layout : UInt32
  /-- Board number. -/
  boardType : UInt32
  /-- Hardware revision. -/
  hardwareVersion : UInt32
  /-- Firmware revision. -/
  firmwareVersion : UInt32
  /-- Date of the firmware. -/
  firmwareDate : UInt32
  /-- Low word of the serial number. -/
  serialLow : UInt32
  /-- High word of the serial number. -/
  serialHigh : UInt32
  /-- Status bits. -/
  flags : UInt32
  /-- Size of the receive region. -/
  regionSize : UInt32
  /-- Bytes waiting in the receive region. -/
  regionUsed : UInt32
  /-- Receive rate in bytes per second. -/
  rxRate : UInt32
  /-- Size of the first register window. -/
  bar₀ : UInt32
  /-- Size of the second register window. -/
  bar₁ : UInt32
  /-- Size of the third register window. -/
  bar₂ : UInt32
  /-- Checksum errors. -/
  errCrc : UInt32
  /-- Length errors. -/
  errLength : UInt32
  /-- Frame errors. -/
  errFrame : UInt32
  /-- Raw temperature. -/
  temperature : UInt32
  /-- Raw core voltage. -/
  coreVoltage : UInt32
  /-- Raw auxiliary voltage. -/
  auxVoltage : UInt32
  deriving DecidableEq, Repr

namespace StatusBlock

/-- Layout version that is understood. -/
def supportedLayout : UInt32 := 1

/-- Number of bytes of a block. -/
def byteCount : Nat := 88

/-- The block as words; the words after the date and at the end are padding. -/
def words (b : StatusBlock) : List UInt32 :=
  [b.layout, b.boardType, b.hardwareVersion, b.firmwareVersion, b.firmwareDate, 0, b.serialLow,
    b.serialHigh, b.flags, b.regionSize, b.regionUsed, b.rxRate, b.bar₀, b.bar₁, b.bar₂, b.errCrc,
    b.errLength, b.errFrame, b.temperature, b.coreVoltage, b.auxVoltage, 0]

/-- The block made of 22 words. -/
def ofWords? : List UInt32 → Option StatusBlock
  | [layout, boardType, hardwareVersion, firmwareVersion, firmwareDate, _, serialLow, serialHigh,
      flags, regionSize, regionUsed, rxRate, bar₀, bar₁, bar₂, errCrc, errLength, errFrame,
      temperature, coreVoltage, auxVoltage, _] =>
    some ⟨layout, boardType, hardwareVersion, firmwareVersion, firmwareDate, serialLow,
      serialHigh, flags, regionSize, regionUsed, rxRate, bar₀, bar₁, bar₂, errCrc, errLength,
      errFrame, temperature, coreVoltage, auxVoltage⟩
  | _ => none

/-- A block survives being written and read. -/
@[simp] theorem ofWords?_words (b : StatusBlock) : ofWords? b.words = some b := rfl

/-- Size of a register window. -/
def bar (b : StatusBlock) : Nat → UInt32
  | 0 => b.bar₀
  | 1 => b.bar₁
  | 2 => b.bar₂
  | _ => 0

/-- Serial number. -/
def serial (b : StatusBlock) : UInt64 := b.serialHigh.toUInt64 <<< 32 ||| b.serialLow.toUInt64

end StatusBlock

/-- Degrees Celsius of a raw temperature. -/
def temperatureOfRaw (raw : UInt32) : Float := (503.975 / 65536.0) * raw.toFloat - 273.15

/-- Volts of a raw voltage. -/
def voltageOfRaw (raw : UInt32) : Float := (3.0 / 65536.0) * raw.toFloat

/-- State of a board in engineering units. -/
structure BoardStatus where
  /-- Model of the board. -/
  board : BoardType
  /-- Active interface. -/
  interface : Interface
  /-- Hardware revision. -/
  hardwareVersion : UInt32
  /-- Firmware revision. -/
  firmwareVersion : UInt32
  /-- Date of the firmware. -/
  firmwareDate : UInt32
  /-- Serial number. -/
  serial : UInt64
  /-- Reception is on. -/
  rxEnabled : Bool
  /-- Packets with link errors are received too. -/
  errorPackets : Bool
  /-- Reception stalled. -/
  stalled : Bool
  /-- The incoming queue overflowed. -/
  overflowed : Bool
  /-- There is an optical signal. -/
  opticalSignal : Bool
  /-- The optical transceiver is present. -/
  opticalPresent : Bool
  /-- The optical transceiver failed. -/
  opticalFault : Bool
  /-- Size of the receive region. -/
  regionSize : Nat
  /-- Bytes waiting in the receive region. -/
  regionUsed : Nat
  /-- Receive rate in bytes per second. -/
  rxRate : UInt32
  /-- Sizes of the register windows. -/
  bars : List UInt32
  /-- Checksum errors. -/
  errCrc : UInt32
  /-- Length errors. -/
  errLength : UInt32
  /-- Frame errors. -/
  errFrame : UInt32
  /-- Temperature in degrees Celsius. -/
  temperature : Float
  /-- Core voltage. -/
  coreVoltage : Float
  /-- Auxiliary voltage. -/
  auxVoltage : Float

namespace BoardStatus

/-- The status that a driver's block describes. -/
def ofBlock (b : StatusBlock) : BoardStatus where
  board := .ofCode b.boardType
  interface := if StatusFlag.has b.flags StatusFlag.modeOptical then .optical else .lvds
  hardwareVersion := b.hardwareVersion
  firmwareVersion := b.firmwareVersion
  firmwareDate := b.firmwareDate
  serial := b.serial
  rxEnabled := StatusFlag.has b.flags StatusFlag.rxEnabled
  errorPackets := StatusFlag.has b.flags StatusFlag.errorPackets
  stalled := StatusFlag.has b.flags StatusFlag.dmaStalled
  overflowed := StatusFlag.has b.flags StatusFlag.fifoOverflow
  opticalSignal := !StatusFlag.has b.flags StatusFlag.opticalNoSignal
  opticalPresent := StatusFlag.has b.flags StatusFlag.opticalPresent
  opticalFault := StatusFlag.has b.flags StatusFlag.opticalFault
  regionSize := b.regionSize.toNat
  regionUsed := b.regionUsed.toNat
  rxRate := b.rxRate
  bars := [b.bar₀, b.bar₁, b.bar₂]
  errCrc := b.errCrc
  errLength := b.errLength
  errFrame := b.errFrame
  temperature := temperatureOfRaw b.temperature
  coreVoltage := voltageOfRaw b.coreVoltage
  auxVoltage := voltageOfRaw b.auxVoltage

/-- Firmware revision that the simulated links report. -/
def simulatorFirmware : UInt32 := 0x000F0001

/-- The status of a simulated link with `used` of `size` buffer bytes filled. -/
def simulated (interface : Interface) (rxEnabled : Bool) (size used : Nat) : BoardStatus where
  board := .simulator
  interface := interface
  hardwareVersion := 0
  firmwareVersion := simulatorFirmware
  firmwareDate := 0
  serial := 0
  rxEnabled := rxEnabled
  errorPackets := false
  stalled := false
  overflowed := false
  opticalSignal := true
  opticalPresent := true
  opticalFault := false
  regionSize := size
  regionUsed := used
  rxRate := 0
  bars := [0, 0, 0]
  errCrc := 0
  errLength := 0
  errFrame := 0
  temperature := 0.0
  coreVoltage := 0.0
  auxVoltage := 0.0

end BoardStatus

end DetectorLink
