import DetectorLink.Module.ConfigTable
import DetectorLink.Module.Response
import DetectorLink.Module.StatusTable

/-!
# Detector signal processors

The version answer, the status and configuration fields of a detector signal processor, and how its
answers bear on its verification.
-/

namespace DetectorLink

/-- Version and date of a component. -/
structure ComponentVersion where
  /-- Version. -/
  version : UInt8
  /-- Revision. -/
  revision : UInt8
  /-- Year of the date. -/
  year : UInt16
  /-- Month of the date. -/
  month : UInt8
  /-- Day of the date. -/
  day : UInt8
  deriving DecidableEq, Repr

namespace ComponentVersion

/-- Value of a byte whose halves are decimal digits; greater halves count as they are. -/
def digits (word : UInt32) : UInt32 :=
  let byte := word &&& 0xFF
  byte / 16 * 10 + byte % 16

/-- The version in a word: day, month and year from the lowest byte on, then revision and version
in four bits each. -/
def ofWord (word : UInt32) : ComponentVersion where
  day := (digits word).toUInt8
  month := (digits (word >>> 8)).toUInt8
  year := (digits (word >>> 16) + 2000).toUInt16
  revision := ((word >>> 24) &&& 0xF).toUInt8
  version := ((word >>> 28) &&& 0xF).toUInt8

/-- Text of the date. -/
def date (v : ComponentVersion) : String := s!"{v.year.toNat}/{v.month.toNat}/{v.day.toNat}"

end ComponentVersion

/-- Answer to a version request. -/
structure DspVersion where
  /-- Version of the board. -/
  hardware : ComponentVersion
  /-- Version of the firmware. -/
  firmware : ComponentVersion
  /-- First identification word. -/
  eepromCode₁ : UInt32
  /-- Second identification word. -/
  eepromCode₂ : UInt32
  deriving DecidableEq, Repr

/-- The version in a payload of exactly four words. -/
def DspVersion.parse? (payload : Bytes) : Option DspVersion :=
  if payload.length ≠ 16 then none
  else match Word.ofByteList payload with
    | [hardware, firmware, code₁, code₂] =>
      some ⟨.ofWord hardware, .ofWord firmware, code₁, code₂⟩
    | _ => none

namespace Dsp

/-- Status fields. -/
def statusTable : StatusTable := ⟨[
  ⟨"Configured", ⟨0x0, 1, 0⟩⟩,
  ⟨"AcquireStat", ⟨0x0, 1, 1⟩⟩,
  ⟨"ProgramErr", ⟨0x0, 1, 2⟩⟩,
  ⟨"PktLenErr", ⟨0x0, 1, 3⟩⟩,
  ⟨"UnknwnCmdErr", ⟨0x0, 1, 4⟩⟩,
  ⟨"LvdsTxFifFul", ⟨0x0, 1, 5⟩⟩,
  ⟨"LvdsCmdErr", ⟨0x0, 1, 6⟩⟩,
  ⟨"EepromInitOk", ⟨0x0, 1, 7⟩⟩,
  ⟨"FoTransStatA", ⟨0x0, 5, 16⟩⟩,
  ⟨"FoTransOutA", ⟨0x0, 2, 22⟩⟩,
  ⟨"FoTransStatB", ⟨0x0, 5, 24⟩⟩,
  ⟨"FoTransOutB", ⟨0x0, 2, 30⟩⟩,
  ⟨"RxNumErrsA", ⟨0x1, 8, 0⟩⟩,
  ⟨"RxErrFlagsA", ⟨0x1, 13, 8⟩⟩,
  ⟨"RxGoodPacketA", ⟨0x1, 1, 21⟩⟩]⟩

/-- A configuration field with its default. -/
def parameter (name : String) (label : Char) (offset width shift : Nat) (default : UInt32) :
    ConfigParameter := ⟨name, label, ⟨offset, width, shift⟩, default⟩

/-- Configuration fields, no other value set. -/
def configTable : ConfigTable := ⟨[
  parameter "PixIdOffset" 'B' 0x0 32 0 0,
  parameter "Chop0Delay" 'C' 0x0 32 0 0,
  parameter "Chop1Delay" 'C' 0x1 32 0 0,
  parameter "Chop0Freq" 'C' 0x8 4 0 0,
  parameter "Chop1Freq" 'C' 0x8 4 4 0,
  parameter "ChopDutyCycl" 'C' 0x9 32 0 83400,
  parameter "ChopMaxPerio" 'C' 0xA 32 0 166800,
  parameter "ChopFixedOff" 'C' 0xB 32 0 0,
  parameter "ChopRtdlFr6" 'C' 0xC 8 0 4,
  parameter "ChopRtdlFr7" 'C' 0xC 8 8 5,
  parameter "ChopTrefTrig" 'C' 0x13 2 0 1,
  parameter "ChopTrefFreq" 'C' 0x13 4 2 0,
  parameter "ChopSweepEn" 'C' 0x13 1 31 0,
  parameter "STsyncDelMax" 'C' 0x14 32 0 0], []⟩

end Dsp

/-- What is known of a detector signal processor from its answers. -/
structure DspHandler where
  /-- Status fields. -/
  status : StatusTable
  /-- Configuration. -/
  config : ConfigTable
  /-- The only firmware version and revision accepted, if not all are. -/
  expectedFirmware : Option (UInt8 × UInt8)
  /-- Last version answered. -/
  version : Option DspVersion
  /-- Values of the last status answer. -/
  values : List (String × UInt32)

namespace DspHandler

/-- Nothing known, every firmware accepted. -/
def fresh : DspHandler := ⟨Dsp.statusTable, Dsp.configTable, none, none, []⟩

/-- Accept one firmware version and revision only. -/
def expecting (h : DspHandler) (version revision : UInt8) : DspHandler :=
  { h with expectedFirmware := some (version, revision) }

/-- True if a firmware is accepted. -/
def accepts (h : DspHandler) (firmware : ComponentVersion) : Bool :=
  match h.expectedFirmware with
  | some (version, revision) => firmware.version == version && firmware.revision == revision
  | none => true

/-- What a version answer means. A payload that is no version leaves the last one in place. -/
def checkVersion (h : DspHandler) (payload : Bytes) : VerifyAction × DspHandler :=
  match DspVersion.parse? payload with
  | none => (.versionErr, h)
  | some v =>
    (if h.accepts v.firmware then .versionOk else .versionErr, { h with version := some v })

/-- What an answer to `command` means. A refusal means nothing. -/
def respond (command : Command) (packet : Packet) (h : DspHandler) :
    Option VerifyAction × DspHandler :=
  if packet.command? == some .nack then (none, h)
  else match command with
    | .discover =>
      (some (if packet.moduleType?.any (·.isDsp) then .discoverOk else .discoverErr), h)
    | .readVersion => let (action, h) := h.checkVersion packet.payload; (some action, h)
    | .readStatus => (none, { h with values := h.status.extract packet.payload })
    | _ => (none, h)

instance : ResponseHandler DspHandler := ⟨respond⟩

end DspHandler

end DetectorLink
