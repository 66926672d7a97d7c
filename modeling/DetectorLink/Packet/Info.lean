import DetectorLink.Command
import DetectorLink.ModuleType

/-!
# The info word

The third header word says what a packet is. Bit 31 selects between a command word (command code,
selector byte, flags) and a data word (sequencing flags, payload format). Unknown codes and
reserved flag bits are kept, so that decoding loses nothing.
-/

namespace DetectorLink

/-! ## Flag bits of a command word, in place -/

namespace CommandFlag

/-- Parity bit of a framed header. -/
def lvdsParity : UInt32 := 0x00010000
/-- Set on the last word of a framed command. -/
def lvdsStop : UInt32 := 0x00020000
/-- Set on the first word of a framed command. -/
def lvdsStart : UInt32 := 0x00040000
/-- Command rather than data on the framed link. -/
def lvdsCommand : UInt32 := 0x00080000
/-- Chained command. -/
def isChain : UInt32 := 0x10000000
/-- The packet answers a previous command. -/
def isResponse : UInt32 := 0x20000000
/-- The packet is relayed for a submodule. -/
def isPassthru : UInt32 := 0x40000000
/-- The packet is a command rather than data. -/
def isCommand : UInt32 := 0x80000000
/-- All bits that hold flags. -/
def all : UInt32 := 0xFFFF0000

end CommandFlag

/-! ## Flag bits of a data word, in place -/

namespace DataFlag

/-- First packet of a train. -/
def subpacketStart : UInt32 := 0x00000001
/-- Last packet of a train. -/
def subpacketEnd : UInt32 := 0x00000002
/-- The payload holds neutron events only. -/
def onlyNeutronData : UInt32 := 0x00000004
/-- A pulse header comes before the events. -/
def rtdlPresent : UInt32 := 0x00000008
/-- Last packet of all. -/
def lastSubpacket : UInt32 := 0x10000000
/-- Vetoed packet. -/
def veto : UInt32 := 0x40000000

end DataFlag

/-- True if `flags` has every bit of `mask`. -/
def hasFlags (flags mask : UInt32) : Bool := flags &&& mask == mask

/-- A decoded command word. -/
structure CommandInfo where
  /-- Command code. -/
  command : Command
  /-- Second byte: module type of a response, channel of a request. -/
  selector : UInt8
  /-- Role and framing flags, in place. -/
  flags : UInt32
  deriving DecidableEq, Repr

namespace CommandInfo

/-- Bit of the selector that marks a single channel. -/
def channelMark : UInt8 := 0x10

/-- Bits of the selector that hold the channel. -/
def channelMask : UInt8 := 0x0F

/-- Info of an outgoing command. -/
def request (command : Command) : CommandInfo := ⟨command, 0, CommandFlag.isCommand⟩

/-- Module type that a response reports. -/
def moduleType (info : CommandInfo) : ModuleType := .ofByte info.selector

/-- Channel counted from zero, if a single one is addressed. -/
def channel? (info : CommandInfo) : Option UInt8 :=
  if info.selector &&& channelMark != 0 then some (info.selector &&& channelMask) else none

/-- Address one channel, counted from one; zero addresses the whole module. -/
def withChannel (info : CommandInfo) (channel : UInt8) : CommandInfo :=
  { info with
    selector := if channel = 0 then 0 else ((channel - 1) &&& channelMask) ||| channelMark }

/-- The command word `raw`, if it is one. -/
def ofRaw? (raw : UInt32) : Option CommandInfo :=
  if raw &&& CommandFlag.isCommand != 0 then
    some ⟨.ofByte raw.toUInt8, (raw >>> 8).toUInt8, raw &&& CommandFlag.all⟩
  else none

/-- The info word. -/
def toRaw (info : CommandInfo) : UInt32 :=
  info.command.toByte.toUInt32 ||| (info.selector.toUInt32 <<< 8) ||| info.flags

/-- True if every flag of `mask` is set. -/
def has (info : CommandInfo) (mask : UInt32) : Bool := hasFlags info.flags mask

/-- Set the flags of `mask`. -/
def set (info : CommandInfo) (mask : UInt32) : CommandInfo :=
  { info with flags := info.flags ||| mask }

/-- Clear the flags of `mask`. -/
def clear (info : CommandInfo) (mask : UInt32) : CommandInfo :=
  { info with flags := info.flags &&& ~~~mask }

end CommandInfo

/-- A data word. -/
structure DataInfo where
  /-- The word itself. -/
  raw : UInt32
  deriving DecidableEq, Repr

namespace DataInfo

/-- Payload format, 0 for events. -/
def formatCode (info : DataInfo) : UInt32 := (info.raw >>> 5) &&& 0x7

/-- Position within a train. -/
def subpacketCount (info : DataInfo) : UInt32 := (info.raw >>> 8) &&& 0xFFFF

/-- True if every flag of `mask` is set. -/
def has (info : DataInfo) (mask : UInt32) : Bool := hasFlags info.raw mask

end DataInfo

/-- A decoded info word. -/
inductive Info where
  /-- Command, response or pass-through packet. -/
  | command (info : CommandInfo)
  /-- Event or metadata packet. -/
  | data (info : DataInfo)
  deriving DecidableEq, Repr

namespace Info

/-- Decode an info word. -/
def ofRaw (raw : UInt32) : Info :=
  match CommandInfo.ofRaw? raw with
  | some info => .command info
  | none => .data ⟨raw⟩

/-- The info word. -/
def toRaw : Info → UInt32
  | .command info => info.toRaw
  | .data info => info.raw

/-- The command word, if it is one. -/
def command? : Info → Option CommandInfo
  | .command info => some info
  | .data _ => none

/-- The data word, if it is one. -/
def data? : Info → Option DataInfo
  | .data info => some info
  | .command _ => none

end Info

end DetectorLink
