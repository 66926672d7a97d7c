import DetectorLink.Bytes
import DetectorLink.Packet.Lvds
import DetectorLink.Packet.Rtdl

/-!
# Packets

A packet is a header of six words followed by its payload. Received packets are read in place: a
`Packet` holds the header and every byte after it, of which only the declared payload belongs to
the packet. The accessors clamp to the bytes that are there.
-/

namespace DetectorLink

/-- The six words in front of every payload. -/
structure Header where
  /-- Destination id. -/
  destination : UInt32
  /-- Sender as written by the last relay. -/
  source : UInt32
  /-- Info word. -/
  info : UInt32
  /-- Declared number of payload bytes. -/
  payloadLength : UInt32
  /-- Unused. -/
  reserved₀ : UInt32
  /-- Unused. -/
  reserved₁ : UInt32
  deriving DecidableEq, Repr

namespace Header

/-- Number of header bytes. -/
def byteCount : Nat := 24

/-- The header words in order. -/
def words (h : Header) : List UInt32 :=
  [h.destination, h.source, h.info, h.payloadLength, h.reserved₀, h.reserved₁]

/-- The header bytes. -/
def toBytes (h : Header) : Bytes := Word.toByteList h.words

@[simp] theorem length_toBytes (h : Header) : h.toBytes.length = byteCount := by
  simp [toBytes, words, byteCount]

/-- The header made of exactly six words. -/
def ofWords? : List UInt32 → Option Header
  | [destination, source, info, payloadLength, reserved₀, reserved₁] =>
    some ⟨destination, source, info, payloadLength, reserved₀, reserved₁⟩
  | _ => none

@[simp] theorem ofWords?_words (h : Header) : ofWords? h.words = some h := rfl

/-- The header at the start of `b`. -/
def ofBytes? (b : Bytes) : Option Header := ofWords? (Word.ofByteList (b.take byteCount))

end Header

/-- A packet with the bytes that follow its header. -/
structure Packet where
  /-- The header. -/
  header : Header
  /-- Payload, and whatever lies behind it in a receive window. -/
  rest : Bytes
  deriving DecidableEq, Repr

namespace Packet

/-- Shortest packet: a bare header. -/
def minLength : Nat := Header.byteCount

/-- Longest packet: a header and 1800 events. -/
def maxLength : Nat := 1800 * 8 + Header.byteCount

/-- Info word of pulse information that travels as data. -/
def rtdlDataInfo : UInt32 := 0x200000FF

/-- The packet that starts at `b`, if a whole header is there. -/
def parse (b : Bytes) : Except CodecError Packet :=
  match Header.ofBytes? b with
  | some header => .ok ⟨header, b.drop Header.byteCount⟩
  | none => .error (.truncated Header.byteCount b.length)

variable (p : Packet)

/-- Every byte from the header on. -/
def window : Bytes := p.header.toBytes ++ p.rest

/-- The decoded info word. -/
def info : Info := .ofRaw p.header.info

/-- The command word of a command packet. -/
def commandInfo? : Option CommandInfo := p.info.command?

/-- The data word of a data packet. -/
def dataInfo? : Option DataInfo := p.info.data?

/-- True if the packet is a command with every flag of `mask`. -/
def hasFlag (mask : UInt32) : Bool := p.commandInfo?.any (·.has mask)

/-- Command, response or pass-through packet. -/
def isCommand : Bool := p.commandInfo?.isSome

/-- Data packet. -/
def isData : Bool := !p.isCommand

/-- Answer to a previous command. -/
def isResponse : Bool := p.hasFlag CommandFlag.isResponse

/-- Relayed by an aggregator for a submodule. -/
def isPassthru : Bool := p.hasFlag CommandFlag.isPassthru

/-- Length in bytes that the header declares. -/
def declaredLength : Nat := Header.byteCount + p.header.payloadLength.toNat

/-- Unit of the packet's length: two bytes for an outgoing pass-through command, else four. -/
def lengthUnit : Nat := if p.isCommand && p.isPassthru && !p.isResponse then 2 else 4

/-- Length in bytes, 0 if the declared length breaks the alignment rules. -/
def length : Nat := if p.declaredLength % p.lengthUnit = 0 then p.declaredLength else 0

/-- True if the declared length keeps the alignment rules. -/
def isValid : Bool := 0 < p.length

/-- The packet's own bytes, as far as they are there. -/
def bytes : Bytes := p.header.toBytes ++ p.rest.take (p.length - Header.byteCount)

/-- Command code of a command packet. -/
def command? : Option Command := p.commandInfo?.map (·.command)

/-- Flagged as corrupt by the link adapter. -/
def isBad : Bool := p.command? == some .badPacket

/-- Data packet that holds neutron events only. -/
def isNeutronData : Bool :=
  p.dataInfo?.any fun d => d.has DataFlag.onlyNeutronData && d.formatCode == 0

/-- Data packet that holds metadata events. -/
def isMetaData : Bool :=
  p.dataInfo?.any fun d => !d.has DataFlag.onlyNeutronData && d.formatCode == 0

/-- Pulse information, as a command or carried as data. -/
def isRtdl : Bool :=
  match p.info with
  | .command c => c.command == .rtdl
  | .data d => d.raw == rtdlDataInfo

/-- Module type that a response reports. -/
def moduleType? : Option ModuleType :=
  (p.commandInfo?.filter (·.has CommandFlag.isResponse)).map (·.moduleType)

/-- The declared payload, as far as it is there. -/
def rawPayload : Bytes := p.rest.take p.header.payloadLength.toNat

/-- The command that a response answers. An acknowledgement names it in its first payload word, a
relayed one in the second. -/
def responseType? : Option Command := do
  let c ← p.commandInfo?
  if !c.has CommandFlag.isResponse then none
  else match c.command with
    | .ack | .nack =>
      let index := if p.isPassthru then 1 else 0
      (Word.get? p.rawPayload index).map fun w => .ofByte w.toUInt8
    | other => some other

/-- Id of the module that the packet comes from. -/
def sourceAddress : UInt32 :=
  if p.isPassthru then (Word.get? p.rawPayload 0).getD 0 else p.header.source

/-- Id of the relaying aggregator, 0 if there is none. -/
def routerAddress : UInt32 := if p.isPassthru then p.header.source else 0

/-- Number of payload bytes that only serve relaying. -/
def payloadSkip : Nat :=
  match p.commandInfo? with
  | some c =>
    if c.has CommandFlag.isPassthru then
      match c.command with
      | .ack | .nack => 8
      | _ => 4
    else 0
  | none => 0

/-- The module's payload, without the words that serve relaying. -/
def payload : Bytes := p.rawPayload.drop p.payloadSkip

/-- True if a pulse header starts the payload. -/
def hasRtdl : Bool :=
  match p.info with
  | .command c => c.command == .rtdl
  | .data d => d.has DataFlag.rtdlPresent

/-- The pulse header, if there is a complete one. -/
def rtdlHeader? : Option RtdlHeader :=
  if p.hasRtdl then
    RtdlHeader.ofList? (Word.ofByteList (p.rawPayload.take RtdlHeader.byteCount))
  else none

/-- Event bytes after the optional pulse header. -/
def data : Bytes :=
  match p.dataInfo? with
  | none => []
  | some d => if d.has DataFlag.rtdlPresent then p.rawPayload.drop RtdlHeader.byteCount
      else p.rawPayload

/-- Neutron events. -/
def events : List NeutronEvent := NeutronEvent.ofWords (Word.ofByteList p.data)

/-- The framed command that the packet carries. -/
def decodeLvds (addressing : Lvds.Addressing) : Except CodecError Lvds.Decoded :=
  Lvds.decode p.header.info (Word.ofByteList p.rawPayload) addressing

end Packet

end DetectorLink
