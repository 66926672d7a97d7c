import DetectorLink.Packet.Basic
import DetectorLink.Text.Column
import DetectorLink.Text.Json

/-!
# Packet records

What a dump shows of a packet, on a line of text or as JSON.
-/

namespace DetectorLink

/-- Kind of a packet in a dump. -/
inductive PacketKind where
  | bad
  | command
  | rtdl
  | neutron
  | metadata
  | data
  deriving DecidableEq, Repr

/-- Name of a kind. -/
def PacketKind.name : PacketKind → String
  | .bad => "bad"
  | .command => "command"
  | .rtdl => "rtdl"
  | .neutron => "neutron"
  | .metadata => "meta"
  | .data => "data"

/-- The first kind that a packet is of. -/
def PacketKind.ofPacket (p : Packet) : PacketKind :=
  if p.isBad then .bad
  else if p.isCommand then .command
  else if p.isRtdl then .rtdl
  else if p.isNeutronData then .neutron
  else if p.isMetaData then .metadata
  else .data

/-- What a dump shows of a packet. -/
structure PacketRecord where
  /-- Kind of the packet. -/
  kind : PacketKind
  /-- Sender as written by the last relay. -/
  source : HardwareId
  /-- Destination. -/
  destination : UInt32
  /-- Length in bytes. -/
  length : Nat
  /-- Command of a command packet. -/
  command : Option Command
  /-- The packet answers a command. -/
  response : Bool
  /-- Number of payload bytes. -/
  payloadLength : Nat
  deriving DecidableEq, Repr

namespace PacketRecord

/-- The record of a packet. -/
def ofPacket (p : Packet) : PacketRecord where
  kind := .ofPacket p
  source := ⟨p.header.source⟩
  destination := p.header.destination
  length := p.length
  command := p.command?
  response := p.isResponse
  payloadLength := p.payload.length

/-- The record on a line. -/
def line (r : PacketRecord) : String :=
  let head := Text.padRight 7 r.kind.name ++ " src=" ++ r.source.text ++
    " dst=" ++ Numeral.marked 8 r.destination.toNat ++ " len=" ++ toString r.length
  match r.command with
  | none => head
  | some c => head ++ " cmd=" ++ c.name ++ if r.response then " (response)" else ""

/-- The record as JSON. -/
def toJson (r : PacketRecord) : Json :=
  .object [("kind", .str r.kind.name), ("source", .str r.source.text),
    ("destination", .word r.destination), ("length", .nat r.length),
    ("command", Json.ofOption (fun c => .str c.name) r.command), ("response", .bool r.response),
    ("payload_length", .nat r.payloadLength)]

end PacketRecord

end DetectorLink
