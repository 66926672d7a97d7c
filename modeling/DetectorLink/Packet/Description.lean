import DetectorLink.Packet.Basic
import DetectorLink.Text.Json

/-!
# Descriptions of packets

Everything that is known of a packet, as JSON, for logs and for looking at what a link delivers. How
payload bytes are shown is left to the reader.
-/

namespace DetectorLink

/-- The fields of a command word. -/
def CommandInfo.entries (i : CommandInfo) : List (String × Json) :=
  [("command", .str i.command.name), ("selector", .byte i.selector), ("flags", .word i.flags),
    ("module_type", .str i.moduleType.name), ("channel", Json.ofOption .byte i.channel?),
    ("raw", .word i.toRaw)]

/-- An info word as JSON. -/
def Info.toJson : Info → Json
  | .command i => .object (("kind", .str "command") :: i.entries)
  | .data i =>
    .object [("kind", .str "data"), ("flags", .word i.raw), ("format_code", .word i.formatCode),
      ("subpacket_count", .word i.subpacketCount), ("raw", .word i.raw)]

/-- A command recovered from its frames, as JSON. -/
def Lvds.Decoded.toJson (d : Lvds.Decoded) : Json :=
  .object [("info", .object d.info.entries), ("destination", .word d.destination),
    ("words", .array (d.words.map .word))]

/-- A pulse flavor as JSON. -/
def PulseFlavor.toJson (f : PulseFlavor) : Json :=
  match f, f.name? with
  | _, some name => .str name
  | .unknown code, none => .object [("unknown", .byte code)]
  | _, none => .null

/-- The description of a pulse as JSON. The time in nanoseconds may exceed what a number holds, so
it is a text. -/
def RtdlHeader.toJson (h : RtdlHeader) : Json :=
  .object [("timestamp_sec", .word h.seconds), ("timestamp_nsec", .word h.nanoseconds),
    ("timestamp_ns", .str (toString h.timestamp.toNat)), ("charge", .word h.charge),
    ("flavor", h.flavor.toJson), ("bad_flavor_frame", .bool h.badFlavorFrame),
    ("cycle", .word h.cycle), ("last_cycle_veto", .word h.lastCycleVeto), ("tstat", .word h.tstat),
    ("bad_cycle_frame", .bool h.badCycleFrame), ("bad_veto_frame", .bool h.badVetoFrame),
    ("tsync_period", .word h.tsyncPeriod), ("tof_fixed_offset", .word h.tofFixedOffset),
    ("frame_offset", .word h.frameOffset), ("tof_full_offset", .bool h.tofFullOffset)]

/-- A neutron event as JSON. -/
def NeutronEvent.toJson (e : NeutronEvent) : Json := .array [.word e.tof, .word e.pixelId]

namespace Packet

/-- Events that a description shows. -/
def shownEvents : Nat := 64

/-- The packet as JSON, with bytes shown by `bytes`. -/
def toJson (bytes : Bytes → Json) (p : Packet) : Json :=
  .object [("destination", .word p.header.destination), ("source", .word p.header.source),
    ("raw_info", .word p.header.info), ("info", p.info.toJson),
    ("raw_payload_length", .word p.header.payloadLength),
    ("reserved", .array [.word p.header.reserved₀, .word p.header.reserved₁]),
    ("length", .nat p.length), ("is_valid", .bool p.isValid),
    ("bytes_length", .nat p.bytes.length), ("is_command", .bool p.isCommand),
    ("is_data", .bool p.isData), ("is_response", .bool p.isResponse),
    ("is_passthru", .bool p.isPassthru), ("is_bad", .bool p.isBad),
    ("is_neutron_data", .bool p.isNeutronData), ("is_meta_data", .bool p.isMetaData),
    ("is_rtdl", .bool p.isRtdl), ("command", Json.ofOption (.str ·.name) p.command?),
    ("module_type", Json.ofOption (.str ·.name) p.moduleType?),
    ("response_type", Json.ofOption (.str ·.name) p.responseType?),
    ("source_address", .word p.sourceAddress), ("router_address", .word p.routerAddress),
    ("payload", bytes p.payload), ("payload_length", .nat p.payload.length),
    ("payload_words", .nat (Word.ofByteList p.payload).length),
    ("rtdl", Json.ofOption RtdlHeader.toJson p.rtdlHeader?), ("data", bytes p.data),
    ("data_length", .nat p.data.length),
    ("events", .array ((p.events.take shownEvents).map NeutronEvent.toJson)),
    ("event_count", .nat p.events.length)]

end Packet

end DetectorLink
