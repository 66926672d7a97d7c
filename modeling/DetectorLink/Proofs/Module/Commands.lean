import DetectorLink.Link.Hardware
import DetectorLink.Module.Commander
import DetectorLink.Proofs.Packet.Outgoing

/-!
# Commands mean the same on both paths

A module is told a command by the header and the payload of a packet if the adapter addresses it,
and by the frames if an aggregator relays it. Either way it is told its address, the command, the
channel and the payload words that the packet was built for. Only the length of the packet depends
on the path, and a packet is built exactly if its length is allowed.
-/

namespace DetectorLink

namespace Packet

/-- What a packet tells the module of an address at the end of a path. -/
def told? (path : ModulePath) (address : UInt32) (p : Packet) : Option Lvds.Decoded :=
  match path with
  | .direct => p.commandInfo?.map fun info ↦ ⟨info, p.header.destination, Word.ofByteList p.payload⟩
  | .lvds => (p.decodeLvds (.ofDestination address)).toOption

variable {p : Packet} {address : UInt32} {code channel : UInt8} {words : List UInt32}

/-- A module that is reached directly is told by the header and the payload. -/
theorem told?_of_direct (h : Packet.direct address (.ofByte code) channel words = .ok p) :
    p.told? .direct address =
      some ⟨(CommandInfo.request (.ofByte code)).withChannel channel, address, words⟩ := by
  have hraw : p.rawPayload = p.rest := (Built.direct h).rawPayload_eq
  obtain ⟨hinfo, hdestination⟩ := commandInfo?_of_direct h
  have hrelayed : hasFlags CommandFlag.isCommand CommandFlag.isPassthru = false := by decide
  have hrest : p.rest = Word.toByteList words := by
    obtain ⟨_, rfl⟩ := ofWords_eq_ok_iff.mp h
    rfl
  rw [told?, hinfo, payload_eq_rawPayload hinfo hrelayed, hraw, hrest, Word.ofByteList_toByteList,
    hdestination]
  rfl

/-- A submodule is told by the frames. -/
theorem told?_of_passThrough
    (h : Packet.passThrough address (.ofByte code) channel (Word.toByteList words) = .ok p) :
    p.told? .lvds address =
      some ⟨Lvds.recovered ((CommandInfo.request (.ofByte code)).withChannel channel), address,
        words⟩ := by
  have hdecoded := decodeLvds_of_passThrough h []
  rw [List.append_nil, Word.ofPadded_toByteList] at hdecoded
  rw [told?, hdecoded]
  rfl

end Packet

namespace Commander

/-- Length of the packet that carries `n` payload words to the module of an address. -/
def packetLength (path : ModulePath) (address : UInt32) (n : Nat) : Nat :=
  match path with
  | .direct => Header.byteCount + 4 * n
  | .lvds => Header.byteCount + 8 * n + if address = HardwareId.broadcast then 0 else 8

/-- The packet of a command is as long as its path says, or it is refused for this length. -/
theorem buildPacket_cases (config : ModuleConfig) (command : Command) (channel : UInt8)
    (words : List UInt32) :
    let length := packetLength config.path config.hardwareId.raw words.length
    (Packet.maxLength < length ∧
        buildPacket config command channel words =
          .error (.payloadTooLong length Packet.maxLength)) ∨
      (length ≤ Packet.maxLength ∧ ∃ p, buildPacket config command channel words = .ok p ∧
        Packet.Built p ∧ p.window.length = length) := by
  unfold buildPacket
  cases config.path with
  | direct =>
    refine (Packet.ofWords_cases _ HardwareId.self _ words).imp id ?_
    rintro ⟨hle, p, hp, hlength⟩
    exact ⟨hle, p, hp, .direct hp, hlength⟩
  | lvds =>
    have hlength : Packet.framedLength config.hardwareId.raw (Word.toByteList words).length =
        packetLength .lvds config.hardwareId.raw words.length := by
      rw [Packet.framedLength, packetLength, ← Word.length_ofPadded, Word.ofPadded_toByteList]
      omega
    rw [← hlength]
    refine (Packet.passThrough_cases _ command channel (Word.toByteList words)).imp id ?_
    rintro ⟨hle, p, hp, hwindow⟩
    exact ⟨hle, p, hp, .passThrough hp, hwindow⟩

/-- A module is told the command that the packet was built for, whichever path it is reached by. -/
theorem exists_told?_of_buildPacket {config : ModuleConfig} {code channel : UInt8}
    {words : List UInt32} {p : Packet}
    (h : buildPacket config (.ofByte code) channel words = .ok p) :
    ∃ info, p.told? config.path config.hardwareId.raw =
        some ⟨info, config.hardwareId.raw, words⟩ ∧
      info.command = .ofByte code ∧
      info.channel? = if channel = 0 then none else some ((channel - 1) % 16) := by
  unfold buildPacket at h
  cases hpath : config.path with
  | direct =>
    rw [hpath] at h
    exact ⟨_, Packet.told?_of_direct h, rfl, CommandInfo.channel?_withChannel _ channel⟩
  | lvds =>
    rw [hpath] at h
    refine ⟨_, Packet.told?_of_passThrough h, rfl, ?_⟩
    rw [CommandInfo.channel?_recovered, CommandInfo.channel?_withChannel]

/-- A command is refused exactly if its packet would be longer than the longest one, which depends
on the path, the address and the number of payload words. Otherwise there is a packet of whole words,
which an adapter passes on to its driver, and the module that parses it by the rule of its path is
told its own address, the command, the channel and the payload words. -/
theorem buildPacket_told (config : ModuleConfig) (code channel : UInt8) (words : List UInt32) :
    let address := config.hardwareId.raw
    let length := packetLength config.path address words.length
    (Packet.maxLength < length ∧
        buildPacket config (.ofByte code) channel words =
          .error (.payloadTooLong length Packet.maxLength)) ∨
      (length ≤ Packet.maxLength ∧
        ∃ p, buildPacket config (.ofByte code) channel words = .ok p ∧
          Packet.parse p.bytes = .ok p ∧ p.bytes.length = length ∧ length % 4 = 0 ∧
          (∀ (δ : Type) [Driver δ],
            Hardware.send (δ := δ) p.bytes = Hardware.writeAt DriverCommand.tx p.bytes) ∧
          ∃ cmd, p.told? config.path address = some cmd ∧ cmd.destination = address ∧
            cmd.info.command = .ofByte code ∧
            cmd.info.channel? = (if channel = 0 then none else some ((channel - 1) % 16)) ∧
            cmd.words = words) := by
  intro address length
  refine (buildPacket_cases config (.ofByte code) channel words).imp id ?_
  rintro ⟨hle, p, hp, hb, hlength⟩
  have hbytes : p.bytes = p.window := hb.bytes_eq
  have hunits : length % 4 = 0 := by
    show packetLength _ _ _ % 4 = 0
    rw [← hlength, Packet.length_window, Header.byteCount]
    have hrest := hb.toNat_payloadLength.2.1
    omega
  obtain ⟨info, htold, hcommand, hchannel⟩ := exists_told?_of_buildPacket hp
  refine ⟨hle, p, hp, ?_, hbytes ▸ hlength, hunits, fun δ _ ↦ ?_, _, htold, rfl, hcommand, hchannel,
    rfl⟩
  · rw [hbytes]
    exact Packet.parse_eq_ok_iff.mpr rfl
  · rw [Hardware.send, hbytes, hlength]
    exact ite_cond_eq_false _ _ (eq_false (not_not_intro hunits))

end Commander

end DetectorLink
