import DetectorLink.Proofs.Packet.Cut
import DetectorLink.Proofs.Packet.Framing

/-!
# Outgoing commands are read back

A command that is built for sending is read back with what it was built for, whatever bytes follow
it on the link: one for a module that is reached directly from its header and payload, a relayed one
from its frames. A relayed command is longer than a direct one, so the limit on its payload is
lower; up to that limit every command can be built.
-/

namespace DetectorLink

namespace Word

theorem toByteList_append (ws vs : List UInt32) :
    toByteList (ws ++ vs) = toByteList ws ++ toByteList vs := List.flatMap_append

/-- Words are dropped with their bytes. -/
theorem drop_toByteList_append (ws vs : List UInt32) :
    (toByteList (ws ++ vs)).drop (4 * ws.length) = toByteList vs := by
  rw [toByteList_append, List.drop_left' (length_toByteList ws)]

/-- The bytes of padded words are those that were given and zeros up to a whole word. -/
theorem toByteList_ofPadded (b : Bytes) :
    toByteList (ofPadded b) = b ++ Bytes.zeros (alignUp b.length - b.length) := by
  apply toByteList_ofByteList
  rw [Bytes.zeros, List.length_append, List.length_replicate, Nat.add_sub_of_le (le_alignUp _)]
  exact alignUp_mod _

theorem length_ofPadded (b : Bytes) : 4 * (ofPadded b).length = alignUp b.length := by
  rw [← length_toByteList, toByteList_ofPadded, Bytes.zeros, List.length_append,
    List.length_replicate, Nat.add_sub_of_le (le_alignUp _)]

/-- Whole words are not padded. -/
theorem ofPadded_toByteList (ws : List UInt32) : ofPadded (toByteList ws) = ws := by
  have hunits : alignUp (toByteList ws).length = (toByteList ws).length := by
    rw [length_toByteList, alignUp, alignment]
    omega
  rw [ofPadded, hunits, Nat.sub_self]
  exact (ofByteList_toByteList_append ws []).trans (List.append_nil ws)

end Word

namespace CommandInfo

/-- Channels are counted from one when they are sent and from zero when they are read. There are
sixteen of them. -/
theorem channel?_withChannel (info : CommandInfo) (channel : UInt8) :
    (info.withChannel channel).channel? =
      if channel = 0 then none else some ((channel - 1) % 16) := by
  by_cases hc : channel = 0
  · rw [hc]
    simp [withChannel, channel?]
  · generalize hx : channel - 1 = x
    have hmark : (x &&& channelMask ||| channelMark) &&& channelMark ≠ 0 := by
      intro h
      have hnat : ((x.toNat &&& 15) ||| 16) &&& 16 = 0 := congrArg UInt8.toNat h
      rw [Nat.and_or_distrib_right, Nat.and_assoc] at hnat
      exact absurd (Nat.or_eq_zero_iff.mp hnat).2 (by decide)
    have hchannel : (x &&& channelMask ||| channelMark) &&& channelMask = x % 16 := by
      apply UInt8.toNat_inj.mp
      show ((x.toNat &&& 15) ||| 16) &&& 15 = x.toNat % 16
      rw [Nat.and_or_distrib_right, Nat.and_assoc, Nat.and_self, show 16 &&& 15 = 0 from rfl,
        Nat.or_zero]
      exact Nat.and_two_pow_sub_one_eq_mod x.toNat 4
    simp only [withChannel, channel?, hc, hx, hchannel, ite_false, bne_iff_ne, ne_eq, hmark,
      not_false_eq_true, ite_true]

/-- The framing keeps the channel. -/
theorem channel?_recovered (info : CommandInfo) :
    (Lvds.recovered info).channel? = info.channel? := by
  unfold channel?
  rfl

/-- A request for one channel has its parts in their places. -/
theorem inPlace_request (code channel : UInt8) :
    InPlace ((request (.ofByte code)).withChannel channel) := by
  have hf : CommandFlag.isCommand &&& CommandFlag.all = CommandFlag.isCommand := by decide
  exact .of_byte rfl hf

end CommandInfo

namespace Packet

variable {p : Packet}

/-! ### What the info word says -/

theorem commandInfo?_eq (p : Packet) : p.commandInfo? = CommandInfo.ofRaw? p.header.info := by
  rw [commandInfo?, info, Info.ofRaw]
  cases CommandInfo.ofRaw? p.header.info <;> rfl

/-- Only the payload of a relayed packet starts with words that serve relaying. -/
theorem payload_eq_rawPayload {info : CommandInfo} (h : p.commandInfo? = some info)
    (hr : info.has CommandFlag.isPassthru = false) : p.payload = p.rawPayload := by
  simp only [payload, payloadSkip, h, hr, Bool.false_eq_true, ite_false, List.drop_zero]

/-! ### Packets in front of other bytes -/

/-- The bytes behind a packet are not taken for its payload. -/
theorem Built.rawPayload_append (hb : Built p) (more : Bytes) :
    rawPayload { p with rest := p.rest ++ more } = p.rest :=
  List.take_left' hb.toNat_payloadLength.1.symm

theorem Built.rawPayload_eq (hb : Built p) : p.rawPayload = p.rest := by
  rw [rawPayload, hb.toNat_payloadLength.1, List.take_length]

/-- A packet is parsed from its bytes, with all that follows them. -/
theorem parse_window_append (p : Packet) (more : Bytes) :
    parse (p.window ++ more) = .ok { p with rest := p.rest ++ more } :=
  parse_append (parse_eq_ok_iff.mpr rfl) more

/-- A packet is as long as its words say, or it is refused for this length. -/
theorem ofWords_cases (destination source info : UInt32) (payload : List UInt32) :
    let length := Header.byteCount + 4 * payload.length
    (maxLength < length ∧ Packet.ofWords destination source info payload =
        .error (.payloadTooLong length maxLength)) ∨
      (length ≤ maxLength ∧ ∃ p, Packet.ofWords destination source info payload = .ok p ∧
        p.window.length = length) := by
  intro length
  by_cases hl : maxLength < length
  · exact .inl ⟨hl, ite_cond_eq_true _ _ (eq_true hl)⟩
  · have hle : length ≤ maxLength := Nat.not_lt.mp hl
    refine .inr ⟨hle, _, ofWords_eq_ok_iff.mpr ⟨hle, rfl⟩, ?_⟩
    rw [length_window, Word.length_toByteList]

/-- The frames of a packet are the words it was built with. -/
theorem decodeLvds_of_ofWords {destination source raw : UInt32} {frames : List UInt32}
    (h : Packet.ofWords destination source raw frames = .ok p) (more : Bytes)
    (addressing : Lvds.Addressing) :
    decodeLvds { p with rest := p.rest ++ more } addressing =
      Lvds.decode raw frames addressing := by
  rw [decodeLvds, (Built.ofWords h).rawPayload_append]
  obtain ⟨_, rfl⟩ := ofWords_eq_ok_iff.mp h
  rw [Word.ofByteList_toByteList]

variable {destination : UInt32} {command : Command} {code channel : UInt8} {payload : Bytes}

/-- The header of a command that is sent directly holds what was asked for. -/
theorem commandInfo?_of_direct {words : List UInt32}
    (h : Packet.direct destination (.ofByte code) channel words = .ok p) :
    p.commandInfo? = some ((CommandInfo.request (.ofByte code)).withChannel channel) ∧
      p.header.destination = destination := by
  obtain ⟨_, rfl⟩ := ofWords_eq_ok_iff.mp h
  have hmark : Word.bit CommandFlag.isCommand 31 = true := by decide
  exact ⟨(commandInfo?_eq _).trans
    (CommandInfo.ofRaw?_toRaw (CommandInfo.inPlace_request code channel) hmark), rfl⟩

/-! ### Relayed commands -/

/-- The marks of a relayed command: it is relayed, and no answer. -/
theorem flags_of_passThrough
    (h : Packet.passThrough destination (.ofByte code) channel payload = .ok p) :
    p.isPassthru = true ∧ p.isResponse = false := by
  have hplace := CommandInfo.inPlace_request code channel
  have hwords := ofWords_of_passThrough h
  rw [Lvds.encode_eq, Lvds.emit] at hwords
  obtain ⟨_, rfl⟩ := ofWords_eq_ok_iff.mp hwords
  simp only [isPassthru, isResponse, hasFlag, commandInfo?_eq,
    (Lvds.accepts_header hplace _).ofRaw?, Option.any_some]
  constructor
  · refine (hasFlags_eq_bit CommandFlag.bit_isPassthru).trans ?_
    exact Lvds.bit_flags_read_required hplace (.inr (.inl rfl)) _
  · refine (hasFlags_eq_bit CommandFlag.bit_isResponse).trans ?_
    rw [Lvds.bit_flags_read_framed hplace (by decide) (by decide),
      Lvds.bit_flags_framed (by decide)]
    have hrequest : Word.bit CommandFlag.isCommand 29 = false := by decide
    exact congrArg (fun b ↦ (b || _) && _) hrequest

/-- The length of a relayed command is that of its header and its frames. -/
theorem framedLength_eq (info : CommandInfo) (destination : UInt32) (payload : Bytes) :
    framedLength destination payload.length = Header.byteCount +
      4 * (Lvds.encode info destination (Word.ofPadded payload)).2.length := by
  rw [framedLength, Lvds.length_encode, ← Word.length_ofPadded]
  split <;> omega

/-- A relayed command is as long as its frames say, or it is refused for this length. -/
theorem passThrough_cases (destination : UInt32) (command : Command) (channel : UInt8)
    (payload : Bytes) :
    let length := framedLength destination payload.length
    (maxLength < length ∧ Packet.passThrough destination command channel payload =
        .error (.payloadTooLong length maxLength)) ∨
      (length ≤ maxLength ∧ ∃ p, Packet.passThrough destination command channel payload = .ok p ∧
        p.window.length = length) := by
  intro length
  dsimp only [Packet.passThrough]
  by_cases hl : maxLength < length
  · exact .inl ⟨hl, ite_cond_eq_true _ _ (eq_true hl)⟩
  · rw [ite_cond_eq_false _ _ (eq_false hl)]
    have hframes := framedLength_eq ((CommandInfo.request command).withChannel channel) destination
      payload
    rcases ofWords_cases HardwareId.broadcast HardwareId.self _ _ with ⟨hlt, _⟩ | ⟨hle, p, hp, hw⟩
    · rw [← hframes] at hlt
      exact absurd hlt hl
    · exact .inr ⟨Nat.not_lt.mp hl, p, hp, hw.trans hframes.symm⟩

/-- A submodule reads from its frames what a relayed command was built for. -/
theorem decodeLvds_of_passThrough
    (h : Packet.passThrough destination (.ofByte code) channel payload = .ok p) (more : Bytes) :
    decodeLvds { p with rest := p.rest ++ more } (.ofDestination destination) =
      .ok ⟨Lvds.recovered ((CommandInfo.request (.ofByte code)).withChannel channel), destination,
        Word.ofPadded payload⟩ := by
  rw [decodeLvds_of_ofWords (ofWords_of_passThrough h)]
  exact Lvds.decode_encode_of_inPlace (CommandInfo.inPlace_request code channel) destination _

/-- A relayed command is refused exactly if it would be longer than the longest packet. Otherwise it
is one complete packet of the length that follows from its payload, sent to everybody by this host.
Whatever follows its bytes, a submodule reads from them its destination, the command, the channel
and the payload, completed with zeros. -/
theorem passThrough_read_back (destination : UInt32) (code channel : UInt8) (payload : Bytes) :
    let total := Header.byteCount + 2 * alignUp payload.length +
      if destination = HardwareId.broadcast then 0 else 8
    (maxLength < total ∧ Packet.passThrough destination (.ofByte code) channel payload =
        .error (.payloadTooLong total maxLength)) ∨
      (total ≤ maxLength ∧
        ∃ p, Packet.passThrough destination (.ofByte code) channel payload = .ok p ∧
          p.bytes = p.window ∧ p.window.length = total ∧
          p.header.payloadLength.toNat = total - Header.byteCount ∧
          p.header.destination = HardwareId.broadcast ∧ p.header.source = HardwareId.self ∧
          ∀ more, validLength? (p.window ++ more) = some total ∧
            ∃ q cmd, parse (p.window ++ more) = .ok q ∧
              q.decodeLvds (.ofDestination destination) = .ok cmd ∧
              cmd.destination = destination ∧ cmd.info.command = .ofByte code ∧
              cmd.info.channel? = (if channel = 0 then none else some ((channel - 1) % 16)) ∧
              Word.toByteList cmd.words =
                payload ++ Bytes.zeros (alignUp payload.length - payload.length)) := by
  intro total
  have htotal : framedLength destination payload.length = total := by
    rw [framedLength, ← Nat.add_assoc]
  rw [← htotal]
  refine (passThrough_cases destination (.ofByte code) channel payload).imp id ?_
  rintro ⟨hle, p, hp, hlength⟩
  have hb : Built p := .passThrough hp
  have hpayload : p.header.payloadLength.toNat = p.window.length - Header.byteCount := by
    rw [hb.toNat_payloadLength.1, length_window, Nat.add_sub_cancel_left]
  have hheader : p.header.destination = HardwareId.broadcast ∧
      p.header.source = HardwareId.self := by
    obtain ⟨_, rfl⟩ := ofWords_eq_ok_iff.mp (ofWords_of_passThrough hp)
    exact ⟨rfl, rfl⟩
  rw [← hlength] at hle ⊢
  refine ⟨hle, p, hp, hb.bytes_eq, rfl, hpayload, hheader.1, hheader.2, fun more ↦ ?_⟩
  refine ⟨hb.whole.validLength?_window_append more, _, _, parse_window_append p more,
    decodeLvds_of_passThrough hp more, rfl, rfl, ?_, Word.toByteList_ofPadded payload⟩
  rw [CommandInfo.channel?_recovered, CommandInfo.channel?_withChannel]

end Packet

end DetectorLink
