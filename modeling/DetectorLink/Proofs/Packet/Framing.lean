import DetectorLink.Proofs.Packet.Header

/-!
# Framed commands are read back

What a decoder accepts is what an encoder emits: a header and frames decode to a command exactly
when they are the header and frames of this command. From this follow that every command is read
back from its frames, with the flags of the framing taken off, and that frames which decode are
those of the command they decode to.
-/

namespace DetectorLink.Lvds

open Word

/-! ### Header and frames -/

/-- The words that are framed, those of a unicast with their destination ahead. -/
def carried (addressing : Addressing) (destination : UInt32) (words : List UInt32) : List UInt32 :=
  match addressing with
  | .broadcast => words
  | .unicast => destination :: words

/-- A header and the frames of words behind it. -/
def emit (info : CommandInfo) (words : List UInt32) : UInt32 × List UInt32 :=
  (stopped words.isEmpty (header info), stopLast (words.flatMap wordFrames))

theorem encode_eq (info : CommandInfo) (destination : UInt32) (words : List UInt32) :
    encode info destination words =
      emit info (carried (.ofDestination destination) destination words) := by
  cases ha : Addressing.ofDestination destination with
  | unicast =>
    simp only [encode, ha]
    rfl
  | broadcast =>
    simp only [encode, ha, List.nil_append]
    cases words with
    | nil => rfl
    | cons w ws => rfl

theorem ofDestination_eq_broadcast_iff {destination : UInt32} :
    Addressing.ofDestination destination = .broadcast ↔ destination = HardwareId.broadcast := by
  unfold Addressing.ofDestination
  split
  · next h => simp [h]
  · next h => simp [h]

/-- Halves are those of a destination and words exactly when they are the halves of what is
carried. -/
theorem carried_halves_iff {addressing : Addressing} {hs : List UInt32} {destination : UInt32}
    {words : List UInt32} :
    hs = (carried addressing destination words).flatMap wordHalves ∧
        (addressing = .broadcast → destination = HardwareId.broadcast) ↔
      (∀ h ∈ hs, IsHalf h) ∧ ∃ data, splitDestination addressing hs = .ok (destination, data) ∧
        data.length % 2 = 0 ∧ pairs data = words := by
  rw [eq_flatMap_wordHalves_iff, and_assoc, and_congr_right_iff]
  intro hh
  cases addressing with
  | broadcast =>
    constructor
    · rintro ⟨⟨hl, hp⟩, hd⟩
      refine ⟨hs, ?_, hl, hp⟩
      rw [hd rfl]
      rfl
    · rintro ⟨data, hsplit, hl, hp⟩
      obtain ⟨rfl, rfl⟩ := Prod.mk.inj (Except.ok.inj hsplit)
      exact ⟨⟨hl, hp⟩, fun _ ↦ rfl⟩
  | unicast =>
    constructor
    · rintro ⟨⟨hl, hp⟩, _⟩
      rcases hs with _ | ⟨low, _ | ⟨high, data⟩⟩
      · contradiction
      · contradiction
      · obtain ⟨rfl, hwords⟩ := List.cons.inj hp
        refine ⟨data, rfl, ?_, hwords⟩
        simp only [List.length_cons] at hl
        omega
    · rintro ⟨data, hsplit, hl, hp⟩
      rcases hs with _ | ⟨low, _ | ⟨high, rest⟩⟩
      · contradiction
      · contradiction
      · obtain ⟨rfl, rfl⟩ := Prod.mk.inj (Except.ok.inj hsplit)
        refine ⟨⟨?_, ?_⟩, nofun⟩
        · simp only [List.length_cons]
          omega
        · rw [← hp]
          rfl

/-- What a decoder does when it accepts. -/
theorem decode_eq_ok_iff_steps {raw : UInt32} {frames : List UInt32} {addressing : Addressing}
    {cmd : Decoded} :
    decode raw frames addressing = .ok cmd ↔
      ∃ info hs data, Accepts raw frames.isEmpty info ∧ halves 1 frames = .ok hs ∧
        splitDestination addressing hs = .ok (cmd.destination, data) ∧ data.length % 2 = 0 ∧
        info.clear framingFlags = cmd.info ∧ pairs data = cmd.words := by
  constructor
  · intro h
    unfold decode at h
    split at h
    · next info hi =>
      split at h
      · contradiction
      · next hreq =>
        split at h
        · contradiction
        · next hpar =>
          split at h
          · contradiction
          · next hstop =>
            cases hh : halves 1 frames with
            | error e =>
              rw [hh] at h
              contradiction
            | ok hs =>
              cases hsplit : splitDestination addressing hs with
              | error e =>
                simp only [hh, hsplit, bind, Except.bind] at h
                contradiction
              | ok split =>
                obtain ⟨destination, data⟩ := split
                simp only [hh, hsplit, bind, Except.bind] at h
                split at h
                · contradiction
                · next hl =>
                  obtain rfl := Except.ok.inj h
                  exact ⟨info, hs, data, ⟨hi, by simpa using hreq, by simpa using hpar,
                    by simpa using hstop⟩, rfl, hsplit, by simpa using hl, rfl, rfl⟩
    · contradiction
  · rintro ⟨info, hs, data, ⟨hi, hreq, hpar, hstop⟩, hh, hsplit, hl, hinfo, hwords⟩
    simp only [decode, hi, hreq, hpar, hstop, hh, hsplit, hl, hinfo, hwords, bind, Except.bind]
    simp

/-- A header and frames decode to a command exactly when they are those of the command: its info
carries no flags of the framing, and without an address it goes to everybody. -/
theorem decode_eq_ok_iff {raw : UInt32} {frames : List UInt32} {addressing : Addressing}
    {cmd : Decoded} :
    decode raw frames addressing = .ok cmd ↔
      Unframed cmd.info ∧ (addressing = .broadcast → cmd.destination = HardwareId.broadcast) ∧
        (raw, frames) = emit cmd.info (carried addressing cmd.destination cmd.words) := by
  rw [decode_eq_ok_iff_steps]
  have hempty (ws : List UInt32) : (stopLast (ws.flatMap wordFrames)).isEmpty = ws.isEmpty := by
    rw [isEmpty_stopLast]
    cases ws <;> rfl
  constructor
  · rintro ⟨info, hs, data, ha, hh, hsplit, hl, hinfo, hwords⟩
    obtain ⟨hhalf, rfl⟩ := halves_eq_ok_iff.mp hh
    obtain ⟨rfl, hd⟩ := carried_halves_iff.mpr ⟨hhalf, data, hsplit, hl, hwords⟩
    obtain ⟨hu, hr⟩ := ha.eq_stopped_header
    rw [hinfo] at hu hr
    rw [map_dataFrame_flatMap, hempty] at hr
    refine ⟨hu, hd, ?_⟩
    rw [emit, map_dataFrame_flatMap, hr]
  · rintro ⟨hu, hd, he⟩
    obtain ⟨rfl, rfl⟩ := Prod.mk.inj he
    obtain ⟨hhalf, data, hsplit, hl, hwords⟩ := carried_halves_iff.mp ⟨rfl, hd⟩
    let stop := (carried addressing cmd.destination cmd.words).isEmpty
    refine ⟨read stop cmd.info, _, data, ?_, ?_, hsplit, hl, hu.clear_read stop, hwords⟩
    · rw [hempty]
      exact accepts_header hu.inPlace stop
    · rw [halves_eq_ok_iff, map_dataFrame_flatMap]
      exact ⟨hhalf, rfl⟩

/-! ### What is emitted -/

theorem emit_recovered (info : CommandInfo) (words : List UInt32) :
    emit (recovered info) words = emit info words := by
  rw [emit, emit, header_eq, header_eq, framed_recovered]

variable {info : CommandInfo}

theorem oneBits_header_emit (h : info.InPlace) (words : List UInt32) :
    oneBits ((emit info words).1 &&& headerBits) % 2 = 0 :=
  parity_eq_zero_iff.mp (parity_stopped_header h words.isEmpty)

theorem bit_header_emit (h : info.InPlace) (words : List UInt32) :
    bit (emit info words).1 17 = words.isEmpty := bit_stopped_stop (bit_header_stop h) words.isEmpty

theorem length_emit (info : CommandInfo) (words : List UInt32) :
    (emit info words).2.length = 2 * words.length := by
  rw [emit, length_stopLast]
  induction words with
  | nil => rfl
  | cons w ws ih =>
    rw [List.flatMap_cons, List.length_append, ih, List.length_cons]
    show 2 + _ = _
    omega

/-- Each frame is that of a half, and only the last one has a stop flag. -/
theorem getElem?_emit {words : List UInt32} {i : Nat} {frame : UInt32}
    (h : (emit info words).2[i]? = some frame) :
    ∃ half, frame = stopped (i + 1 == (emit info words).2.length) (dataFrame half) := by
  rw [length_emit, ← length_emit info, emit, length_stopLast]
  rw [emit, getElem?_stopLast, ← map_dataFrame_flatMap, List.getElem?_map, Option.map_map,
    Option.map_eq_some_iff] at h
  obtain ⟨half, _, rfl⟩ := h
  rw [map_dataFrame_flatMap]
  exact ⟨half, rfl⟩

theorem frameParityOk_iff {frame : UInt32} :
    frameParityOk frame = true ↔
      oneBits (frame &&& frameBits) % 2 = 0 ∧ frame.toNat < 0x40000 := by
  rw [frameParityOk, Bool.and_eq_true, beq_iff_eq, beq_iff_eq, parity_eq_zero_iff, and_comm,
    and_congr_right_iff]
  intro _
  constructor
  · intro h
    apply Nat.lt_pow_two_of_testBit (n := 18)
    intro i hi
    show bit frame i = false
    have hb := congrArg (bit · i) h
    by_cases hlt : i < 32
    · have hn : ¬i < 18 := by omega
      simpa [hn, hlt] using hb
    · exact bit_of_ge frame (by omega)
  · intro h
    apply eq_of_bit_eq
    intro i hi
    by_cases hlt : i < 18
    · simp [hlt]
    · have hle : 2 ^ 18 ≤ 2 ^ i := Nat.pow_le_pow_right (by decide) (by omega)
      have hb : bit frame i = false := Nat.testBit_lt_two_pow (Nat.lt_of_lt_of_le h hle)
      rw [bit_and, hb, Bool.false_and, bit_zero]

theorem length_encode (info : CommandInfo) (destination : UInt32) (words : List UInt32) :
    (encode info destination words).2.length =
      2 * words.length + if destination = HardwareId.broadcast then 0 else 2 := by
  rw [encode_eq, length_emit]
  by_cases hd : destination = HardwareId.broadcast
  · rw [ofDestination_eq_broadcast_iff.mpr hd, ite_cond_eq_true _ _ (eq_true hd)]
    rfl
  · rw [Addressing.ofDestination, ite_cond_eq_false _ _ (eq_false hd),
      ite_cond_eq_false _ _ (eq_false hd), carried, List.length_cons]
    omega

/-- Whatever is encoded decodes for a listener to everybody, with the destination among the words if
there is one. -/
theorem exists_decode_of_encode {raw destination : UInt32} {words frames : List UInt32}
    (h : encode info destination words = (raw, frames)) :
    ∃ cmd, decode raw frames .broadcast = .ok cmd := by
  obtain ⟨placed, hp, hheader⟩ := exists_inPlace_header info
  refine ⟨⟨recovered placed, HardwareId.broadcast,
    carried (.ofDestination destination) destination words⟩,
    decode_eq_ok_iff.mpr ⟨unframed_recovered hp, fun _ ↦ rfl, ?_⟩⟩
  rw [emit_recovered, ← h, encode_eq, emit, emit, hheader]
  rfl

/-! ### Reading back -/

/-- An info in its place is read back with its destination and words, as it is recovered. -/
theorem decode_encode_of_inPlace (h : info.InPlace) (destination : UInt32) (words : List UInt32) :
    decode (encode info destination words).1 (encode info destination words).2
        (.ofDestination destination) =
      .ok ⟨recovered info, destination, words⟩ := by
  refine decode_eq_ok_iff.mpr ⟨unframed_recovered h, ofDestination_eq_broadcast_iff.mp, ?_⟩
  exact (encode_eq info destination words).trans (emit_recovered info _).symm

/-- A command whose code comes from a byte and whose flags are in their place is read back from its
frames with its destination and words, marked as a relayed command and without the flags of the
framing. Its header and its frames have even parity, the frames use no bit beyond their own, and the
stop flag is on the last frame alone, or on the header if there is no frame. -/
theorem decode_encode (info : CommandInfo) (hc : ∃ b, info.command = .ofByte b)
    (hf : info.flags &&& CommandFlag.all = info.flags) (destination : UInt32)
    (words : List UInt32) :
    ∃ raw frames, encode info destination words = (raw, frames) ∧
      decode raw frames (.ofDestination destination) = .ok
        { info := { info with flags :=
            (info.flags ||| (CommandFlag.isCommand ||| CommandFlag.isPassthru)) &&& ~~~framingFlags }
          destination
          words } ∧
      oneBits (raw &&& headerBits) % 2 = 0 ∧
      (∀ frame ∈ frames, oneBits (frame &&& frameBits) % 2 = 0 ∧ frame.toNat < 0x40000) ∧
      (∀ i frame, frames[i]? = some frame → (frame &&& stopBit ≠ 0 ↔ i + 1 = frames.length)) ∧
      (raw &&& CommandFlag.lvdsStop ≠ 0 ↔ frames = []) := by
  obtain ⟨b, hb⟩ := hc
  have hp : info.InPlace := .of_byte hb hf
  generalize hws : carried (.ofDestination destination) destination words = ws
  refine ⟨(emit info ws).1, (emit info ws).2, ?_, ?_, oneBits_header_emit hp ws, ?_, ?_, ?_⟩
  · rw [encode_eq, hws]
  · refine decode_eq_ok_iff.mpr ⟨unframed_recovered hp, ofDestination_eq_broadcast_iff.mp, ?_⟩
    exact hws ▸ (emit_recovered info _).symm
  · intro frame hm
    obtain ⟨i, hi⟩ := List.mem_iff_getElem?.mp hm
    obtain ⟨half, hframe⟩ := getElem?_emit hi
    exact frameParityOk_iff.mp (eq_stopped_dataFrame_iff.mp hframe).1
  · intro i frame hi
    obtain ⟨half, hframe⟩ := getElem?_emit hi
    rw [← bne_iff_ne, (eq_stopped_dataFrame_iff.mp hframe).2.1, beq_iff_eq]
  · rw [← bne_iff_ne, and_bne_zero CommandFlag.bit_lvdsStop, bit_header_emit hp,
      ← List.length_eq_zero_iff, length_emit, List.isEmpty_iff, ← List.length_eq_zero_iff]
    omega

/-- Flags left over from another framing and reserved flags do not disturb a command. -/
theorem decode_encode_stale_flags :
    let info : CommandInfo := ⟨.writeConfig, 0x13, 0x2FFF0000⟩
    (∃ b, info.command = .ofByte b) ∧ info.flags &&& CommandFlag.all = info.flags ∧
      ∃ raw frames, encode info 0x0A0B0C0D [0xDEADBEEF] = (raw, frames) ∧
        decode raw frames .unicast = .ok
          ⟨⟨.writeConfig, 0x13, 0xEFF00000⟩, 0x0A0B0C0D, [0xDEADBEEF]⟩ := by
  intro info
  have hc : ∃ b, info.command = .ofByte b := ⟨0x30, rfl⟩
  have hf : info.flags &&& CommandFlag.all = info.flags := by decide
  have hflags : (info.flags ||| (CommandFlag.isCommand ||| CommandFlag.isPassthru)) &&&
      ~~~framingFlags = 0xEFF00000 := by decide
  have ha : Addressing.ofDestination 0x0A0B0C0D = .unicast := by decide
  obtain ⟨raw, frames, he, hd, _⟩ := decode_encode info hc hf 0x0A0B0C0D [0xDEADBEEF]
  rw [ha, hflags] at hd
  exact ⟨hc, hf, raw, frames, he, hd⟩

/-- Frames that decode are those of the command they decode to, with the destination among the words
if it was sent to nobody in particular; so a decoder accepts nothing that an encoder does not emit,
and no two streams decode to one command. -/
theorem encode_of_decode {raw : UInt32} {frames : List UInt32} {addressing : Addressing}
    {cmd : Decoded} (h : decode raw frames addressing = .ok cmd) :
    (addressing = .broadcast ∨ cmd.destination ≠ HardwareId.broadcast →
      encode cmd.info cmd.destination cmd.words = (raw, frames)) ∧
    (∃ destination words, encode cmd.info destination words = (raw, frames)) ∧
    (∀ raw' frames', decode raw' frames' addressing = .ok cmd → raw' = raw ∧ frames' = frames) := by
  obtain ⟨_, hd, he⟩ := decode_eq_ok_iff.mp h
  refine ⟨?_, ⟨HardwareId.broadcast, carried addressing cmd.destination cmd.words, ?_⟩, ?_⟩
  · intro hcond
    have ha : Addressing.ofDestination cmd.destination = addressing := by
      cases addressing with
      | broadcast => exact ofDestination_eq_broadcast_iff.mpr (hd rfl)
      | unicast =>
        rcases hcond with hb | hn
        · contradiction
        · exact ite_cond_eq_false _ _ (eq_false hn)
    rw [encode_eq, ha, he]
  · rw [encode_eq, he]
    rfl
  · intro raw' frames' h'
    obtain ⟨_, _, he'⟩ := decode_eq_ok_iff.mp h'
    exact Prod.mk.inj (he'.trans he.symm)

/-- A unicast with one payload word is emitted as it was received. -/
theorem encode_of_decode_unicast :
    let cmd : Decoded := ⟨⟨.writeConfig, 0x13, 0xEFF00000⟩, 0x0A0B0C0D, [0xDEADBEEF]⟩
    decode 0xEFFD1330 [0x10C0D, 0x10A0B, 0x1BEEF, 0x2DEAD] .unicast = .ok cmd ∧
      cmd.destination ≠ HardwareId.broadcast ∧
      encode cmd.info cmd.destination cmd.words =
        (0xEFFD1330, [0x10C0D, 0x10A0B, 0x1BEEF, 0x2DEAD]) := by
  intro cmd
  have hd : decode 0xEFFD1330 [0x10C0D, 0x10A0B, 0x1BEEF, 0x2DEAD] .unicast = .ok cmd := by rfl
  have hn : cmd.destination ≠ HardwareId.broadcast := by decide
  exact ⟨hd, hn, (encode_of_decode hd).1 (.inr hn)⟩

end DetectorLink.Lvds
