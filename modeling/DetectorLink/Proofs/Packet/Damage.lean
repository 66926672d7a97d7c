import DetectorLink.Proofs.Packet.Framing

/-!
# Damaged frames are noticed

A header and each of its frames have even parity, so an odd number of changed bits is always
noticed, wherever it happens. A decoder tells which word is damaged: it checks the header first, and
then one frame after the other.
-/

namespace DetectorLink.Lvds

open Word

/-! ### Words that differ -/

/-- Number of the low `n` bits in which two words differ. -/
def differences (n : Nat) (a b : UInt32) : Nat :=
  (List.range n).countP fun i ↦ bit a i != bit b i

/-- A mask of low bits counts these alone. -/
theorem oneBits_and_mask {mask : UInt32} {n : Nat} (hn : n ≤ 32)
    (hm : ∀ i, bit mask i = decide (i < n)) (w : UInt32) :
    oneBits (w &&& mask) = (List.range n).countP (bit w) := by
  have hsplit : List.range 32 = List.range n ++ (List.range (32 - n)).map (n + ·) := by
    rw [← List.range_add, Nat.add_sub_of_le hn]
  have hlow : (List.range n).countP (bit (w &&& mask)) = (List.range n).countP (bit w) := by
    refine List.countP_congr fun i hi ↦ ?_
    rw [bit_and, hm, decide_eq_true (List.mem_range.mp hi), Bool.and_true]
  have hhigh : ((List.range (32 - n)).map (n + ·)).countP (bit (w &&& mask)) = 0 := by
    rw [List.countP_eq_zero]
    intro i hi
    obtain ⟨j, _, rfl⟩ := List.mem_map.mp hi
    rw [bit_and, hm, decide_eq_false (by omega), Bool.and_false]
    exact Bool.false_ne_true
  show (List.range 32).countP (bit (w &&& mask)) = _
  rw [hsplit, List.countP_append, hlow, hhigh, Nat.add_zero]

/-- Two words have the same parity exactly when they differ in an even number of bits. -/
theorem differences_mod {mask : UInt32} {n : Nat} (hn : n ≤ 32)
    (hm : ∀ i, bit mask i = decide (i < n)) (a b : UInt32) :
    differences n a b % 2 = (oneBits (a &&& mask) + oneBits (b &&& mask)) % 2 := by
  have hcount : differences n a b = oneBits ((a ^^^ b) &&& mask) := by
    rw [oneBits_and_mask hn hm]
    refine List.countP_congr fun i _ ↦ ?_
    rw [bit_xor]
  have hxor : (a ^^^ b) &&& mask = (a &&& mask) ^^^ (b &&& mask) := by
    apply eq_of_bit_eq
    intro i _
    simp only [bit_and, bit_xor]
    cases bit a i <;> cases bit b i <;> cases bit mask i <;> rfl
  rw [hcount, hxor, oneBits_xor_mod]

/-! ### A damaged frame -/

/-- A frame is noticed if an odd number of its bits has changed, or if a bit beyond them is set. -/
theorem frameParityOk_eq_false {frame word : UInt32} (hf : frameParityOk frame = true)
    (hd : differences 18 word frame % 2 = 1 ∨ ∃ i, 18 ≤ i ∧ bit word i = true) :
    frameParityOk word = false := by
  rw [Bool.eq_false_iff]
  intro hw
  obtain ⟨heven, hlt⟩ := frameParityOk_iff.mp hw
  rcases hd with hodd | ⟨i, hi, hb⟩
  · rw [differences_mod (by decide) bit_frameBits] at hodd
    have hframe := (frameParityOk_iff.mp hf).1
    omega
  · have hle : 2 ^ 18 ≤ 2 ^ i := Nat.pow_le_pow_right (by decide) hi
    rw [bit, Nat.testBit_lt_two_pow (Nat.lt_of_lt_of_le hlt hle)] at hb
    contradiction

private theorem isEmpty_set (frames : List UInt32) (i : Nat) (word : UInt32) :
    (frames.set i word).isEmpty = frames.isEmpty := by
  rw [Bool.eq_iff_iff, List.isEmpty_iff, List.isEmpty_iff, List.set_eq_nil_iff]

/-- The frames in front of a damaged one are read, so that it is the one that is told. -/
theorem halves_set {index i : Nat} {frames hs : List UInt32} {word : UInt32}
    (h : halves index frames = .ok hs) (hi : i < frames.length)
    (hw : frameParityOk word = false) :
    halves index (frames.set i word) = .error (.parity (index + i)) := by
  induction frames generalizing index i hs with
  | nil => contradiction
  | cons frame rest ih =>
    cases i with
    | zero =>
      rw [List.set_cons_zero, halves, hw]
      rfl
    | succ i =>
      obtain ⟨⟨hok, hstop⟩, t, ht, _⟩ := halves_cons_eq_ok_iff.mp h
      rw [List.set_cons_succ, halves, hok, hstop, isEmpty_set, ih ht (Nat.lt_of_succ_lt_succ hi),
        Nat.add_right_comm, Nat.add_assoc]
      simp [Except.map]

/-- A frame that is not read is the error of a command whose header is accepted. -/
theorem decode_eq_error_of_halves {raw : UInt32} {frames : List UInt32} {info : CommandInfo}
    {e : CodecError} (ha : Accepts raw frames.isEmpty info) (hh : halves 1 frames = .error e)
    (addressing : Addressing) : decode raw frames addressing = .error e := by
  simp [decode, ha.ofRaw?, ha.required, ha.parity, ha.stop, hh, bind, Except.bind]

/-! ### A damaged header -/

/-- The flags of the framing are required beside those of a relayed command. -/
theorem has_requiredFlags {raw : UInt32} {info : CommandInfo}
    (h : CommandInfo.ofRaw? raw = some info) (h31 : bit raw 31 = true) (h30 : bit raw 30 = true) :
    info.has requiredFlags = (bit raw 19 && bit raw 18) := by
  obtain ⟨hraw, hp, _⟩ := CommandInfo.ofRaw?_eq_some_iff.mp h
  have hflag {i : Nat} (hi : 16 ≤ i) : bit info.flags i = bit raw i := by
    rw [hraw, hp.bit_toRaw_high hi]
  rw [Bool.eq_iff_iff, CommandInfo.has, hasFlags_iff, Bool.and_eq_true]
  constructor
  · intro hreq
    rw [← hflag (by decide), ← hflag (by decide)]
    exact ⟨hreq 19 (by decide) (by simp), hreq 18 (by decide) (by simp)⟩
  · rintro ⟨h19, h18⟩ i hi hb
    rw [bit_requiredFlags, decide_eq_true_eq] at hb
    rw [hflag (by omega)]
    rcases hb with rfl | rfl | rfl | rfl
    · exact h31
    · exact h30
    · exact h19
    · exact h18

/-- A header of odd parity is told by the flags that it still has. -/
theorem decode_of_odd_header {raw : UInt32} (h31 : bit raw 31 = true) (h30 : bit raw 30 = true)
    (hodd : oneBits (raw &&& headerBits) % 2 = 1) (frames : List UInt32)
    (addressing : Addressing) :
    decode raw frames addressing =
      if bit raw 19 && bit raw 18 then .error (.parity 0) else .error .notLvds := by
  obtain ⟨info, hinfo⟩ : ∃ info, CommandInfo.ofRaw? raw = some info := by
    rw [CommandInfo.ofRaw?, and_bne_zero CommandFlag.bit_isCommand, h31]
    exact ⟨_, rfl⟩
  have hparity : headerParityOk raw = false := by
    rw [headerParityOk, beq_eq_false_iff_ne, ne_eq, parity_eq_zero_iff]
    omega
  have hreq := has_requiredFlags hinfo h31 h30
  cases hflags : bit raw 19 && bit raw 18 <;> simp [decode, hinfo, hreq, hflags, hparity]

/-- An accepted header is that of a relayed command and has even parity. -/
theorem Accepts.even {raw : UInt32} {stop : Bool} {info : CommandInfo} (h : Accepts raw stop info) :
    bit raw 31 = true ∧ bit raw 30 = true ∧ oneBits (raw &&& headerBits) % 2 = 0 := by
  obtain ⟨hraw, hp, hmark⟩ := CommandInfo.ofRaw?_eq_some_iff.mp h.ofRaw?
  refine ⟨?_, ?_, parity_eq_zero_iff.mp (beq_iff_eq.mp h.parity)⟩
  · rw [hraw, hp.bit_toRaw_high (by decide), hmark]
  · rw [hraw, hp.bit_toRaw_high (by decide)]
    exact hasFlags_iff.mp h.required 30 (by decide) (by simp)

/-! ### A damaged command -/

/-- Of a command that was encoded, a frame in which an odd number of bits has changed or a bit
beyond its own is set is the one that a decoder tells. A header in which an odd number of the bits
under its parity has changed is not accepted: without its start flag or its command flag it is that
of no framed command, else its parity is told. -/
theorem decode_damaged {info : CommandInfo} {raw destination : UInt32} {words frames : List UInt32}
    (h : encode info destination words = (raw, frames)) (addressing : Addressing) :
    (∀ i frame word, frames[i]? = some frame →
      differences 18 word frame % 2 = 1 ∨ (∃ b, 18 ≤ b ∧ bit word b = true) →
      decode raw (frames.set i word) addressing = .error (.parity (i + 1))) ∧
    (∀ word, (∀ b, 24 ≤ b → bit word b = bit raw b) → differences 24 word raw % 2 = 1 →
      decode word frames addressing =
        if word &&& CommandFlag.lvdsStart = 0 ∨ word &&& CommandFlag.lvdsCommand = 0 then
          .error .notLvds
        else .error (.parity 0)) := by
  obtain ⟨cmd, hcmd⟩ := exists_decode_of_encode h
  obtain ⟨read, hs, _, ha, hh, _⟩ := decode_eq_ok_iff_steps.mp hcmd
  constructor
  · intro i frame word hi hd
    have hlt : i < frames.length := (List.getElem?_eq_some_iff.mp hi).1
    have hok : frameParityOk frame = true := by
      obtain rfl : frames =
          (emit info (carried (.ofDestination destination) destination words)).2 := by
        rw [← encode_eq, h]
      obtain ⟨half, hframe⟩ := getElem?_emit hi
      exact (eq_stopped_dataFrame_iff.mp hframe).1
    have herror := halves_set hh hlt (frameParityOk_eq_false hok hd)
    rw [Nat.add_comm] at herror
    exact decode_eq_error_of_halves ((isEmpty_set frames i word).symm ▸ ha) herror addressing
  · intro word hhigh hd
    obtain ⟨h31, h30, heven⟩ := ha.even
    rw [differences_mod (by decide) bit_headerBits] at hd
    have hodd : oneBits (word &&& headerBits) % 2 = 1 := by omega
    rw [decode_of_odd_header ((hhigh 31 (by decide)).trans h31) ((hhigh 30 (by decide)).trans h30)
      hodd]
    have hstart := and_bne_zero CommandFlag.bit_lvdsStart word
    have hcommand := and_bne_zero CommandFlag.bit_lvdsCommand word
    rw [← hstart, ← hcommand]
    by_cases hs : word &&& CommandFlag.lvdsStart = 0
    · simp [hs]
    · by_cases hc : word &&& CommandFlag.lvdsCommand = 0 <;> simp [hs, hc]

/-- The last frame without its stop flag and with another parity and another data bit, a first frame
with a bit beyond its own, and a header without its start flag are all noticed. -/
theorem decode_damaged_flags :
    let frames : List UInt32 := [0x10C0D, 0x10A0B, 0x1BEEF, 0x2DEAD]
    encode ⟨.writeConfig, 0x13, 0xEFF00000⟩ 0x0A0B0C0D [0xDEADBEEF] = (0xEFFD1330, frames) ∧
      (frames[3]? = some 0x2DEAD ∧ differences 18 0x1DEAC 0x2DEAD % 2 = 1) ∧
      decode 0xEFFD1330 (frames.set 3 0x1DEAC) .unicast = .error (.parity 4) ∧
      (frames[0]? = some 0x10C0D ∧ bit 0x80010C0D 31 = true) ∧
      decode 0xEFFD1330 (frames.set 0 0x80010C0D) .unicast = .error (.parity 1) ∧
      ((∀ b, 24 ≤ b → bit 0xEFF91330 b = bit 0xEFFD1330 b) ∧
        differences 24 0xEFF91330 0xEFFD1330 % 2 = 1) ∧
      decode 0xEFF91330 frames .unicast = .error .notLvds := by
  intro frames
  have he : encode ⟨.writeConfig, 0x13, 0xEFF00000⟩ 0x0A0B0C0D [0xDEADBEEF] =
    (0xEFFD1330, [0x10C0D, 0x10A0B, 0x1BEEF, 0x2DEAD]) := by decide
  have hlast : differences 18 0x1DEAC 0x2DEAD % 2 = 1 := by decide
  have hbeyond : bit 0x80010C0D 31 = true := by decide
  have hhigh : ∀ b, 24 ≤ b → bit 0xEFF91330 b = bit 0xEFFD1330 b := by
    intro b hb
    by_cases hlt : b < 32
    · exact (by decide : ∀ b < 32, 24 ≤ b → bit 0xEFF91330 b = bit 0xEFFD1330 b) b hlt hb
    · rw [bit_of_ge _ (by omega), bit_of_ge _ (by omega)]
  have hstart : differences 24 0xEFF91330 0xEFFD1330 % 2 = 1 := by decide
  obtain ⟨hframe, hheader⟩ := decode_damaged he .unicast
  exact ⟨he, ⟨rfl, hlast⟩, hframe 3 _ _ rfl (.inl hlast), ⟨rfl, hbeyond⟩,
    hframe 0 _ _ rfl (.inr ⟨31, by decide, hbeyond⟩), ⟨hhigh, hstart⟩, hheader _ hhigh hstart⟩

end DetectorLink.Lvds
