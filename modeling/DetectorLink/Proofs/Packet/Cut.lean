import DetectorLink.Packet.Build
import DetectorLink.Proofs.SharedWindow.Walkers

/-!
# Packets in a cut stream

Whatever its info word says, a packet that was built is as long as it declares and of an allowed
length. Such a whole packet is recognised wherever it stands. Packets sent one after the other are
therefore received one after the other: when the stream is cut, those in front of the cut are found,
and the one that the cut goes through is not.
-/

namespace DetectorLink.Packet

/-- Packets as they are built for sending. -/
inductive Built (p : Packet) : Prop
  | ofWords {destination source info : UInt32} {payload : List UInt32}
      (h : ofWords destination source info payload = .ok p)
  | direct {destination : UInt32} {command : Command} {channel : UInt8} {payload : List UInt32}
      (h : direct destination command channel payload = .ok p)
  | passThrough {destination : UInt32} {command : Command} {channel : UInt8} {payload : Bytes}
      (h : passThrough destination command channel payload = .ok p)

/-- The bytes of packets that are sent one after the other. -/
def stream (ps : List Packet) : Bytes := (ps.map window).flatten

theorem stream_cons (p : Packet) (ps : List Packet) : stream (p :: ps) = p.window ++ stream ps :=
  rfl

theorem stream_append (ps qs : List Packet) : stream (ps ++ qs) = stream ps ++ stream qs := by
  rw [stream, List.map_append, List.flatten_append]
  rfl

/-- Behind the first packets of a stream are the others. -/
theorem drop_stream (ps : List Packet) (k : Nat) :
    (stream ps).drop (stream (ps.take k)).length = stream (ps.drop k) := by
  have hsplit : stream ps = stream (ps.take k) ++ stream (ps.drop k) := by
    rw [← stream_append, List.take_append_drop]
  rw [hsplit, List.drop_left]

/-- The first packets of a stream, and the next ones, are the first packets of it. -/
theorem length_stream_take_add (ps : List Packet) (j k : Nat) :
    (stream (ps.take (j + k))).length =
      (stream (ps.take j)).length + (stream ((ps.drop j).take k)).length := by
  rw [List.take_add, stream_append, List.length_append]

variable {p : Packet}

theorem ofWords_eq_ok_iff {destination source info : UInt32} {payload : List UInt32} :
    Packet.ofWords destination source info payload = .ok p ↔
      Header.byteCount + 4 * payload.length ≤ maxLength ∧
        ⟨⟨destination, source, info, UInt32.ofNat (4 * payload.length), 0, 0⟩,
          Word.toByteList payload⟩ = p := by
  dsimp only [Packet.ofWords]
  split
  · next h => simp only [reduceCtorEq, Nat.not_le.mpr h, false_and]
  · next h => simp only [Except.ok.injEq, Nat.not_lt.mp h, true_and]

/-- A pass-through command is assembled from its framed words. -/
theorem ofWords_of_passThrough {destination : UInt32} {command : Command} {channel : UInt8}
    {payload : Bytes} (h : Packet.passThrough destination command channel payload = .ok p) :
    let framed := Lvds.encode ((CommandInfo.request command).withChannel channel) destination
      (Word.ofPadded payload)
    Packet.ofWords HardwareId.broadcast HardwareId.self framed.1 framed.2 = .ok p := by
  dsimp only [Packet.passThrough] at h
  by_cases hl : maxLength < framedLength destination payload.length
  · rw [ite_cond_eq_true _ _ (eq_true hl)] at h
    contradiction
  · rw [ite_cond_eq_false _ _ (eq_false hl)] at h
    exact h

namespace Built

/-- Every way to build a packet ends in assembling it from words. -/
theorem exists_ofWords (hb : Built p) :
    ∃ destination source info payload,
      Packet.ofWords destination source info payload = .ok p := by
  cases hb with
  | ofWords h => exact ⟨_, _, _, _, h⟩
  | direct h => exact ⟨_, _, _, _, h⟩
  | passThrough h => exact ⟨_, _, _, _, ofWords_of_passThrough h⟩

/-- A packet declares the bytes it was built with, which are whole words and not too many. -/
theorem toNat_payloadLength (hb : Built p) :
    p.header.payloadLength.toNat = p.rest.length ∧ p.rest.length % 4 = 0 ∧
      Header.byteCount + p.rest.length ≤ maxLength := by
  obtain ⟨destination, source, info, payload, h⟩ := hb.exists_ofWords
  obtain ⟨hmax, rfl⟩ := ofWords_eq_ok_iff.mp h
  have hlimit : maxLength = 14424 := rfl
  have hrest : (Word.toByteList payload).length = 4 * payload.length :=
    Word.length_toByteList payload
  show (UInt32.ofNat (4 * payload.length)).toNat = _ ∧ _
  rw [UInt32.toNat_ofNat', Nat.mod_eq_of_lt (by omega), hrest]
  exact ⟨rfl, Nat.mul_mod_right 4 _, hmax⟩

/-- A packet is as long as it declares, which keeps the alignment rules under any info word. -/
theorem length_eq (hb : Built p) : p.length = p.window.length ∧ allowedLength p.length = true := by
  obtain ⟨hpayload, hwords, hmax⟩ := hb.toNat_payloadLength
  have hcount : Header.byteCount = 24 := rfl
  have hdeclared : p.declaredLength = Header.byteCount + p.rest.length :=
    congrArg (Header.byteCount + ·) hpayload
  have hunit : p.declaredLength % p.lengthUnit = 0 := by
    unfold lengthUnit
    split <;> omega
  have hlength : p.length = Header.byteCount + p.rest.length := by
    rw [length, ite_cond_eq_true _ _ (eq_true hunit), hdeclared]
  refine ⟨hlength.trans (length_window p).symm, ?_⟩
  have hmod : (Header.byteCount + p.rest.length) % 4 = 0 := by omega
  simp only [allowedLength, hlength, Bool.and_eq_true, decide_eq_true_eq]
  exact ⟨⟨Nat.le_add_right _ _, hmax⟩, hmod⟩

/-- A packet that was built has no bytes that are not its own. -/
theorem bytes_eq (hb : Built p) : p.bytes = p.window := by
  rw [bytes, hb.length_eq.1, length_window, Nat.add_sub_cancel_left, List.take_length, window]

theorem whole (hb : Built p) : p.Whole := by
  obtain ⟨hlength, hallowed⟩ := hb.length_eq
  simp only [allowedLength, Bool.and_eq_true, decide_eq_true_eq] at hallowed
  obtain ⟨⟨hmin, hmax⟩, hunits⟩ := hallowed
  exact ⟨hmin, hmax, hunits, hb.bytes_eq.symm, hb.bytes_eq ▸ hlength.symm⟩

end Built

namespace Whole

/-- A packet is recognised in front of anything. -/
theorem validLength?_window_append (hp : Whole p) (more : Bytes) :
    validLength? (p.window ++ more) = some p.window.length := by
  have hlength : p.length = p.window.length := by rw [hp.window_eq, hp.length_bytes]
  have hallowed : allowedLength p.length = true := by
    simp only [allowedLength, Bool.and_eq_true, decide_eq_true_eq]
    exact ⟨⟨hp.min_le, hp.le_max⟩, hp.units⟩
  have hparse : parse p.window = .ok p := parse_eq_ok_iff.mpr rfl
  exact validLength?_append (validLength?_eq_some_iff.mpr
    ⟨p, hparse, hlength, hlength ▸ hallowed, Nat.le_refl _⟩) more

/-- A packet is recognised in front of anything, unless it is cut off. -/
theorem validLength?_take (hp : Whole p) (more : Bytes) (k : Nat) :
    validLength? ((p.window ++ more).take k) =
      if p.window.length ≤ k then some p.window.length else none := by
  have hv := hp.validLength?_window_append more
  split
  · next h => exact validLength?_take_iff.mpr ⟨hv, h⟩
  · next h =>
    rw [Option.eq_none_iff_forall_ne_some]
    intro n hn
    obtain ⟨hn, hk⟩ := validLength?_take_iff.mp hn
    obtain rfl := Option.some.inj (hv.symm.trans hn)
    exact h hk

/-- A walk over a cut stream takes the packet at its start and goes on behind it. -/
theorem walk_take (hp : Whole p) (more : Bytes) {k : Nat} (hk : p.window.length ≤ k) :
    walk ((p.window ++ more).take k) = p :: walk (more.take (k - p.window.length)) := by
  have hv := hp.validLength?_take more k
  rw [ite_cond_eq_true _ _ (eq_true hk)] at hv
  obtain ⟨q, hq, _, _, hw⟩ := exists_walk_eq_cons hv
  rw [List.take_take, Nat.min_eq_left hk, List.take_left', parse_eq_ok_iff.mpr rfl] at hq
  obtain rfl := Except.ok.inj hq
  rw [hw, List.drop_take, List.drop_left']
  all_goals rfl

end Whole

/-- A walk over a cut stream shows the packets in front of the cut. -/
theorem exists_walk_stream_take {ps : List Packet} (hps : ∀ p ∈ ps, Whole p) (k : Nat) :
    ∃ j ≤ ps.length, (∀ i < ps.length, i < j ↔ (stream (ps.take (i + 1))).length ≤ k) ∧
      walk ((stream ps).take k) = ps.take j := by
  induction ps generalizing k with
  | nil =>
    refine ⟨0, Nat.le_refl 0, nofun, ?_⟩
    rw [show stream [] = [] from rfl, List.take_nil]
    exact walk_of_none rfl
  | cons p ps ih =>
    have hp : Whole p := hps p List.mem_cons_self
    have hlength (i : Nat) : (stream ((p :: ps).take (i + 1))).length =
        p.window.length + (stream (ps.take i)).length := by
      rw [List.take_succ_cons, stream_cons, List.length_append]
    by_cases hk : p.window.length ≤ k
    · obtain ⟨j, hj, hiff, hw⟩ :=
        ih (fun q hq ↦ hps q (List.mem_cons_of_mem p hq)) (k - p.window.length)
      refine ⟨j + 1, Nat.succ_le_succ hj, ?_, ?_⟩
      · intro i hi
        rw [hlength]
        cases i with
        | zero => exact ⟨fun _ ↦ hk, fun _ ↦ Nat.succ_pos j⟩
        | succ i =>
          rw [Nat.succ_lt_succ_iff, hiff i (Nat.lt_of_succ_lt_succ hi)]
          omega
      · rw [stream_cons, hp.walk_take _ hk, hw, List.take_succ_cons]
    · -- the cut goes through the first packet, so that all of them end behind it
      refine ⟨0, Nat.zero_le _, ?_, ?_⟩
      · intro i _
        rw [hlength]
        omega
      · rw [stream_cons]
        apply walk_of_none
        rw [hp.validLength?_take, ite_cond_eq_false _ _ (eq_false hk)]

/-- A walk over a window at the start of a stream shows the first packets, and all of them if the
window shows the whole stream. -/
theorem exists_walk_of_prefix_stream {ps : List Packet} (hps : ∀ p ∈ ps, Whole p) {shown : Bytes}
    (h : shown <+: stream ps) :
    ∃ j ≤ ps.length, walk shown = ps.take j ∧
      ((stream ps).length ≤ shown.length → j = ps.length) := by
  obtain ⟨j, hj, hiff, hw⟩ := exists_walk_stream_take hps shown.length
  rw [← List.prefix_iff_eq_take.mp h] at hw
  refine ⟨j, hj, hw, fun hall ↦ ?_⟩
  cases hn : ps.length with
  | zero => exact Nat.eq_zero_of_le_zero (hn ▸ hj)
  | succ i =>
    have hlast : i < j := (hiff i (by omega)).mpr <| by
      rwa [List.take_of_length_le (Nat.le_of_eq hn)]
    omega

/-- No window at the start of a stream starts with a header that no packet can have. -/
theorem corruptHead_of_prefix_stream {ps : List Packet} (hps : ∀ p ∈ ps, Whole p) {shown : Bytes}
    (h : shown <+: stream ps) : corruptHead shown = false := by
  rw [Bool.eq_false_iff]
  intro hc
  cases ps with
  | nil =>
    rw [List.prefix_nil.mp h] at hc
    contradiction
  | cons p ps =>
    obtain ⟨more, hmore⟩ := h
    have hnone := validLength?_of_corruptHead (corruptHead_append hc more)
    rw [hmore, stream_cons, (hps p List.mem_cons_self).validLength?_window_append] at hnone
    contradiction

/-- Of packets sent one after the other, those that end in front of a cut are found: the valid
prefix is as long as they are and counts them, and a reservation of the window shows them with
exactly the bytes they were built with. Where the cut goes through a packet, none is found. -/
theorem validPrefix_stream_take (ps : List Packet) (hps : ∀ p ∈ ps, Built p) (k : Nat) :
    let cut := (stream ps).take k
    ∃ j ≤ ps.length, (∀ i < ps.length, i < j ↔ (stream (ps.take (i + 1))).length ≤ k) ∧
      validPrefix cut = ((stream (ps.take j)).length, j) ∧
      (Reservation.mk cut).packetList = ps.take j ∧
      (Reservation.mk cut).packetList.map bytes = (ps.take j).map window ∧
      ∀ i < ps.length, (stream (ps.take i)).length ≤ k → k < (stream (ps.take (i + 1))).length →
        i = j ∧ validLength? (cut.drop (stream (ps.take i)).length) = none := by
  intro cut
  obtain ⟨j, hj, hiff, hw⟩ := exists_walk_stream_take (fun p hp ↦ (hps p hp).whole) k
  have hbytes : (ps.take j).map bytes = (ps.take j).map window :=
    List.map_congr_left fun p hp ↦ (hps p (List.mem_of_mem_take hp)).bytes_eq
  have hvalid : validPrefix cut = ((stream (ps.take j)).length, j) := by
    rw [validPrefix_eq, hw, hbytes, List.length_take_of_le hj]
    rfl
  have hlist : (Reservation.mk cut).packetList = ps.take j :=
    (Reservation.packetList_eq _).trans hw
  refine ⟨j, hj, hiff, hvalid, hlist, hlist ▸ hbytes, ?_⟩
  intro i hi hstart hend
  have hij : i = j := by
    have hge : ¬i < j := fun h ↦ Nat.not_le.mpr hend ((hiff i hi).mp h)
    cases i with
    | zero => omega
    | succ i =>
      have hlt : i < j := (hiff i (Nat.lt_of_succ_lt hi)).mpr hstart
      omega
  have hnone := validLength?_drop_validPrefix cut
  rw [hvalid] at hnone
  exact ⟨hij, hij ▸ hnone⟩

/-- A packet with an outgoing pass-through info word and a command are found in front of a framed
command that lacks the end of its payload. -/
theorem validPrefix_stream_take_three :
    let relayed : Packet := ⟨⟨1, 2, 0xC0000000, 4, 0, 0⟩, [5, 0, 0, 0]⟩
    let status : Packet := ⟨⟨7, HardwareId.self, 0x80000022, 0, 0, 0⟩, []⟩
    let config : Packet := ⟨⟨HardwareId.broadcast, HardwareId.self, 0xC00C1130, 16, 0, 0⟩,
      [13, 12, 1, 0, 11, 10, 1, 0, 1, 2, 0, 0, 3, 0, 3, 0]⟩
    let cut := (stream [relayed, status, config]).take 83
    Packet.ofWords 1 2 0xC0000000 [5] = .ok relayed ∧
      Packet.direct 7 .readStatus 0 [] = .ok status ∧
      Packet.passThrough 0x0A0B0C0D .writeConfig 2 [1, 2, 3] = .ok config ∧
      validPrefix cut = (52, 2) ∧ (Reservation.mk cut).packetList = [relayed, status] ∧
      validLength? (cut.drop 52) = none := by
  intro relayed status config cut
  have hrelayed : Packet.ofWords 1 2 0xC0000000 [5] = .ok relayed := by rfl
  have hstatus : Packet.direct 7 .readStatus 0 [] = .ok status := by rfl
  have hconfig : Packet.passThrough 0x0A0B0C0D .writeConfig 2 [1, 2, 3] = .ok config := by rfl
  have hbuilt : ∀ p ∈ [relayed, status, config], Built p := by
    simp only [List.forall_mem_cons, List.not_mem_nil, false_implies, implies_true, and_true]
    exact ⟨.ofWords hrelayed, .direct hstatus, .passThrough hconfig⟩
  obtain ⟨j, _, _, hvalid, hlist, _, hcut⟩ := validPrefix_stream_take _ hbuilt 83
  obtain ⟨rfl, hnone⟩ := hcut 2 (by decide) (by decide) (by decide)
  exact ⟨hrelayed, hstatus, hconfig, hvalid, hlist, hnone⟩

end DetectorLink.Packet
