import DetectorLink.Proofs.Packet.Parity

/-!
# Frames, halves and words

The parity bit of a frame follows from its other bits. A frame of even parity is therefore known by
its data half and its stop flag: frames are read to halves exactly when they are the frames of these
halves, and halves make words exactly when they are the halves of these words.
-/

namespace DetectorLink.Lvds

open Word

/-! ### One frame -/

theorem dataFrame_eq (half : UInt32) : dataFrame half = sealed frameBits (half &&& dataMask) := by
  have hf : half &&& dataMask &&& frameBits = half &&& dataMask := by
    rw [UInt32.and_assoc]
    rfl
  rw [dataFrame, sealed, hf]

theorem dataFrame_and_dataMask (half : UInt32) : dataFrame (half &&& dataMask) = dataFrame half := by
  rw [dataFrame, dataFrame, UInt32.and_assoc, UInt32.and_self]

theorem bit_dataFrame {i : Nat} (hi : i ≠ 16) (half : UInt32) :
    bit (dataFrame half) i = (bit half i && decide (i < 16)) := by
  rw [dataFrame_eq, bit_sealed hi, bit_and, bit_dataMask]

theorem bit_dataFrame_stop (half : UInt32) : bit (dataFrame half) 17 = false :=
  (bit_dataFrame (by decide) half).trans (Bool.and_false _)

theorem parity_stopped_dataFrame (stop : Bool) (half : UInt32) :
    parity (stopped stop (dataFrame half) &&& frameBits) = 0 := by
  have hparity : bit (half &&& dataMask) 16 = false := by
    rw [bit_and]
    exact Bool.and_false _
  rw [parity_stopped rfl rfl (bit_dataFrame_stop half), dataFrame_eq]
  exact parity_sealed rfl hparity

/-- A frame of even parity is known by its data half and its stop flag. -/
theorem eq_stopped_dataFrame_iff {frame half : UInt32} {stop : Bool} :
    frame = stopped stop (dataFrame half) ↔
      frameParityOk frame = true ∧ (frame &&& stopBit != 0) = stop ∧
        frame &&& dataMask = half &&& dataMask := by
  have hstop := bit_dataFrame_stop half
  rw [and_bne_zero bit_stopBit, frameParityOk, Bool.and_eq_true, beq_iff_eq, beq_iff_eq]
  constructor
  · rintro rfl
    refine ⟨⟨?_, parity_stopped_dataFrame stop half⟩, bit_stopped_stop hstop stop, ?_⟩
    · apply eq_of_bit_eq
      intro i hi
      by_cases h18 : i < 18
      · simp [h18]
      · rw [bit_and, bit_stopped (by omega) (by omega), bit_dataFrame (by omega)]
        simp
        omega
    · apply eq_of_bit_eq
      intro i hi
      by_cases h16 : i < 16
      · rw [bit_and, bit_and, bit_stopped (by omega) (by omega), bit_dataFrame (by omega)]
        simp [h16]
      · simp [h16]
  · rintro ⟨⟨hbits, hparity⟩, hs, hdata⟩
    apply eq_of_parity_eq (m := frameBits) rfl
    · intro i hi h16
      by_cases h17 : i = 17
      · rw [h17, hs, bit_stopped_stop hstop]
      · have hb := congrArg (bit · i) hbits
        have hd := congrArg (bit · i) hdata
        rw [bit_stopped h16 h17, bit_dataFrame h16]
        simp only [bit_and, bit_not, bit_frameBits, bit_dataMask, bit_zero] at hb hd
        by_cases hlt : i < 16
        · simpa [hlt] using hd
        · have h18 : ¬i < 18 := by omega
          simpa [hlt, h18, hi] using hb
    · rw [hparity, parity_stopped_dataFrame]

/-! ### A list of frames -/

theorem stopLast_cons (frame : UInt32) (rest : List UInt32) :
    stopLast (frame :: rest) = stopped rest.isEmpty frame :: stopLast rest := by
  cases rest <;> rfl

theorem isEmpty_stopLast (frames : List UInt32) : (stopLast frames).isEmpty = frames.isEmpty := by
  cases frames with
  | nil => rfl
  | cons frame rest =>
    rw [stopLast_cons]
    rfl

/-- Only the last frame is given a stop flag. -/
theorem getElem?_stopLast (frames : List UInt32) (i : Nat) :
    (stopLast frames)[i]? = frames[i]?.map (stopped (i + 1 == frames.length)) := by
  induction frames generalizing i with
  | nil => rfl
  | cons frame rest ih =>
    rw [stopLast_cons]
    cases i with
    | zero => cases rest <;> rfl
    | succ i =>
      rw [List.getElem?_cons_succ, List.getElem?_cons_succ, ih, List.length_cons]
      simp

theorem length_stopLast (frames : List UInt32) : (stopLast frames).length = frames.length := by
  induction frames with
  | nil => rfl
  | cons frame rest ih => rw [stopLast_cons, List.length_cons, List.length_cons, ih]

/-- A word that is no more than a data half. -/
def IsHalf (h : UInt32) : Prop := h &&& dataMask = h

/-- The first frame is read when its parity is even and its stop flag says whether it is the last. -/
theorem halves_cons_eq_ok_iff {index : Nat} {frame : UInt32} {rest hs : List UInt32} :
    halves index (frame :: rest) = .ok hs ↔
      (frameParityOk frame = true ∧ (frame &&& stopBit != 0) = rest.isEmpty) ∧
        ∃ t, halves (index + 1) rest = .ok t ∧ (frame &&& dataMask) :: t = hs := by
  rw [halves]
  by_cases hok : frameParityOk frame = true
  · by_cases hstop : (frame &&& stopBit != 0) = rest.isEmpty
    · cases hr : halves (index + 1) rest <;> simp [hok, hstop, Except.map]
    · simp [hok, hstop]
  · simp [hok]

/-- Frames are read to halves exactly when they are the frames of these halves. -/
theorem halves_eq_ok_iff {index : Nat} {frames hs : List UInt32} :
    halves index frames = .ok hs ↔
      (∀ h ∈ hs, IsHalf h) ∧ frames = stopLast (hs.map dataFrame) := by
  induction frames generalizing index hs with
  | nil =>
    constructor
    · intro h
      obtain rfl := Except.ok.inj h
      exact ⟨by simp, rfl⟩
    · rintro ⟨_, h⟩
      cases hs with
      | nil => rfl
      | cons half t =>
        rw [List.map_cons, stopLast_cons] at h
        contradiction
  | cons frame rest ih =>
    have hempty (t : List UInt32) (hr : rest = stopLast (t.map dataFrame)) :
        (t.map dataFrame).isEmpty = rest.isEmpty := by
      rw [hr, isEmpty_stopLast]
    rw [halves_cons_eq_ok_iff]
    constructor
    · rintro ⟨⟨hok, hstop⟩, t, hr, rfl⟩
      obtain ⟨ht, hrest⟩ := ih.mp hr
      refine ⟨List.forall_mem_cons.mpr ⟨?_, ht⟩, ?_⟩
      · rw [IsHalf, UInt32.and_assoc, UInt32.and_self]
      · rw [List.map_cons, stopLast_cons, ← hrest, hempty t hrest, dataFrame_and_dataMask,
          ← eq_stopped_dataFrame_iff.mpr ⟨hok, hstop, rfl⟩]
    · rintro ⟨hh, hf⟩
      cases hs with
      | nil => contradiction
      | cons half t =>
        rw [List.map_cons, stopLast_cons] at hf
        obtain ⟨hframe, hrest⟩ := List.cons.inj hf
        rw [hempty t hrest] at hframe
        obtain ⟨hok, hstop, hdata⟩ := eq_stopped_dataFrame_iff.mp hframe
        obtain ⟨hhalf, ht⟩ := List.forall_mem_cons.mp hh
        exact ⟨⟨hok, hstop⟩, t, ih.mpr ⟨ht, hrest⟩, by rw [hdata, hhalf]⟩

/-! ### Words -/

/-- Both halves of a word, the low one first. -/
def wordHalves (w : UInt32) : List UInt32 := [w &&& dataMask, (w >>> 16) &&& dataMask]

theorem map_dataFrame_wordHalves (w : UInt32) : (wordHalves w).map dataFrame = wordFrames w := by
  simp only [wordHalves, wordFrames, List.map_cons, List.map_nil, dataFrame_and_dataMask]

theorem map_dataFrame_flatMap (ws : List UInt32) :
    (ws.flatMap wordHalves).map dataFrame = ws.flatMap wordFrames := by
  rw [List.map_flatMap]
  simp only [map_dataFrame_wordHalves]

theorem isHalf_wordHalves (w : UInt32) : ∀ h ∈ wordHalves w, IsHalf h := by
  intro h hh
  simp only [wordHalves, List.mem_cons, List.not_mem_nil, or_false] at hh
  rcases hh with rfl | rfl <;> rw [IsHalf, UInt32.and_assoc, UInt32.and_self]

theorem joinHalves_wordHalves (w : UInt32) :
    joinHalves (w &&& dataMask) ((w >>> 16) &&& dataMask) = w := by
  have hs : (16 : UInt32).toNat % 32 = 16 := rfl
  apply eq_of_bit_eq
  intro i hi
  simp only [joinHalves, bit_or, bit_and, bit_shiftLeft, bit_shiftRight, bit_dataMask, hs]
  by_cases h16 : i < 16
  · have hn : ¬16 ≤ i := by omega
    simp [h16, hn]
  · have hn : 16 ≤ i := by omega
    have hlt : i - 16 < 16 := by omega
    simp [h16, hi, hn, hlt]

theorem wordHalves_joinHalves {low high : UInt32} (hl : IsHalf low) (hh : IsHalf high) :
    wordHalves (joinHalves low high) = [low, high] := by
  have hs : (16 : UInt32).toNat % 32 = 16 := rfl
  have hlow : joinHalves low high &&& dataMask = low := by
    rw [← hl]
    apply eq_of_bit_eq
    intro i hi
    simp only [joinHalves, bit_or, bit_and, bit_shiftLeft, bit_dataMask, hs]
    by_cases h16 : i < 16
    · have hn : ¬16 ≤ i := by omega
      simp [h16, hn]
    · simp [h16]
  have hhigh : (joinHalves low high >>> 16) &&& dataMask = high := by
    rw [← hl, ← hh]
    apply eq_of_bit_eq
    intro i hi
    simp only [joinHalves, bit_or, bit_and, bit_shiftLeft, bit_shiftRight, bit_dataMask, hs]
    by_cases h16 : i < 16
    · have hn : 16 + i < 32 := by omega
      have hge : ¬16 + i < 16 := by omega
      simp [h16, hn, hge]
    · simp [h16]
  rw [wordHalves, hlow, hhigh]

/-- Halves make words exactly when they are the halves of these words. -/
theorem eq_flatMap_wordHalves_iff {hs ws : List UInt32} :
    hs = ws.flatMap wordHalves ↔
      (∀ h ∈ hs, IsHalf h) ∧ hs.length % 2 = 0 ∧ pairs hs = ws := by
  constructor
  · rintro rfl
    induction ws with
    | nil => exact ⟨by simp, rfl, rfl⟩
    | cons w ws ih =>
      obtain ⟨hh, hl, hp⟩ := ih
      refine ⟨?_, ?_, ?_⟩
      · intro h hm
        rw [List.flatMap_cons] at hm
        rcases List.mem_append.mp hm with hm | hm
        · exact isHalf_wordHalves w h hm
        · exact hh h hm
      · rw [List.flatMap_cons, List.length_append, Nat.add_mod, hl]
        simp [wordHalves]
      · show joinHalves _ _ :: pairs (ws.flatMap wordHalves) = _
        rw [joinHalves_wordHalves, hp]
  · rintro ⟨hh, hl, rfl⟩
    fun_induction pairs hs with
    | case1 low high rest ih =>
      obtain ⟨hlow, hh⟩ := List.forall_mem_cons.mp hh
      obtain ⟨hhigh, hrest⟩ := List.forall_mem_cons.mp hh
      have hr : rest.length % 2 = 0 := by
        simp only [List.length_cons] at hl
        omega
      rw [List.flatMap_cons, wordHalves_joinHalves hlow hhigh, ← ih hrest hr]
      rfl
    | case2 hs hne =>
      rcases hs with _ | ⟨low, _ | ⟨high, rest⟩⟩
      · rfl
      · contradiction
      · exact absurd rfl (hne low high rest)

end DetectorLink.Lvds
