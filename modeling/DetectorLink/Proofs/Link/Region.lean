import DetectorLink.Link.Hardware
import DetectorLink.Packet.Walk
import DetectorLink.Proofs.Link.Driver
import DetectorLink.Proofs.Link.Effect
import DetectorLink.Proofs.Ring.Offsets

/-!
# The receive region

The region is read from the consumer offset on, going round at its end. Whatever the offsets are and
however small the region is, the bytes of a span are the next ones in this order, also where they
are put together from the end of the region and its start. A span that leaves out pending bytes is
at least as long as any packet.
-/

namespace DetectorLink.Hardware

section Length

variable (h : Hardware)

/-- The offsets when the driver reports a producer offset. -/
def index (producer : UInt32) : RingIndex :=
  ⟨h.regionSize, producer.toNat % h.regionSize, h.consumer⟩

/-- Number of bytes that wait when the driver reports a producer offset. -/
def available (producer : UInt32) : Nat := (h.index producer).used

/-- Number of bytes that are shown when the driver reports a producer offset. -/
def windowLength (producer : UInt32) : Nat :=
  alignDown ((h.index producer).window Packet.maxLength).length

variable {h} {producer : UInt32}

theorem inRange_index (hc : h.consumer < h.regionSize) (producer : UInt32) :
    (h.index producer).InRange :=
  ⟨Nat.mod_lt _ (Nat.lt_of_le_of_lt (Nat.zero_le _) hc), hc⟩

/-- Fewer bytes wait than the region has. -/
theorem available_lt (hc : h.consumer < h.regionSize) (producer : UInt32) :
    h.available producer < h.regionSize :=
  Nat.mod_lt _ (Nat.lt_of_le_of_lt (Nat.zero_le _) hc)

/-- Whole words are shown. -/
theorem windowLength_mod : h.windowLength producer % 4 = 0 := alignDown_mod _

/-- No more is shown than waits. -/
theorem windowLength_le (hc : h.consumer < h.regionSize) :
    h.windowLength producer ≤ h.available producer :=
  Nat.le_trans (alignDown_le _) ((inRange_index hc producer).window_length_le _)

/-- All whole words that wait are shown, or as many bytes as any packet has. -/
theorem windowLength_cases (hc : h.consumer < h.regionSize) (producer : UInt32) :
    h.windowLength producer = alignDown (h.available producer) ∨
      Packet.maxLength ≤ h.windowLength producer := by
  have hi := inRange_index hc producer
  have hle := hi.window_length_le Packet.maxLength
  by_cases hlt : ((h.index producer).window Packet.maxLength).length < (h.index producer).used
  · refine .inr ?_
    have hmax : alignDown Packet.maxLength = Packet.maxLength := by decide
    rw [← hmax]
    exact Nat.mul_le_mul_right _ (Nat.div_le_div_right (hi.le_window_length hlt))
  · refine .inl (congrArg alignDown ?_)
    exact Nat.le_antisymm hle (Nat.le_of_not_lt hlt)

/-- Something is shown as soon as a word waits. -/
theorem windowLength_pos (hc : h.consumer < h.regionSize)
    (ha : alignment ≤ h.available producer) : 0 < h.windowLength producer := by
  rcases windowLength_cases hc producer with hl | hl
  · rw [hl]
    exact Nat.mul_pos (Nat.div_pos ha (by decide)) (by decide)
  · exact Nat.lt_of_lt_of_le (by decide) hl

/-- A packet that waits is shown to its end. -/
theorem le_windowLength {n : Nat} (hc : h.consumer < h.regionSize)
    (hmax : n ≤ Packet.maxLength) (hmod : n % alignment = 0) (ha : n ≤ h.available producer) :
    n ≤ h.windowLength producer := by
  rcases windowLength_cases hc producer with hl | hl
  · rw [hl, ← alignDown_of_mod_eq_zero hmod]
    exact Nat.mul_le_mul_right _ (Nat.div_le_div_right ha)
  · exact Nat.le_trans hmax hl

end Length

section Contents

variable {δ : Type} [Driver δ] [MappedMemory δ] (h : Hardware) (d : δ)

/-- The next `n` bytes of the region from the consumer offset on, going round at its end. -/
def cyclic (n : Nat) : Bytes :=
  (List.range n).map fun i ↦ MappedMemory.byte d (regionAddress + (h.consumer + i) % h.regionSize)

@[simp] theorem length_cyclic (n : Nat) : (h.cyclic d n).length = n := by
  rw [cyclic, List.length_map, List.length_range]

/-- The next bytes are the first ones of more bytes. -/
theorem take_cyclic {m n : Nat} (hm : m ≤ n) : (h.cyclic d n).take m = h.cyclic d m := by
  rw [cyclic, ← List.map_take, List.take_range, Nat.min_eq_left hm, cyclic]

variable {h}

/-- Bytes that are loaded in one piece from the consumer offset on. -/
theorem load_eq_cyclic {n : Nat} (hn : h.consumer + n ≤ h.regionSize) :
    Driver.load (regionAddress + h.consumer) n d = h.cyclic d n := by
  rw [MappedMemory.load_eq, cyclic]
  refine List.map_congr_left fun i hi ↦ ?_
  have hlt := List.mem_range.mp hi
  rw [Nat.mod_eq_of_lt (by omega), Nat.add_assoc]

/-- Bytes up to the end of the region, and behind them those at its start. -/
theorem load_append_load_eq_cyclic {head tail : Nat} (hh : h.consumer + head = h.regionSize)
    (ht : tail ≤ h.consumer) :
    Driver.load (regionAddress + h.consumer) head d ++ Driver.load regionAddress tail d =
      h.cyclic d (head + tail) := by
  rw [load_eq_cyclic d (Nat.le_of_eq hh), MappedMemory.load_eq, cyclic, cyclic, List.range_add,
    List.map_append, List.map_map]
  congr 1
  refine List.map_congr_left fun i hi ↦ ?_
  have hlt := List.mem_range.mp hi
  show _ = MappedMemory.byte d (regionAddress + (h.consumer + (head + i)) % h.regionSize)
  rw [← Nat.add_assoc, hh, Nat.add_mod_left]
  by_cases hz : i < h.regionSize
  · rw [Nat.mod_eq_of_lt hz]
  · omega

/-- The bytes of a span are the next ones of the region. -/
theorem spanBytes_eq_cyclic (hc : h.consumer < h.regionSize) (producer : UInt32) :
    h.spanBytes ((h.index producer).window Packet.maxLength) d =
      h.cyclic d ((h.index producer).window Packet.maxLength).length := by
  have hi := inRange_index hc producer
  have hp := hi.producer_lt
  change (h.index producer).producer < h.regionSize at hp
  rcases (h.index producer).window_cases Packet.maxLength with
    ⟨hle, hw⟩ | ⟨hlt, _, hw⟩ | ⟨hlt, _, hw⟩
  · change h.consumer ≤ (h.index producer).producer at hle
    rw [hw]
    refine load_eq_cyclic d ?_
    show h.consumer + ((h.index producer).producer - h.consumer) ≤ _
    omega
  · rw [hw]
    refine load_eq_cyclic d ?_
    show h.consumer + (h.regionSize - h.consumer) ≤ _
    omega
  · change (h.index producer).producer < h.consumer at hlt
    rw [hw]
    refine load_append_load_eq_cyclic d ?_ ?_
    · show h.consumer + (h.regionSize - h.consumer) = _
      omega
    · exact Nat.le_trans (Nat.min_le_right _ _) (Nat.le_of_lt hlt)

/-- What is shown when the driver reports a producer offset: the next whole words of the region, if
there are any. -/
theorem exec_showWindow (hc : h.consumer < h.regionSize) (producer : UInt32) :
    (showWindow producer).exec (h, d) =
      if h.windowLength producer = 0 then (.ok none, (h, d))
      else (.ok (some (h.cyclic d (h.windowLength producer))),
        ({ h with window := h.windowLength producer }, d)) := by
  have hs := spanBytes_eq_cyclic d hc producer
  have ht := take_cyclic h d (alignDown_le ((h.index producer).window Packet.maxLength).length)
  rw [← hs] at ht
  rw [windowLength, ← ht]
  rfl

/-- A packet that starts the waiting bytes is shown to its end. -/
theorem validLength?_le_windowLength (hc : h.consumer < h.regionSize) {producer : UInt32} {n : Nat}
    (hn : Packet.validLength? (h.cyclic d (h.available producer)) = some n) :
    n ≤ h.windowLength producer := by
  obtain ⟨_, hmax, hmod, hlen⟩ := Packet.validLength?_bounds hn
  rw [length_cyclic] at hlen
  exact le_windowLength hc hmax hmod hlen

end Contents

end DetectorLink.Hardware
