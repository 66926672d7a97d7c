import DetectorLink.Ring.Index

/-!
# Arithmetic of ring offsets

The offsets of a ring that starts empty stay below its size and on unit boundaries. For such
offsets the modular formulas lose their wrap: used and free bytes add up to all but one unit, and
moving an offset changes the used bytes by the distance moved. A span never shows more than the
used bytes.
-/

namespace DetectorLink.RingIndex

/-- Offsets inside a ring, on unit boundaries or not. -/
structure InRange (i : RingIndex) : Prop where
  producer_lt : i.producer < i.size
  consumer_lt : i.consumer < i.size

/-- Offsets on unit boundaries inside a ring of more than one unit. -/
structure WellFormed (i : RingIndex) : Prop where
  lt_size : alignment < i.size
  size_mod : i.size % 4 = 0
  producer_lt : i.producer < i.size
  producer_mod : i.producer % 4 = 0
  consumer_lt : i.consumer < i.size
  consumer_mod : i.consumer % 4 = 0

variable {i : RingIndex} {n : Nat}

@[simp] theorem size_produce : (i.produce n).size = i.size := rfl

@[simp] theorem consumer_produce : (i.produce n).consumer = i.consumer := rfl

@[simp] theorem size_consume : (i.consume n).size = i.size := rfl

@[simp] theorem producer_consume : (i.consume n).producer = i.producer := rfl

/-- Where the byte stands that comes `k` places after `offset`, around the end if need be. -/
def place (i : RingIndex) (offset k : Nat) : Nat :=
  if offset + k < i.size then offset + k else offset + k - i.size

@[simp] theorem place_produce : (i.produce n).place = i.place := rfl

@[simp] theorem place_consume : (i.consume n).place = i.place := rfl

private theorem mod_eq_place {offset : Nat} (ho : offset < i.size) (hn : n ≤ i.size) :
    (offset + n) % i.size = i.place offset n := by
  unfold place
  split
  · next h => exact Nat.mod_eq_of_lt h
  · next h =>
    rw [Nat.mod_eq_sub_mod (by omega)]
    exact Nat.mod_eq_of_lt (by omega)

/-- An empty ring of whole units, of more than one of them. -/
theorem wellFormed_empty {size : Nat} (hs : alignment < size) (hm : size % 4 = 0) :
    (empty size).WellFormed :=
  have hp : 0 < size := Nat.lt_of_le_of_lt (Nat.zero_le _) hs
  ⟨hs, hm, hp, rfl, hp, rfl⟩

theorem WellFormed.inRange (h : i.WellFormed) : i.InRange := ⟨h.producer_lt, h.consumer_lt⟩

/-- The used bytes lie between the offsets. -/
theorem InRange.used_of_le (h : i.InRange) (hle : i.consumer ≤ i.producer) :
    i.used = i.producer - i.consumer := by
  have hp := h.producer_lt
  rw [used, show i.size + i.producer - i.consumer = i.producer - i.consumer + i.size by omega,
    Nat.add_mod_right]
  exact Nat.mod_eq_of_lt (by omega)

/-- The used bytes go on at the start of the ring. -/
theorem InRange.used_of_lt (h : i.InRange) (hlt : i.producer < i.consumer) :
    i.used = i.size + i.producer - i.consumer := by
  have hc := h.consumer_lt
  exact Nat.mod_eq_of_lt (by omega)

theorem used_of_le (h : i.WellFormed) (hle : i.consumer ≤ i.producer) :
    i.used = i.producer - i.consumer := h.inRange.used_of_le hle

theorem used_of_lt (h : i.WellFormed) (hlt : i.producer < i.consumer) :
    i.used = i.size + i.producer - i.consumer := h.inRange.used_of_lt hlt

private theorem used_eq (h : i.WellFormed) :
    i.used = if i.consumer ≤ i.producer then i.producer - i.consumer
      else i.size + i.producer - i.consumer := by
  split
  · next hle => exact used_of_le h hle
  · next hlt => exact used_of_lt h (Nat.lt_of_not_le hlt)

/-- Whole units are used. -/
theorem used_mod (h : i.WellFormed) : i.used % 4 = 0 := by
  have := h.size_mod
  have := h.producer_mod
  have := h.consumer_mod
  rw [used_eq h]
  split <;> omega

/-- One unit stays free. -/
theorem used_le (h : i.WellFormed) : i.used ≤ i.size - alignment := by
  have := h.size_mod
  have := h.producer_mod
  have := h.consumer_mod
  have hp := h.producer_lt
  have hc := h.consumer_lt
  rw [used_eq h]
  simp only [alignment]
  split <;> omega

/-- What is neither used nor kept free may be written. -/
theorem free_eq (h : i.WellFormed) : i.free = i.size - alignment - i.used := by
  have := h.size_mod
  have := h.producer_mod
  have := h.consumer_mod
  have hp := h.producer_lt
  have hc := h.consumer_lt
  rw [used_eq h]
  simp only [free, alignment]
  split
  · next hle => exact (Nat.mod_eq_of_lt (by omega)).trans (by omega)
  · next hlt =>
    rw [Nat.mod_eq_sub_mod (by omega)]
    exact (Nat.mod_eq_of_lt (by omega)).trans (by omega)

/-- Nothing is waiting exactly when the offsets agree. -/
theorem isEmpty_iff (h : i.WellFormed) : i.isEmpty = true ↔ i.used = 0 := by
  have hp := h.producer_lt
  have hc := h.consumer_lt
  rw [used_eq h]
  simp only [isEmpty, beq_iff_eq]
  split <;> omega

/-- The ring is full exactly when nothing more may be written. -/
theorem isFull_iff (h : i.WellFormed) : i.isFull = true ↔ i.free = 0 := by
  have hu := used_le h
  rw [free_eq h]
  simp only [isFull, beq_iff_eq]
  omega

/-- Places add up. -/
theorem place_place {offset k : Nat} (ho : offset < i.size) (hk : k + n ≤ i.size) :
    i.place (i.place offset k) n = i.place offset (k + n) := by
  simp only [place]
  split <;> split <;> split <;> omega

/-- The used bytes reach up to the producer. -/
theorem place_used (h : i.WellFormed) : i.place i.consumer i.used = i.producer := by
  have hp := h.producer_lt
  have hc := h.consumer_lt
  by_cases hle : i.consumer ≤ i.producer
  · rw [used_of_le h hle, place]
    split <;> omega
  · rw [used_of_lt h (by omega), place]
    split <;> omega

/-- No used byte lies among those that may be written. -/
theorem place_of_lt_used (h : i.WellFormed) {k : Nat} (hk : k < i.used) (hn : n ≤ i.free) :
    (i.producer ≤ i.place i.consumer k → i.producer + n ≤ i.place i.consumer k) ∧
      i.producer + n ≤ i.place i.consumer k + i.size := by
  have hp := h.producer_lt
  have hc := h.consumer_lt
  rw [free_eq h] at hn
  by_cases hle : i.consumer ≤ i.producer
  · rw [used_of_le h hle] at hk hn
    simp only [place]
    split <;> omega
  · rw [used_of_lt h (by omega)] at hk hn
    simp only [place]
    split <;> omega

/-- Where the producer stands after writing. -/
theorem producer_produce (h : i.WellFormed) (hn : n ≤ i.free) :
    (i.produce n).producer = i.place i.producer n := by
  rw [free_eq h] at hn
  exact mod_eq_place h.producer_lt (by omega)

/-- Where the consumer stands after reading. -/
theorem consumer_consume (h : i.WellFormed) (hn : n ≤ i.used) :
    (i.consume n).consumer = i.place i.consumer n := by
  have := used_le h
  exact mod_eq_place h.consumer_lt (by omega)

/-- Reading does not step over the producer. -/
theorem consume_consumer_le (h : i.WellFormed) (hn : n ≤ i.used) (hle : i.consumer ≤ i.producer) :
    (i.consume n).consumer ≤ i.producer := by
  have hp := h.producer_lt
  rw [consumer_consume h hn, place]
  rw [used_of_le h hle] at hn
  split <;> omega

/-- Writing whole units into free bytes keeps the offsets in the ring. -/
theorem wellFormed_produce (h : i.WellFormed) (hn : n ≤ i.free) (hm : n % 4 = 0) :
    (i.produce n).WellFormed := by
  have hs := h.size_mod
  have hp := h.producer_mod
  have hl := h.lt_size
  refine ⟨hl, hs, Nat.mod_lt _ (Nat.zero_lt_of_lt hl), ?_, h.consumer_lt, h.consumer_mod⟩
  rw [producer_produce h hn, place]
  split <;> omega

/-- Reading whole units of used bytes keeps the offsets in the ring. -/
theorem wellFormed_consume (h : i.WellFormed) (hn : n ≤ i.used) (hm : n % 4 = 0) :
    (i.consume n).WellFormed := by
  have hs := h.size_mod
  have hc := h.consumer_mod
  have hl := h.lt_size
  refine ⟨hl, hs, h.producer_lt, h.producer_mod, Nat.mod_lt _ (Nat.zero_lt_of_lt hl), ?_⟩
  rw [consumer_consume h hn, place]
  split <;> omega

/-- Written bytes are used. -/
theorem used_produce (h : i.WellFormed) (hn : n ≤ i.free) (hm : n % 4 = 0) :
    (i.produce n).used = i.used + n := by
  have hp := h.producer_lt
  have hc := h.consumer_lt
  have hf := free_eq h
  have hw := producer_produce h hn
  rw [place] at hw
  have hu : (i.produce n).used = if i.consumer ≤ (i.produce n).producer
      then (i.produce n).producer - i.consumer
      else i.size + (i.produce n).producer - i.consumer := used_eq (wellFormed_produce h hn hm)
  have hl := h.lt_size
  rw [hu, used_eq h]
  rw [used_eq h] at hf
  simp only [alignment] at hf hl
  split at hw <;> split <;> split <;> split at hf <;> omega

/-- Read bytes are not used any more. -/
theorem used_consume (h : i.WellFormed) (hn : n ≤ i.used) (hm : n % 4 = 0) :
    (i.consume n).used = i.used - n := by
  have hp := h.producer_lt
  have hc := h.consumer_lt
  have hw := consumer_consume h hn
  rw [place] at hw
  have hu : (i.consume n).used = if (i.consume n).consumer ≤ i.producer
      then i.producer - (i.consume n).consumer
      else i.size + i.producer - (i.consume n).consumer := used_eq (wellFormed_consume h hn hm)
  rw [hu, used_eq h]
  rw [used_eq h] at hn
  split at hw <;> split <;> split <;> split at hn <;> omega

/-- The three shapes of a span. -/
theorem window_cases (i : RingIndex) (rollover : Nat) :
    (i.consumer ≤ i.producer ∧
      i.window rollover = .direct i.consumer (i.producer - i.consumer)) ∨
    (i.producer < i.consumer ∧ rollover ≤ i.size - i.consumer ∧
      i.window rollover = .direct i.consumer (i.size - i.consumer)) ∨
    (i.producer < i.consumer ∧ i.size - i.consumer < rollover ∧
      i.window rollover = .rollover (i.size - i.consumer)
        (min (rollover - (i.size - i.consumer)) i.producer)) := by
  by_cases hle : i.consumer ≤ i.producer
  · exact .inl ⟨hle, by simp only [window, hle, ite_true]⟩
  · by_cases hr : rollover ≤ i.size - i.consumer
    · exact .inr (.inl ⟨by omega, hr, by simp only [window, hle, hr, ite_false, ite_true]⟩)
    · exact .inr (.inr ⟨by omega, by omega, by simp only [window, hle, hr, ite_false]⟩)

/-- A span shows the used bytes up to the end of the ring, and more of them up to the rollover
limit. -/
theorem InRange.window_length_eq (h : i.InRange) (rollover : Nat) :
    (i.window rollover).length = min i.used (max (i.size - i.consumer) rollover) := by
  have hp := h.producer_lt
  have hc := h.consumer_lt
  rcases window_cases i rollover with ⟨hle, hw⟩ | ⟨hlt, _, hw⟩ | ⟨hlt, _, hw⟩
  · rw [hw, h.used_of_le hle, RingSpan.length]
    omega
  · rw [hw, h.used_of_lt hlt, RingSpan.length]
    omega
  · rw [hw, h.used_of_lt hlt, RingSpan.length]
    omega

theorem window_length_eq (h : i.WellFormed) (rollover : Nat) :
    (i.window rollover).length = min i.used (max (i.size - i.consumer) rollover) :=
  h.inRange.window_length_eq rollover

/-- A span shows no more than the used bytes. -/
theorem InRange.window_length_le (h : i.InRange) (rollover : Nat) :
    (i.window rollover).length ≤ i.used := by
  rw [h.window_length_eq]
  exact Nat.min_le_left _ _

theorem window_length_le (h : i.WellFormed) (rollover : Nat) :
    (i.window rollover).length ≤ i.used := h.inRange.window_length_le rollover

/-- A span shows something as long as bytes are used. -/
theorem window_length_pos (h : i.WellFormed) (rollover : Nat) (hu : 0 < i.used) :
    0 < (i.window rollover).length := by
  have hc := h.consumer_lt
  rw [window_length_eq h]
  omega

/-- A span shows whole units, if the rollover limit is made of them. -/
theorem window_length_mod (h : i.WellFormed) {rollover : Nat} (hr : rollover % 4 = 0) :
    (i.window rollover).length % 4 = 0 := by
  have hs := h.size_mod
  have hp := h.producer_mod
  have hc := h.consumer_mod
  have hl := h.consumer_lt
  rcases window_cases i rollover with ⟨hle, hw⟩ | ⟨hlt, _, hw⟩ | ⟨hlt, _, hw⟩ <;>
    rw [hw, RingSpan.length] <;> omega

/-- A span that hides used bytes shows at least the rollover limit. -/
theorem InRange.le_window_length (h : i.InRange) {rollover : Nat}
    (hlt : (i.window rollover).length < i.used) : rollover ≤ (i.window rollover).length := by
  rw [h.window_length_eq] at hlt ⊢
  omega

theorem le_window_length (h : i.WellFormed) {rollover : Nat}
    (hlt : (i.window rollover).length < i.used) : rollover ≤ (i.window rollover).length :=
  h.inRange.le_window_length hlt

end DetectorLink.RingIndex
