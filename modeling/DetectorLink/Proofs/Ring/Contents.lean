import DetectorLink.Proofs.Ring.Offsets
import DetectorLink.Ring.Basic

/-!
# What a ring holds

The pending bytes of a ring are read from the consumer on, around the end of the memory. Pushing
appends to them, consuming drops from their front, and a window shows a part of their front, also
where it is put together from both ends of the memory.
-/

namespace DetectorLink

namespace Storage

/-- Which byte stands where after a write that leaves no gap. -/
theorem getElem?_write (s : Storage) {offset : Nat} (data : Bytes)
    (ho : offset ≤ s.toList.length) (j : Nat) :
    (s.write offset data).toList[j]? =
      if offset ≤ j ∧ j < offset + data.length then data[j - offset]? else s.toList[j]? := by
  have ht : (s.toList.take offset).length = offset := List.length_take_of_le ho
  rw [toList_write, List.append_assoc, List.getElem?_append, ht, List.getElem?_append]
  split
  · next hj =>
    rw [List.getElem?_take_of_lt hj, ite_cond_eq_false _ _ (eq_false (by omega))]
  · next hj =>
    split
    · next hd => rw [ite_cond_eq_true _ _ (eq_true ⟨by omega, by omega⟩)]
    · next hd =>
      rw [ite_cond_eq_false _ _ (eq_false (by omega)), List.getElem?_drop]
      congr 1
      omega

/-- A write that leaves no gap extends the memory to its own end, if that lies behind. -/
theorem length_write (s : Storage) {offset : Nat} (data : Bytes)
    (ho : offset ≤ s.toList.length) :
    (s.write offset data).toList.length = max s.toList.length (offset + data.length) := by
  simp only [toList_write, List.length_append, List.length_take, List.length_drop]
  omega

end Storage

namespace Ring

/-- Offsets in order, and memory written as far as they reach. -/
structure WellFormed (r : Ring) : Prop where
  offsets : r.index.WellFormed
  written_le : r.storage.toList.length ≤ r.index.size
  producer_le : r.index.producer ≤ r.storage.toList.length
  wrapped : r.index.producer < r.index.consumer → r.storage.toList.length = r.index.size

/-- The bytes that are waiting, in the order in which they were written. Memory read twice in a row
goes on at its start. -/
def pending (r : Ring) : Bytes :=
  ((r.storage.toList ++ r.storage.toList).drop r.index.consumer).take r.used

variable {r : Ring} {n : Nat}

@[simp] theorem index_copyIn (data : Bytes) : (r.copyIn data).index = r.index := by
  simp only [copyIn]

theorem size_copyIn (r : Ring) (data : Bytes) : (r.copyIn data).size = r.size := by
  rw [size, size, index_copyIn]

theorem error_copyIn (r : Ring) (data : Bytes) : (r.copyIn data).error = r.error := by
  simp only [copyIn]

theorem setError_copyIn (r : Ring) (data : Bytes) (e : LinkError) :
    (r.copyIn data).setError e = (r.setError e).copyIn data := by
  simp only [copyIn, setError]

theorem consume_copyIn (r : Ring) (data : Bytes) (n : Nat) :
    (r.copyIn data).consume n = (r.consume n).copyIn data := by
  simp only [copyIn, consume, used]
  rfl

@[simp] theorem index_publish : (r.publish n).index = r.index.produce n := rfl

@[simp] theorem storage_publish : (r.publish n).storage = r.storage := rfl

@[simp] theorem index_consume :
    (r.consume n).index = r.index.consume (min (alignDown n) r.used) := rfl

@[simp] theorem storage_consume : (r.consume n).storage = r.storage := rfl

/-- A ring is made exactly for sizes of more than one whole unit. -/
theorem create_eq_ok_iff {size : Nat} :
    Ring.create size = .ok r ↔
      alignment < size ∧ size % 4 = 0 ∧ r = ⟨.empty size, .empty, none⟩ := by
  have hc : (decide (size ≤ alignment) || size % alignment != 0) = true ↔
      ¬(alignment < size ∧ size % 4 = 0) := by
    rw [Bool.or_eq_true, decide_eq_true_iff, bne_iff_ne]
    simp only [alignment]
    omega
  by_cases h : alignment < size ∧ size % 4 = 0
  · simp only [Ring.create, hc, h, not_true, ite_false, Except.ok.injEq, true_and]
    exact eq_comm
  · simp only [Ring.create, hc, h, not_false_eq_true, ite_true, reduceCtorEq, false_iff]
    exact fun he ↦ h ⟨he.1, he.2.1⟩

theorem wellFormed_create {size : Nat} (h : Ring.create size = .ok r) : r.WellFormed := by
  obtain ⟨hs, hm, rfl⟩ := create_eq_ok_iff.mp h
  exact ⟨RingIndex.wellFormed_empty hs hm, Nat.zero_le _, Nat.zero_le _,
    fun hlt ↦ absurd hlt (Nat.lt_irrefl 0)⟩

/-- As many bytes are pending as are used. -/
theorem length_pending (h : r.WellFormed) : r.pending.length = r.used := by
  have hp := h.producer_le
  have hw := h.wrapped
  have hc := h.offsets.consumer_lt
  simp only [pending, List.length_take, List.length_drop, List.length_append, Ring.used]
  by_cases hle : r.index.consumer ≤ r.index.producer
  · rw [RingIndex.used_of_le h.offsets hle]
    omega
  · rw [RingIndex.used_of_lt h.offsets (by omega), hw (by omega)]
    omega

/-- Where the pending bytes stand. -/
theorem getElem?_pending (h : r.WellFormed) {k : Nat} (hk : k < r.used) :
    r.pending[k]? = r.storage.toList[r.index.place r.index.consumer k]? := by
  have hp := h.producer_le
  have hw := h.wrapped
  have hl := h.written_le
  rw [pending, List.getElem?_take_of_lt hk, List.getElem?_drop, List.getElem?_append,
    RingIndex.place]
  by_cases hle : r.index.consumer ≤ r.index.producer
  · have hu : r.used = _ := RingIndex.used_of_le h.offsets hle
    rw [ite_cond_eq_true _ _ (eq_true (by omega)), ite_cond_eq_true _ _ (eq_true (by omega))]
  · rw [hw (by omega)]
    split <;> rfl

private theorem getElem?_copyIn (h : r.WellFormed) (data : Bytes) (j : Nat) :
    let head := min data.length (r.index.size - r.index.producer)
    (r.copyIn data).storage.toList[j]? =
      if j < data.length - head then data[head + j]?
      else if r.index.producer ≤ j ∧ j < r.index.producer + head
        then data[j - r.index.producer]?
      else r.storage.toList[j]? := by
  intro head
  have hh : (data.take head).length = head := List.length_take_of_le (Nat.min_le_left _ _)
  have hfirst := Storage.getElem?_write r.storage (data.take head) h.producer_le j
  simp only [copyIn]
  rw [Storage.getElem?_write _ _ (Nat.zero_le _), hfirst, hh, List.length_drop]
  simp only [Nat.zero_le, true_and, Nat.zero_add, Nat.sub_zero, List.getElem?_drop]
  split
  · rfl
  · split
    · next hj => exact List.getElem?_take_of_lt (by omega)
    · rfl

/-- Copied data stands behind the producer, around the end if need be. -/
theorem getElem?_copyIn_place (h : r.WellFormed) {data : Bytes} (hd : data.length ≤ r.index.size)
    {k : Nat} (hk : k < data.length) :
    (r.copyIn data).storage.toList[r.index.place r.index.producer k]? = data[k]? := by
  have hp := h.offsets.producer_lt
  rw [getElem?_copyIn h, RingIndex.place]
  split
  · rw [ite_cond_eq_false _ _ (eq_false (by omega)), ite_cond_eq_true _ _ (eq_true (by omega)),
      Nat.add_sub_cancel_left]
  · rw [ite_cond_eq_true _ _ (eq_true (by omega))]
    congr 1
    omega

/-- Copying data in changes nothing outside the bytes behind the producer. -/
theorem getElem?_copyIn_of_free (h : r.WellFormed) {data : Bytes} {j : Nat}
    (hhead : r.index.producer ≤ j → r.index.producer + data.length ≤ j)
    (htail : r.index.producer + data.length ≤ j + r.index.size) :
    (r.copyIn data).storage.toList[j]? = r.storage.toList[j]? := by
  rw [getElem?_copyIn h, ite_cond_eq_false _ _ (eq_false (by omega)),
    ite_cond_eq_false _ _ (eq_false (by omega))]

/-- Copying data in lengthens the memory as far as the head reaches, and no further. -/
theorem length_copyIn (h : r.WellFormed) (data : Bytes) (hd : data.length ≤ r.index.free) :
    (r.copyIn data).storage.toList.length =
      max r.storage.toList.length
        (r.index.producer + min data.length (r.index.size - r.index.producer)) := by
  have hp := h.offsets.producer_lt
  rw [RingIndex.free_eq h.offsets] at hd
  simp only [copyIn]
  rw [Storage.length_write _ _ (Nat.zero_le _), Storage.length_write _ _ h.producer_le,
    List.length_take_of_le (Nat.min_le_left _ _), List.length_drop]
  omega

/-- Publishing copied data that fits keeps the ring in order. -/
theorem wellFormed_publish_copyIn (h : r.WellFormed) {data : Bytes}
    (hd : data.length ≤ r.index.free) (hm : data.length % 4 = 0) :
    ((r.copyIn data).publish data.length).WellFormed := by
  have hl := length_copyIn h data hd
  have hp := RingIndex.producer_produce h.offsets hd
  have hlt := h.offsets.producer_lt
  have hw := h.written_le
  have hf := RingIndex.free_eq h.offsets
  rw [RingIndex.place] at hp
  constructor <;> simp only [index_publish, index_copyIn, storage_publish]
  · exact RingIndex.wellFormed_produce h.offsets hd hm
  · rw [RingIndex.size_produce]
    omega
  · rw [hp, hl]
    split <;> omega
  · intro hc
    rw [RingIndex.consumer_produce, hp] at hc
    rw [RingIndex.size_produce, hl]
    split at hc
    · have := h.wrapped (by omega)
      omega
    · omega

/-- Published data follows what is pending already. -/
theorem pending_publish_copyIn (h : r.WellFormed) {data : Bytes}
    (hd : data.length ≤ r.index.free) (hm : data.length % 4 = 0) :
    ((r.copyIn data).publish data.length).pending = r.pending ++ data := by
  have h' := wellFormed_publish_copyIn h hd hm
  have hu : ((r.copyIn data).publish data.length).used = r.used + data.length := by
    simp only [used, index_publish, index_copyIn]
    exact RingIndex.used_produce h.offsets hd hm
  have hlen := length_pending h
  have hget {k : Nat} (hk : k < r.used + data.length) :
      ((r.copyIn data).publish data.length).pending[k]? =
        (r.copyIn data).storage.toList[r.index.place r.index.consumer k]? := by
    rw [getElem?_pending h' (by omega), storage_publish, index_publish, index_copyIn,
      RingIndex.place_produce, RingIndex.consumer_produce]
  have hle : r.used + data.length ≤ r.index.size := by
    have hf := RingIndex.free_eq h.offsets
    have hul := RingIndex.used_le h.offsets
    change r.used ≤ _ at hul
    change r.index.free = _ - r.used at hf
    omega
  apply List.ext_getElem?
  intro k
  rw [List.getElem?_append, hlen]
  by_cases hold : k < r.used
  · obtain ⟨hhead, htail⟩ := RingIndex.place_of_lt_used h.offsets hold hd
    rw [ite_cond_eq_true _ _ (eq_true hold), getElem?_pending h hold, hget (by omega),
      getElem?_copyIn_of_free h hhead htail]
  · rw [ite_cond_eq_false _ _ (eq_false hold)]
    by_cases hnew : k < r.used + data.length
    · have hplace : r.index.place r.index.consumer k =
          r.index.place r.index.producer (k - r.used) := by
        rw [← RingIndex.place_used h.offsets]
        rw [RingIndex.place_place h.offsets.consumer_lt (by change r.used + _ ≤ _; omega)]
        congr 1
        change k = r.used + (k - r.used)
        omega
      rw [hget hnew, hplace, getElem?_copyIn_place h (by omega) (by omega)]
    · rw [List.getElem?_eq_none (by rw [length_pending h']; omega),
        List.getElem?_eq_none (by omega)]

private theorem consumed_units (h : r.WellFormed) (n : Nat) :
    min (alignDown n) r.used ≤ r.index.used ∧ min (alignDown n) r.used % 4 = 0 := by
  have hn := alignDown_mod n
  have hu : r.used % 4 = 0 := RingIndex.used_mod h.offsets
  exact ⟨Nat.min_le_right _ _, by omega⟩

/-- Consuming keeps the ring in order. -/
theorem wellFormed_consume (h : r.WellFormed) (n : Nat) : (r.consume n).WellFormed := by
  obtain ⟨hn, hm⟩ := consumed_units h n
  constructor <;> simp only [index_consume, storage_consume]
  · exact RingIndex.wellFormed_consume h.offsets hn hm
  · exact h.written_le
  · exact h.producer_le
  · intro hlt
    apply h.wrapped
    by_cases hle : r.index.consumer ≤ r.index.producer
    · exact absurd hlt (Nat.not_lt.mpr (RingIndex.consume_consumer_le h.offsets hn hle))
    · omega

/-- Consuming releases whole units, at most those that are used. -/
theorem used_consume (h : r.WellFormed) (n : Nat) :
    (r.consume n).used = r.used - min (alignDown n) r.used :=
  RingIndex.used_consume h.offsets (consumed_units h n).1 (consumed_units h n).2

/-- Consuming takes whole units from the front of what is pending. -/
theorem pending_consume (h : r.WellFormed) (n : Nat) :
    (r.consume n).pending = r.pending.drop (min (alignDown n) r.used) := by
  have h' := wellFormed_consume h n
  have hu := used_consume h n
  have hn := (consumed_units h n).1
  have hle : r.used ≤ r.index.size := Nat.le_trans (RingIndex.used_le h.offsets) (Nat.sub_le _ _)
  apply List.ext_getElem?
  intro k
  rw [List.getElem?_drop]
  by_cases hk : k < (r.consume n).used
  · rw [getElem?_pending h' hk, getElem?_pending h (by omega), storage_consume, index_consume,
      RingIndex.place_consume, RingIndex.consumer_consume h.offsets hn,
      RingIndex.place_place h.offsets.consumer_lt (by omega)]
  · rw [List.getElem?_eq_none (by rw [length_pending h']; omega),
      List.getElem?_eq_none (by rw [length_pending h]; omega)]

/-- Releasing whole units that are pending, or nothing, takes them from the front. -/
theorem pending_release (h : r.WellFormed) (hm : n % 4 = 0) (hn : n ≤ r.pending.length) :
    let left := if n = 0 then r else r.consume n
    left.WellFormed ∧ left.pending = r.pending.drop n := by
  intro left
  by_cases hz : n = 0
  · have hl : left = r := ite_cond_eq_true _ _ (eq_true hz)
    rw [hl, hz]
    exact ⟨h, rfl⟩
  · have hl : left = r.consume n := ite_cond_eq_false _ _ (eq_false hz)
    rw [length_pending h] at hn
    rw [hl, pending_consume h, alignDown_of_mod_eq_zero hm, Nat.min_eq_left hn]
    exact ⟨wellFormed_consume h n, rfl⟩

/-- The bytes of the next span are the first ones pending. -/
theorem spanBytes_window (h : r.WellFormed) (rollover : Nat) :
    r.spanBytes (r.index.window rollover) = r.pending.take (r.index.window rollover).length := by
  have hp := h.producer_le
  have hw := h.wrapped
  have hplt := h.offsets.producer_lt
  have hc := h.offsets.consumer_lt
  rcases RingIndex.window_cases r.index rollover with ⟨hle, hs⟩ | ⟨hlt, _, hs⟩ | ⟨hlt, _, hs⟩
  · have hu : r.used = _ := RingIndex.used_of_le h.offsets hle
    rw [hs, spanBytes, RingSpan.length, pending, Storage.read_eq, hu, List.take_take, Nat.min_self,
      List.drop_append_of_le_length (by omega),
      List.take_append_of_le_length (by rw [List.length_drop]; omega)]
  · have hu : r.used = _ := RingIndex.used_of_lt h.offsets hlt
    rw [hs, spanBytes, RingSpan.length, pending, Storage.read_eq, hu, List.take_take,
      Nat.min_eq_left (by omega), List.drop_append_of_le_length (by omega),
      List.take_append_of_le_length (Nat.le_of_eq (by rw [List.length_drop, hw hlt]))]
  · have hu : r.used = _ := RingIndex.used_of_lt h.offsets hlt
    have hd : (r.storage.toList.drop r.index.consumer).length =
        r.index.size - r.index.consumer := by
      rw [List.length_drop, hw hlt]
    have ht := Nat.min_le_right (rollover - (r.index.size - r.index.consumer)) r.index.producer
    rw [hs]
    generalize min (rollover - (r.index.size - r.index.consumer)) r.index.producer = tail at ht
    have hall (k : Nat) : (r.storage.toList.drop r.index.consumer).take
        (r.index.size - r.index.consumer + k) = r.storage.toList.drop r.index.consumer :=
      List.take_of_length_le (by rw [hd]; exact Nat.le_add_right _ _)
    rw [spanBytes, RingSpan.length, pending, Storage.read_eq, Storage.read_eq, hu,
      List.take_take, Nat.min_eq_left (by omega), List.drop_append_of_le_length (by omega),
      List.take_append, List.drop_zero, hd, Nat.add_sub_cancel_left, hall tail,
      ← Nat.add_zero (r.index.size - r.index.consumer), hall 0]

/-- A window shows the first bytes pending, as many as its span has. -/
theorem window_eq (h : r.WellFormed) :
    r.window = r.pending.take (r.index.window rolloverLimit).length := by
  have hm : (r.index.window rolloverLimit).length % 4 = 0 :=
    RingIndex.window_length_mod h.offsets (by decide)
  simp only [window]
  rw [alignDown_of_mod_eq_zero hm, spanBytes_window h, List.take_take, Nat.min_self]

/-- As many bytes as the span has. -/
theorem length_window (h : r.WellFormed) :
    r.window.length = (r.index.window rolloverLimit).length := by
  rw [window_eq h, List.length_take, length_pending h]
  exact Nat.min_eq_left (RingIndex.window_length_le h.offsets _)

/-- A window starts what is pending. -/
theorem isPrefix_window (h : r.WellFormed) : r.window <+: r.pending :=
  window_eq h ▸ List.take_prefix _ _

/-- A window that does not show all that is pending is as long as any packet. -/
theorem window_eq_pending_or_le (h : r.WellFormed) :
    r.window = r.pending ∨ Packet.maxLength ≤ r.window.length := by
  by_cases hlt : (r.index.window rolloverLimit).length < r.used
  · rw [length_window h]
    exact .inr (RingIndex.le_window_length h.offsets hlt)
  · rw [window_eq h]
    refine .inl (List.take_of_length_le ?_)
    rw [length_pending h]
    exact Nat.le_of_not_lt hlt

/-- A wait shows the first bytes pending if there are any and no error is recorded. -/
theorem wait_eq (h : r.WellFormed) :
    r.wait = match r.error with
      | some e => .error e
      | none => if r.used = 0 then .error .timeout else .ok r.window := by
  have he := RingIndex.isEmpty_iff h.offsets
  change r.isEmpty = true ↔ r.used = 0 at he
  unfold wait
  cases r.error with
  | some e => rfl
  | none =>
    by_cases hu : r.used = 0
    · simp only [he.mpr hu, hu, ite_true]
    · have hlen := RingIndex.window_length_pos h.offsets rolloverLimit (Nat.pos_of_ne_zero hu)
      rw [← length_window h] at hlen
      have hne : r.window.isEmpty = false := by
        rw [List.isEmpty_eq_false_iff]
        exact List.ne_nil_of_length_pos hlen
      simp only [he, hu, hne, Bool.false_eq_true, ite_false]

/-- A wait answers with the window exactly if no error is recorded and something is waiting. -/
theorem wait_eq_ok_iff (h : r.WellFormed) {window : Bytes} :
    r.wait = .ok window ↔ r.error = none ∧ 0 < r.used ∧ window = r.window := by
  rw [wait_eq h]
  cases r.error with
  | some e => simp only [reduceCtorEq, false_and]
  | none =>
    rcases Nat.eq_zero_or_pos r.used with hz | hp
    · simp only [hz, ite_true, reduceCtorEq, Nat.lt_irrefl, false_and, and_false]
    · simp only [Nat.ne_of_gt hp, ite_false, Except.ok.injEq, hp, true_and]
      exact eq_comm

end Ring

end DetectorLink
