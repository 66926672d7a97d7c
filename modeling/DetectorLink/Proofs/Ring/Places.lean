import DetectorLink.Proofs.Ring.Queue

/-!
# Places of a ring

A span lies at the first used places, and a push writes free ones; no place is both. What is copied
into free places is not pending, however far the copying got, and a copy may be made byte by byte.
-/

namespace DetectorLink

namespace RingIndex

variable {i : RingIndex}

theorem place_lt {offset k : Nat} (ho : offset < i.size) (hk : k ≤ i.size) :
    i.place offset k < i.size := by
  simp only [place]
  split <;> omega

/-- Free places are not used ones. -/
theorem place_consumer_ne_place_producer (h : i.WellFormed) {k m : Nat} (hk : k < i.used)
    (hm : m < i.free) : i.place i.consumer k ≠ i.place i.producer m := by
  have hp := h.producer_lt
  obtain ⟨hhead, htail⟩ := place_of_lt_used h hk (Nat.le_refl i.free)
  intro he
  rw [he] at hhead htail
  simp only [place] at hhead htail
  split at hhead <;> split at htail <;> omega

/-- Places before the end of the ring follow one another. -/
theorem map_place_range_of_le {offset n : Nat} (h : offset + n ≤ i.size) :
    (List.range n).map (i.place offset) = List.range' offset n := by
  rw [List.range'_eq_map_range]
  refine List.map_congr_left fun k hk ↦ ?_
  have hlt := List.mem_range.mp hk
  exact ite_cond_eq_true _ _ (eq_true (by omega))

/-- Places that reach over the end of the ring go on at its start. -/
theorem map_place_range {offset n : Nat} (ho : offset ≤ i.size) :
    (List.range (i.size - offset + n)).map (i.place offset) =
      List.range' offset (i.size - offset) ++ List.range' 0 n := by
  rw [List.range_add, List.map_append, List.map_map, map_place_range_of_le (by omega),
    ← List.range_eq_range']
  congr 1
  refine (List.map_congr_left fun k _ ↦ ?_).trans (List.map_id _)
  show i.place offset (i.size - offset + k) = k
  rw [place, ite_cond_eq_false _ _ (eq_false (by omega))]
  omega

/-- The places of a span, in the order in which its bytes are shown. -/
def spanPlaces (i : RingIndex) : RingSpan → List Nat
  | .direct offset length => List.range' offset length
  | .rollover head tail => List.range' i.consumer head ++ List.range' 0 tail

/-- The next span shows the first used places. -/
theorem spanPlaces_window (h : i.WellFormed) (rollover : Nat) :
    i.spanPlaces (i.window rollover) =
      (List.range (i.window rollover).length).map (i.place i.consumer) := by
  have hp := h.producer_lt
  have hc := h.consumer_lt
  rcases window_cases i rollover with ⟨_, hw⟩ | ⟨_, _, hw⟩ | ⟨_, _, hw⟩ <;>
    rw [hw, RingSpan.length, spanPlaces]
  · exact (map_place_range_of_le (by omega)).symm
  · exact (map_place_range_of_le (by omega)).symm
  · exact (map_place_range (Nat.le_of_lt hc)).symm

end RingIndex

namespace Storage

/-- Memories of the same bytes are the same. -/
theorem eq_of_toList_eq {s t : Storage} (h : s.toList = t.toList) : s = t := by
  cases s
  cases t
  exact congrArg mk (ByteArray.ext (Array.toList_inj.mp h))

theorem write_nil (s : Storage) (offset : Nat) : s.write offset [] = s := by
  apply eq_of_toList_eq
  rw [toList_write, List.append_nil, List.length_nil, Nat.add_zero, List.take_append_drop]

/-- Writes that follow one another are one write. -/
theorem write_append (s : Storage) {offset : Nat} (a b : Bytes) (ho : offset ≤ s.toList.length) :
    (s.write offset a).write (offset + a.length) b = s.write offset (a ++ b) := by
  have ht : (s.toList.take offset ++ a).length = offset + a.length := by
    rw [List.length_append, List.length_take_of_le ho]
  apply eq_of_toList_eq
  rw [toList_write, toList_write, toList_write, ← ht, List.take_left, List.drop_length_add_append,
    List.drop_drop, ht, List.length_append, Nat.add_assoc, ← List.append_assoc (s.toList.take _)]

/-- The byte at a place that was written. -/
theorem read_one {s : Storage} {offset : Nat} {b : UInt8} (h : s.toList[offset]? = some b) :
    s.read offset 1 = [b] := by
  obtain ⟨hlt, rfl⟩ := List.getElem?_eq_some_iff.mp h
  rw [read_eq, List.drop_eq_getElem_cons hlt]
  rfl

end Storage

namespace Ring

variable {r : Ring}

/-- Write one byte, `k` places behind an offset. -/
def writeByte (r : Ring) (offset k : Nat) (b : UInt8) : Ring :=
  { r with storage := r.storage.write (r.index.place offset k) [b] }

/-- A byte written without leaving a gap changes no other place. -/
theorem getElem?_writeByte_of_ne {offset k j : Nat} {b : UInt8}
    (hgap : r.index.place offset k ≤ r.storage.toList.length) (hj : j ≠ r.index.place offset k) :
    (r.writeByte offset k b).storage.toList[j]? = r.storage.toList[j]? := by
  rw [writeByte, Storage.getElem?_write _ _ hgap, List.length_singleton]
  exact ite_cond_eq_false _ _ (eq_false (by omega))

/-- Data that ends before the end of the ring is written in one piece. -/
theorem copyIn_of_le {data : Bytes} (hd : r.index.producer + data.length ≤ r.index.size) :
    r.copyIn data = { r with storage := r.storage.write r.index.producer data } := by
  have hm : min data.length (r.index.size - r.index.producer) = data.length :=
    Nat.min_eq_left (by omega)
  simp only [copyIn, hm, List.take_length, List.drop_length, Storage.write_nil]

/-- Data that reaches over the end of the ring is written in two pieces. -/
theorem copyIn_of_ge {data : Bytes} (hd : r.index.size ≤ r.index.producer + data.length) :
    r.copyIn data = { r with
      storage := (r.storage.write r.index.producer
        (data.take (r.index.size - r.index.producer))).write 0
          (data.drop (r.index.size - r.index.producer)) } := by
  have hm : min data.length (r.index.size - r.index.producer) =
      r.index.size - r.index.producer := Nat.min_eq_right (by omega)
  simp only [copyIn, hm]

theorem copyIn_nil (h : r.WellFormed) : r.copyIn [] = r := by
  have hfits : r.index.producer + ([] : Bytes).length ≤ r.index.size :=
    Nat.le_of_lt h.offsets.producer_lt
  rw [copyIn_of_le hfits, Storage.write_nil]

/-- Copying goes on byte by byte, also over the end of the ring. -/
theorem writeByte_copyIn_take (h : r.WellFormed) {data : Bytes} {k : Nat} (hk : k < data.length) :
    (r.copyIn (data.take k)).writeByte r.index.producer k data[k] =
      r.copyIn (data.take (k + 1)) := by
  have hlen : (data.take k).length = k := List.length_take_of_le (Nat.le_of_lt hk)
  have hlen' : (data.take (k + 1)).length = k + 1 := List.length_take_of_le hk
  have hnext := List.take_append_getElem hk
  rw [writeByte, index_copyIn, RingIndex.place]
  by_cases hend : r.index.producer + k < r.index.size
  · rw [ite_cond_eq_true _ _ (eq_true hend), copyIn_of_le (by omega), copyIn_of_le (by omega),
      ← hnext, ← Storage.write_append _ _ _ h.producer_le, hlen]
  · have hhead : (data.take (k + 1)).take (r.index.size - r.index.producer) =
        (data.take k).take (r.index.size - r.index.producer) := by
      rw [← hnext, List.take_append_of_le_length (by omega)]
    have htail : (data.take (k + 1)).drop (r.index.size - r.index.producer) =
        (data.take k).drop (r.index.size - r.index.producer) ++ [data[k]] := by
      rw [← hnext, List.drop_append_of_le_length (by omega)]
    have hplace : r.index.producer + k - r.index.size =
        0 + (k - (r.index.size - r.index.producer)) := by
      have := h.offsets.producer_lt
      omega
    rw [ite_cond_eq_false _ _ (eq_false hend), copyIn_of_ge (by omega), copyIn_of_ge (by omega),
      hhead, htail, ← Storage.write_append _ _ _ (Nat.zero_le _), List.length_drop, hlen, hplace]

/-- Copying into free places keeps the ring in order. -/
theorem wellFormed_copyIn (h : r.WellFormed) {data : Bytes} (hd : data.length ≤ r.index.free) :
    (r.copyIn data).WellFormed := by
  have hl := length_copyIn h data hd
  have hlt := h.offsets.producer_lt
  have hw := h.written_le
  have hp := h.producer_le
  constructor <;> rw [index_copyIn]
  · exact h.offsets
  · omega
  · omega
  · intro hc
    rw [hl, h.wrapped hc]
    omega

/-- Copying into free places leaves what is pending as it is. -/
theorem pending_copyIn (h : r.WellFormed) {data : Bytes} (hd : data.length ≤ r.index.free) :
    (r.copyIn data).pending = r.pending := by
  have h' := wellFormed_copyIn h hd
  have hu : (r.copyIn data).used = r.used := by rw [used, used, index_copyIn]
  apply List.ext_getElem?
  intro k
  by_cases hk : k < r.used
  · obtain ⟨hhead, htail⟩ := RingIndex.place_of_lt_used h.offsets hk hd
    rw [getElem?_pending h' (hu.symm ▸ hk), getElem?_pending h hk, index_copyIn,
      getElem?_copyIn_of_free h hhead htail]
  · rw [List.getElem?_eq_none (by rw [length_pending h']; omega),
      List.getElem?_eq_none (by rw [length_pending h]; omega)]

/-- A piece of the memory from the consumer on, of used bytes before the end of the ring, starts
what is pending. -/
theorem read_consumer (h : r.WellFormed) {n : Nat} (hn : n ≤ r.used)
    (hend : r.index.consumer + n ≤ r.index.size) :
    r.storage.read r.index.consumer n = r.pending.take n := by
  have hp := h.producer_le
  have hw := h.wrapped
  have hlen : r.index.consumer + n ≤ r.storage.toList.length := by
    by_cases hle : r.index.consumer ≤ r.index.producer
    · have hu : r.used = _ := RingIndex.used_of_le h.offsets hle
      omega
    · rw [hw (Nat.lt_of_not_le hle)]
      exact hend
  rw [Storage.read_eq, pending, List.take_take, Nat.min_eq_left hn,
    List.drop_append_of_le_length (by omega),
    List.take_append_of_le_length (by rw [List.length_drop]; omega)]

end Ring

end DetectorLink
