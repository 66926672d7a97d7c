import DetectorLink.Bytes

/-!
# Ring storage

The memory of a ring. It grows as it is first written and then keeps its size. `toList` shows the
bytes; the main statement says what a write changes.
-/

namespace DetectorLink

/-- Memory addressed by byte offset. -/
structure Storage where
  /-- The packed bytes. -/
  packed : ByteArray

namespace Storage

/-- Memory that has not been written yet. -/
def empty : Storage := ⟨.empty⟩

/-- The bytes written so far. -/
def toList (s : Storage) : Bytes := s.packed.data.toList

/-- Write `data` from `offset` on. -/
def write (s : Storage) (offset : Nat) (data : Bytes) : Storage :=
  ⟨(ByteArray.mk data.toArray).copySlice 0 s.packed offset data.length⟩

/-- The `n` bytes from `offset` on, as far as they have been written. -/
def read (s : Storage) (offset n : Nat) : Bytes :=
  (s.packed.extract offset (offset + n)).data.toList

/-- A write replaces the bytes under it and keeps the others. -/
theorem toList_write (s : Storage) (offset : Nat) (data : Bytes) :
    (s.write offset data).toList =
      s.toList.take offset ++ data ++ s.toList.drop (offset + data.length) := by
  simp only [toList, write, ByteArray.copySlice, Array.toList_append, Array.toList_extract,
    List.extract_eq_take_drop, List.drop_zero, Nat.sub_zero, Nat.zero_add, List.take_length,
    List.size_toArray, Nat.min_self]
  congr 1
  exact List.take_of_length_le (by simp only [List.length_drop, Array.length_toList]; exact Nat.le_refl _)

/-- Reading shows a piece of the bytes. -/
theorem read_eq (s : Storage) (offset n : Nat) :
    s.read offset n = (s.toList.drop offset).take n := by
  simp [toList, read, ByteArray.extract, ByteArray.copySlice, Array.toList_extract,
    List.extract_eq_take_drop]

end Storage

end DetectorLink
