import DetectorLink.Bytes

/-!
# Words bit by bit

A word is known by its bits. One statement for each operation says which bits its result has, and
words with the same bits are the same.
-/

namespace DetectorLink.Word

/-- Bit `i` of a word, the least significant one first. -/
def bit (w : UInt32) (i : Nat) : Bool := w.toNat.testBit i

private theorem bit_eq_getLsbD (w : UInt32) (i : Nat) : bit w i = w.toBitVec.getLsbD i := rfl

/-- Words with the same bits are the same. -/
theorem eq_of_bit_eq {a b : UInt32} (h : ∀ i < 32, bit a i = bit b i) : a = b :=
  UInt32.toBitVec_inj.mp (BitVec.eq_of_getLsbD_eq fun i hi ↦ h i hi)

theorem bit_of_ge {i : Nat} (w : UInt32) (hi : 32 ≤ i) : bit w i = false :=
  BitVec.getLsbD_of_ge w.toBitVec i hi

@[simp] theorem bit_zero (i : Nat) : bit 0 i = false := Nat.zero_testBit i

@[simp] theorem bit_and (a b : UInt32) (i : Nat) : bit (a &&& b) i = (bit a i && bit b i) := by
  simp only [bit, UInt32.toNat_and, Nat.testBit_and]

@[simp] theorem bit_or (a b : UInt32) (i : Nat) : bit (a ||| b) i = (bit a i || bit b i) := by
  simp only [bit, UInt32.toNat_or, Nat.testBit_or]

@[simp] theorem bit_xor (a b : UInt32) (i : Nat) : bit (a ^^^ b) i = (bit a i ^^ bit b i) := by
  simp only [bit, UInt32.toNat_xor, Nat.testBit_xor]

@[simp] theorem bit_not (w : UInt32) (i : Nat) :
    bit (~~~w) i = (decide (i < 32) && !bit w i) := by
  simp only [bit_eq_getLsbD, UInt32.toBitVec_not, BitVec.getLsbD_not]

@[simp] theorem bit_shiftLeft (w s : UInt32) (i : Nat) : bit (w <<< s) i =
    (decide (i < 32) && (decide (s.toNat % 32 ≤ i) && bit w (i - s.toNat % 32))) := by
  simp only [bit, UInt32.toNat_shiftLeft, Nat.testBit_mod_two_pow, Nat.testBit_shiftLeft, ge_iff_le]

@[simp] theorem bit_shiftRight (w s : UInt32) (i : Nat) :
    bit (w >>> s) i = bit w (s.toNat % 32 + i) := by
  simp only [bit, UInt32.toNat_shiftRight, Nat.testBit_shiftRight]

@[simp] theorem bit_toUInt32 (b : UInt8) (i : Nat) : bit b.toUInt32 i = b.toNat.testBit i := rfl

@[simp] theorem testBit_toUInt8 (w : UInt32) (i : Nat) :
    w.toUInt8.toNat.testBit i = (decide (i < 8) && bit w i) := by
  simp only [bit, UInt32.toNat_toUInt8, Nat.testBit_mod_two_pow]

/-- A mask of one bit tests that bit. -/
theorem and_bne_zero {mask : UInt32} {n : Nat} (hm : ∀ i, bit mask i = decide (n = i))
    (w : UInt32) : (w &&& mask != 0) = bit w n := by
  cases hb : bit w n with
  | true =>
    refine bne_iff_ne.mpr fun he ↦ ?_
    have h := congrArg (bit · n) he
    simp only [bit_and, bit_zero, hm, hb, decide_true, Bool.and_self, Bool.true_eq_false] at h
  | false =>
    refine bne_eq_false_iff_eq.mpr (eq_of_bit_eq fun i _ ↦ ?_)
    rw [bit_and, hm, bit_zero]
    by_cases hi : n = i
    · rw [← hi, hb, Bool.false_and]
    · rw [decide_eq_false hi, Bool.and_false]

/-- Bytes with the same bits are the same. -/
theorem byte_eq_of_testBit_eq {a b : UInt8} (h : ∀ i < 8, a.toNat.testBit i = b.toNat.testBit i) :
    a = b :=
  UInt8.toBitVec_inj.mp (BitVec.eq_of_getLsbD_eq fun i hi ↦ h i hi)

theorem testBit_byte_of_ge {i : Nat} (b : UInt8) (hi : 8 ≤ i) : b.toNat.testBit i = false :=
  BitVec.getLsbD_of_ge b.toBitVec i hi

end DetectorLink.Word
