import Mathlib.Algebra.Group.Nat.Defs
import DetectorLink.Module.Field
import DetectorLink.Proofs.Packet.Bits

/-!
# Bit fields, bit by bit

A checked field covers some of the 32 bits of its word. The word that holds a value has the bits of
the value there and no others, so a field takes back what was put into it whatever the bits outside
of it are.
-/

namespace DetectorLink.BitField

open Word

/-- Bit `i` of a word belongs to a field. -/
def Covers (f : BitField) (i : Nat) : Prop := f.shift ≤ i ∧ i < f.shift + f.width

instance (f : BitField) (i : Nat) : Decidable (f.Covers i) := inferInstanceAs (Decidable (_ ∧ _))

/-- A field has bits, and has them within its word. -/
structure Checked (f : BitField) : Prop where
  /-- It has a bit. -/
  positive : 0 < f.width
  /-- Its last bit is in the word. -/
  inside : f.shift + f.width ≤ 32

instance (f : BitField) : Decidable f.Checked :=
  decidable_of_iff (0 < f.width ∧ f.shift + f.width ≤ 32)
    ⟨fun h ↦ ⟨h.1, h.2⟩, fun h ↦ ⟨h.positive, h.inside⟩⟩

variable {f : BitField}

/-- The end of a field has more than 32 bits itself, so it cannot be checked. -/
def Overflows (f : BitField) : Prop := f.width ≠ 0 ∧ UInt32.size ≤ f.shift + f.width

instance (f : BitField) : Decidable f.Overflows := inferInstanceAs (Decidable (_ ∧ _))

/-- What checking a field comes to. -/
theorem check_eq (f : BitField) :
    f.check = if f.Overflows then .error .sum
      else if f.width = 0 then .ok (.error .zeroWidth)
      else if 32 < f.shift + f.width then .ok (.error (.exceedsWord f.shift f.width))
      else .ok (.ok ()) := by
  unfold check
  by_cases hw : f.width = 0
  · rw [if_pos hw, if_neg fun ho : f.Overflows ↦ ho.1 hw, if_pos hw]
  · rw [if_neg hw, if_neg hw]
    by_cases hlt : f.shift + f.width < UInt32.size
    · rw [checkedAdd_of_lt hlt, if_neg fun ho : f.Overflows ↦ Nat.not_lt.mpr ho.2 hlt]
      simp only [bind, Except.bind, pure, Except.pure]
      split <;> rfl
    · rw [checkedAdd_of_le (Nat.not_lt.mp hlt), if_pos ⟨hw, Nat.not_lt.mp hlt⟩]
      rfl

/-- A field within its word does not overflow. -/
theorem Checked.not_overflows (h : f.Checked) : ¬f.Overflows := fun ho ↦
  absurd (Nat.le_trans ho.2 h.inside) (by decide)

theorem check_eq_ok_iff : f.check = .ok (.ok ()) ↔ f.Checked := by
  rw [check_eq]
  constructor
  · intro h
    split at h
    case isTrue => cases h
    case isFalse =>
      split at h
      case isTrue => cases h
      case isFalse hw =>
        split at h
        case isTrue => cases h
        case isFalse hle => exact ⟨Nat.pos_of_ne_zero hw, Nat.not_lt.mp hle⟩
  · intro h
    rw [if_neg h.not_overflows, if_neg (Nat.ne_of_gt h.positive), if_neg (Nat.not_lt.mpr h.inside)]

/-- Checking stops exactly at the fields whose ends are too large. -/
theorem check_eq_error_iff {o : Overflow} : f.check = .error o ↔ f.Overflows ∧ o = .sum := by
  rw [check_eq]
  split
  case isTrue ho => simp only [ho, true_and, Except.error.injEq, eq_comm]
  case isFalse ho =>
    refine iff_of_false (fun h ↦ ?_) fun h ↦ ho h.1
    split at h
    · cases h
    · split at h <;> cases h

/-- A checked field starts within its word. -/
theorem Checked.shift_lt (h : f.Checked) : f.shift < 32 := by
  have := h.positive
  have := h.inside
  omega

/-- A checked field covers bits of the word only. -/
theorem Covers.lt {i : Nat} (h : f.Covers i) (hf : f.Checked) : i < 32 :=
  Nat.lt_of_lt_of_le h.2 hf.inside

theorem toNat_mask {width : Nat} (h : width ≤ 32) : (mask width).toNat = 2 ^ width - 1 := by
  unfold mask
  split
  case isTrue hw =>
    rw [Nat.le_antisymm h hw]
    rfl
  case isFalse hw =>
    have hlt : 2 ^ width < 2 ^ 32 := Nat.pow_lt_pow_right (by decide) (Nat.not_le.mp hw)
    have hone : ((1 : UInt32) <<< UInt32.ofNat width).toNat = 2 ^ width := by
      rw [UInt32.toNat_shiftLeft, UInt32.toNat_ofNat', Nat.mod_eq_of_lt (by omega : width < 2 ^ 32),
        Nat.mod_eq_of_lt (Nat.not_le.mp hw), UInt32.toNat_one, Nat.one_shiftLeft,
        Nat.mod_eq_of_lt hlt]
    rw [UInt32.toNat_sub_of_le _ _ (UInt32.le_iff_toNat_le.mpr ?_), hone, UInt32.toNat_one]
    rw [hone, UInt32.toNat_one]
    exact Nat.one_le_two_pow

/-- A mask has the lowest bits. -/
@[simp] theorem bit_mask (width i : Nat) : bit (mask width) i = decide (i < 32 ∧ i < width) := by
  rcases Nat.lt_or_ge 32 width with h | h
  · rw [mask, if_pos (Nat.le_of_lt h), bit, show (0xFFFFFFFF : UInt32).toNat = 2 ^ 32 - 1 from rfl,
      Nat.testBit_two_pow_sub_one]
    exact decide_eq_decide.mpr ⟨fun hi ↦ ⟨hi, Nat.lt_trans hi h⟩, And.left⟩
  · rw [bit, toNat_mask h, Nat.testBit_two_pow_sub_one]
    exact decide_eq_decide.mpr ⟨fun hi ↦ ⟨Nat.lt_of_lt_of_le hi h, hi⟩, And.right⟩

/-- A value fits when it has no bit that the field lacks. -/
theorem fits_iff {value : UInt32} : f.fits value ↔ ∀ i, f.width ≤ i → bit value i = false := by
  rw [fits, beq_iff_eq]
  constructor
  · intro h i hi
    rcases Nat.lt_or_ge i 32 with h32 | h32
    · have hbit := congrArg (bit · i) h
      simpa [h32, Nat.not_lt.mpr hi] using hbit
    · exact bit_of_ge value h32
  · intro h
    apply eq_of_bit_eq
    intro i hi
    rw [bit_and, bit_not, bit_mask, bit_zero]
    by_cases hw : i < f.width
    · simp only [hi, hw, and_self, decide_true, Bool.not_true, Bool.and_false]
    · rw [h i (Nat.not_lt.mp hw), Bool.false_and]

/-- A value fits when it is less than the number of values the field can have. -/
theorem fits_iff_lt {value : UInt32} : f.fits value ↔ value.toNat < 2 ^ f.width := by
  rw [fits_iff]
  constructor
  · exact fun h ↦ Nat.lt_pow_two_of_testBit _ fun i hi ↦ h i hi
  · exact fun h i hi ↦
      Nat.testBit_lt_two_pow (Nat.lt_of_lt_of_le h (Nat.pow_le_pow_right (by decide) hi))

theorem toNat_shift (hf : f.Checked) : (UInt32.ofNat f.shift).toNat % 32 = f.shift := by
  have := hf.shift_lt
  rw [UInt32.toNat_ofNat', Nat.mod_eq_of_lt (by omega : f.shift < 2 ^ 32), Nat.mod_eq_of_lt this]

/-- The bits of the word that holds a value: those of the value, in the field. -/
theorem bit_insert (hf : f.Checked) (value : UInt32) (i : Nat) :
    bit (f.insert value) i = (decide (f.Covers i) && bit value (i - f.shift)) := by
  have hin := hf.inside
  rw [insert, bit_shiftLeft, bit_and, bit_mask, toNat_shift hf, Bool.eq_iff_iff]
  simp only [Bool.and_eq_true, decide_eq_true_eq]
  constructor
  · rintro ⟨-, hs, hb, -, hw⟩
    exact ⟨⟨hs, by omega⟩, hb⟩
  · rintro ⟨⟨hs, hw⟩, hb⟩
    exact ⟨by omega, hs, hb, by omega, by omega⟩

/-- The bits of the value of a field: those of the word that the field covers. -/
theorem bit_extract (hf : f.Checked) (word : UInt32) (i : Nat) :
    bit (f.extract word) i = (decide (i < f.width) && bit word (f.shift + i)) := by
  have hin := hf.inside
  rw [extract, bit_and, bit_shiftRight, bit_mask, toNat_shift hf, Bool.and_comm]
  congr 1
  exact decide_eq_decide.mpr ⟨And.right, fun hw ↦ ⟨by omega, hw⟩⟩

/-- The value of a field as a number: the word shifted right, and its lowest bits. -/
theorem toNat_extract (hf : f.Checked) (word : UInt32) :
    (f.extract word).toNat = (word.toNat >>> f.shift) % 2 ^ f.width := by
  apply Nat.eq_of_testBit_eq
  intro i
  rw [Nat.testBit_mod_two_pow, Nat.testBit_shiftRight]
  exact bit_extract hf word i

/-- A word that has the bits of a value where a field is shows that value. -/
theorem extract_eq_of_bits (hf : f.Checked) {value word : UInt32} (hv : f.fits value)
    (h : ∀ i, f.Covers i → bit word i = bit value (i - f.shift)) : f.extract word = value := by
  apply eq_of_bit_eq
  intro i _
  rw [bit_extract hf]
  by_cases hi : i < f.width
  · rw [decide_eq_true hi, Bool.true_and, h (f.shift + i) ⟨by omega, by omega⟩,
      Nat.add_sub_cancel_left]
  · rw [decide_eq_false hi, Bool.false_and, fits_iff.mp hv i (Nat.not_lt.mp hi)]

/-- What is inserted is what is extracted. -/
theorem extract_insert (hf : f.Checked) {value : UInt32} (hv : f.fits value) :
    f.extract (f.insert value) = value :=
  extract_eq_of_bits hf hv fun i hi ↦ by rw [bit_insert hf, decide_eq_true hi, Bool.true_and]

/-- A field tells two words apart exactly if they differ in a bit that it covers. -/
theorem extract_eq_iff (hf : f.Checked) {v w : UInt32} :
    f.extract v = f.extract w ↔ ∀ i, f.Covers i → bit v i = bit w i := by
  constructor
  · intro h i hi
    have hlt : i - f.shift < f.width := Nat.sub_lt_left_of_lt_add hi.1 hi.2
    have hb := congrArg (bit · (i - f.shift)) h
    simpa only [bit_extract hf, hlt, decide_true, Bool.true_and, Nat.add_sub_cancel' hi.1] using hb
  · intro h
    apply eq_of_bit_eq
    intro i _
    rw [bit_extract hf, bit_extract hf]
    by_cases hi : i < f.width
    · rw [h (f.shift + i) ⟨by omega, by omega⟩]
    · rw [decide_eq_false hi, Bool.false_and, Bool.false_and]

/-- A field of all bits is the word. -/
theorem extract_of_width_eq (hf : f.Checked) (hw : f.width = 32) (word : UInt32) :
    f.extract word = word := by
  have hin := hf.inside
  apply eq_of_bit_eq
  intro i hi
  rw [bit_extract hf, hw, decide_eq_true hi, Bool.true_and, show f.shift = 0 by omega,
    Nat.zero_add]

/-- A field of one bit is set or not as that bit is. -/
theorem extract_of_width_eq_one (hf : f.Checked) (hw : f.width = 1) (word : UInt32) :
    f.extract word = if bit word f.shift then 1 else 0 := by
  have h : (f.extract word).toNat = (bit word f.shift).toNat := by
    rw [toNat_extract hf, hw, Nat.pow_one, Nat.shiftRight_eq_div_pow, ← Nat.toNat_testBit]
    rfl
  apply UInt32.toNat_inj.mp
  rw [h]
  cases bit word f.shift with
  | false => rfl
  | true => rfl

end DetectorLink.BitField
