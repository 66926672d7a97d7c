import DetectorLink.Packet.Lvds
import DetectorLink.Proofs.Packet.Bits

/-!
# Even parity

Parity is additive, so that a parity bit makes a frame even, a stop flag set together with it keeps
the frame even, and frames of the same parity that agree but for the parity bit are the same.
-/

namespace DetectorLink.Lvds

open Word

/-! ### Parity -/

/-- Set bits of a sum without carries, up to an even number. -/
theorem oneBits_xor_mod (a b : UInt32) :
    oneBits (a ^^^ b) % 2 = (oneBits a + oneBits b) % 2 := by
  simp only [oneBits, UInt32.toNat_xor, Nat.testBit_xor]
  induction List.range 32 with
  | nil => rfl
  | cons i is ih =>
    simp only [List.countP_cons]
    cases a.toNat.testBit i <;> cases b.toNat.testBit i <;> simp <;> omega

theorem parity_cases (w : UInt32) :
    (oneBits w % 2 = 0 ∧ parity w = 0) ∨ (oneBits w % 2 = 1 ∧ parity w = 1) := by
  rcases Nat.mod_two_eq_zero_or_one (oneBits w) with h | h
  · exact .inl ⟨h, by rw [parity, h]; rfl⟩
  · exact .inr ⟨h, by rw [parity, h]; rfl⟩

theorem parity_eq_zero_iff {w : UInt32} : parity w = 0 ↔ oneBits w % 2 = 0 := by
  rcases parity_cases w with ⟨h, hp⟩ | ⟨h, hp⟩ <;> simp [h, hp]

/-- Parity is additive. -/
theorem parity_xor (a b : UInt32) : parity (a ^^^ b) = parity a ^^^ parity b := by
  have h := oneBits_xor_mod a b
  rcases parity_cases a with ⟨ha, hpa⟩ | ⟨ha, hpa⟩ <;>
    rcases parity_cases b with ⟨hb, hpb⟩ | ⟨hb, hpb⟩ <;>
    rcases parity_cases (a ^^^ b) with ⟨hx, hpx⟩ | ⟨hx, hpx⟩ <;>
    simp [hpa, hpb, hpx] <;> omega

theorem parity_parityBit : parity parityBit = 1 := by decide

/-! ### Bits of a frame -/

@[simp] theorem bit_dataMask (i : Nat) : bit dataMask i = decide (i < 16) :=
  Nat.testBit_two_pow_sub_one 16 i

@[simp] theorem bit_frameBits (i : Nat) : bit frameBits i = decide (i < 18) :=
  Nat.testBit_two_pow_sub_one 18 i

@[simp] theorem bit_headerBits (i : Nat) : bit headerBits i = decide (i < 24) :=
  Nat.testBit_two_pow_sub_one 24 i

@[simp] theorem bit_parityBit (i : Nat) : bit parityBit i = decide (16 = i) :=
  Nat.testBit_two_pow (n := 16)

@[simp] theorem bit_stopBit (i : Nat) : bit stopBit i = decide (17 = i) :=
  Nat.testBit_two_pow (n := 17)

/-- A parity in its place is the parity bit or nothing. -/
theorem parity_shiftLeft_cases (w : UInt32) :
    (parity w = 0 ∧ parity w <<< 16 = 0) ∨ (parity w = 1 ∧ parity w <<< 16 = parityBit) := by
  rcases parity_cases w with ⟨_, hp⟩ | ⟨_, hp⟩
  · exact .inl ⟨hp, by rw [hp]; rfl⟩
  · exact .inr ⟨hp, by rw [hp]; rfl⟩

variable {m : UInt32}

/-- Changing the parity bit changes the parity of whatever covers it. -/
theorem parity_xor_parityBit (hm : bit m 16 = true) (w : UInt32) :
    parity ((w ^^^ parityBit) &&& m) = parity (w &&& m) ^^^ 1 := by
  have he : (w ^^^ parityBit) &&& m = (w &&& m) ^^^ parityBit := by
    apply eq_of_bit_eq
    intro i hi
    simp only [bit_and, bit_xor, bit_parityBit]
    by_cases h : 16 = i
    · subst h
      simp [hm]
    · simp [h]
  rw [he, parity_xor, parity_parityBit]

/-- Words that agree but for the parity bit, with the same parity, are the same. -/
theorem eq_of_parity_eq {a b : UInt32} (hm : bit m 16 = true)
    (h : ∀ i < 32, i ≠ 16 → bit a i = bit b i)
    (hp : parity (a &&& m) = parity (b &&& m)) : a = b := by
  by_cases h16 : bit a 16 = bit b 16
  · apply eq_of_bit_eq
    intro i hi
    by_cases he : i = 16
    · rw [he, h16]
    · exact h i hi he
  · have hx : a = b ^^^ parityBit := by
      apply eq_of_bit_eq
      intro i hi
      rw [bit_xor, bit_parityBit]
      by_cases he : i = 16
      · subst he
        revert h16
        cases bit a 16 <;> cases bit b 16 <;> simp
      · rw [h i hi he, decide_eq_false (Ne.symm he), Bool.xor_false]
    rw [hx, parity_xor_parityBit hm] at hp
    rcases parity_cases (b &&& m) with ⟨_, hb⟩ | ⟨_, hb⟩ <;> simp [hb] at hp

/-- A word made even by its parity bit. -/
def sealed (mask w : UInt32) : UInt32 := w ||| (parity (w &&& mask) <<< 16)

theorem bit_sealed {i : Nat} (hi : i ≠ 16) (mask w : UInt32) : bit (sealed mask w) i = bit w i := by
  rw [sealed, bit_or]
  rcases parity_shiftLeft_cases (w &&& mask) with ⟨_, hs⟩ | ⟨_, hs⟩
  · rw [hs, bit_zero, Bool.or_false]
  · rw [hs, bit_parityBit, decide_eq_false (Ne.symm hi), Bool.or_false]

theorem parity_sealed (hm : bit m 16 = true) {w : UInt32} (hw : bit w 16 = false) :
    parity (sealed m w &&& m) = 0 := by
  rw [sealed]
  rcases parity_shiftLeft_cases (w &&& m) with ⟨hp, hs⟩ | ⟨hp, hs⟩
  · rw [hs, UInt32.or_zero, hp]
  · have hx : w ||| parityBit = w ^^^ parityBit := by
      apply eq_of_bit_eq
      intro i hi
      rw [bit_or, bit_xor, bit_parityBit]
      by_cases he : 16 = i
      · subst he
        simp [hw]
      · simp [he]
    rw [hs, hx, parity_xor_parityBit hm, hp]
    rfl

/-- A frame with its stop flag set as said, and its parity kept. -/
def stopped (stop : Bool) (frame : UInt32) : UInt32 :=
  if stop then (frame ||| stopBit) ^^^ parityBit else frame

theorem bit_stopped {i : Nat} (hi : i ≠ 16) (hs : i ≠ 17) (stop : Bool) (frame : UInt32) :
    bit (stopped stop frame) i = bit frame i := by
  cases stop with
  | false => rfl
  | true =>
    show bit ((frame ||| stopBit) ^^^ parityBit) i = _
    simp [Ne.symm hi, Ne.symm hs]

theorem bit_stopped_stop {frame : UInt32} (hf : bit frame 17 = false) (stop : Bool) :
    bit (stopped stop frame) 17 = stop := by
  cases stop with
  | false => exact hf
  | true =>
    show bit ((frame ||| stopBit) ^^^ parityBit) 17 = _
    simp

theorem parity_stopped {frame : UInt32} (hp : bit m 16 = true) (hs : bit m 17 = true)
    (hf : bit frame 17 = false) (stop : Bool) :
    parity (stopped stop frame &&& m) = parity (frame &&& m) := by
  cases stop with
  | false => rfl
  | true =>
    have hx : (frame ||| stopBit) &&& m = (frame &&& m) ^^^ stopBit := by
      apply eq_of_bit_eq
      intro i hi
      simp only [bit_and, bit_or, bit_xor, bit_stopBit]
      by_cases he : 17 = i
      · subst he
        simp [hs, hf]
      · simp [he]
    show parity (((frame ||| stopBit) ^^^ parityBit) &&& m) = _
    rw [parity_xor_parityBit hp, hx, parity_xor, show parity stopBit = 1 by decide,
      UInt32.xor_assoc, UInt32.xor_self, UInt32.xor_zero]

end DetectorLink.Lvds
