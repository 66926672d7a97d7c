import DetectorLink.Proofs.Module.Field
import DetectorLink.Proofs.Packet.Described

/-!
# Where the parts of a pulse header stand

Every part of a pulse header is the number in one range of bits of one word, and the ranges share
out all bits but four. So two headers are equal exactly when their words agree on every other bit.
The time of a pulse is counted in 64 bits, which always hold it.
-/

namespace DetectorLink

/-- The code of a flavor. -/
def PulseFlavor.toByte : PulseFlavor → UInt8
  | noBeam => 0
  | target1 => 1
  | target2 => 2
  | diag10us => 3
  | diag50us => 4
  | diag100us => 5
  | physics1 => 6
  | physics2 => 7
  | unknown code => code

/-- Every code survives being decoded. -/
@[simp] theorem PulseFlavor.toByte_ofByte (b : UInt8) : (ofByte b).toByte = b := by
  unfold ofByte
  split <;> rfl

namespace RtdlHeader

/-- A part of a pulse header. -/
inductive Part where
  /-- Whole seconds. -/
  | seconds
  /-- Nanoseconds within the second. -/
  | nanoseconds
  /-- Charge. -/
  | charge
  /-- Flavor of the next pulse. -/
  | flavor
  /-- Mark of a bad flavor frame. -/
  | badFlavorFrame
  /-- Cycle number. -/
  | cycle
  /-- Veto bits of the previous cycle. -/
  | lastCycleVeto
  /-- Status field. -/
  | tstat
  /-- Mark of a bad cycle frame. -/
  | badCycleFrame
  /-- Mark of a bad veto frame. -/
  | badVetoFrame
  /-- Synchronisation period. -/
  | tsyncPeriod
  /-- Fixed part of the time-of-flight offset. -/
  | tofFixedOffset
  /-- Frame offset. -/
  | frameOffset
  /-- Mark of the full time-of-flight offset. -/
  | tofFullOffset
  deriving DecidableEq, Repr

namespace Part

/-- Where a part stands: its word, its number of bits, and the lowest of them. -/
def field : Part → BitField
  | seconds => ⟨0, 32, 0⟩
  | nanoseconds => ⟨1, 32, 0⟩
  | charge => ⟨2, 24, 0⟩
  | flavor => ⟨2, 6, 24⟩
  | badFlavorFrame => ⟨2, 1, 30⟩
  | cycle => ⟨3, 10, 0⟩
  | lastCycleVeto => ⟨3, 12, 10⟩
  | tstat => ⟨3, 8, 22⟩
  | badCycleFrame => ⟨3, 1, 30⟩
  | badVetoFrame => ⟨3, 1, 31⟩
  | tsyncPeriod => ⟨4, 32, 0⟩
  | tofFixedOffset => ⟨5, 24, 0⟩
  | frameOffset => ⟨5, 4, 24⟩
  | tofFullOffset => ⟨5, 1, 31⟩

/-- All parts, in the order in which they stand in the words. -/
def all : List Part :=
  [seconds, nanoseconds, charge, flavor, badFlavorFrame, cycle, lastCycleVeto, tstat,
    badCycleFrame, badVetoFrame, tsyncPeriod, tofFixedOffset, frameOffset, tofFullOffset]

theorem mem_all (p : Part) : p ∈ all := by
  cases p <;> decide

theorem offset_lt (p : Part) : p.field.offset < wordCount := by
  cases p <;> decide

theorem checked (p : Part) : p.field.Checked := by
  cases p <;> decide

/-- The word in which a part stands. -/
def word (p : Part) (ws : Vector UInt32 wordCount) : UInt32 :=
  ws.get ⟨p.field.offset, p.offset_lt⟩

/-- A part has bit `i` of word `w`. -/
def Has (p : Part) (w i : Nat) : Prop := p.field.offset = w ∧ p.field.Covers i

instance (p : Part) (w i : Nat) : Decidable (p.Has w i) := inferInstanceAs (Decidable (_ ∧ _))

/-- A bit that no part has. -/
def Spare (w i : Nat) : Prop := w = 2 ∧ i = 31 ∨ w = 5 ∧ 28 ≤ i ∧ i ≤ 30

instance (w i : Nat) : Decidable (Spare w i) := inferInstanceAs (Decidable (_ ∨ _))

/-- A part has bits of the six words only. -/
theorem Has.lt {p : Part} {w i : Nat} (h : p.Has w i) : w < wordCount ∧ i < 32 :=
  ⟨h.1 ▸ p.offset_lt, h.2.lt p.checked⟩

/-- No two parts share a bit. -/
theorem Has.unique {p q : Part} {w i : Nat} (hp : p.Has w i) (hq : q.Has w i) : p = q := by
  have hall : ∀ w < wordCount, ∀ i < 32, ∀ p ∈ all, p.Has w i → ∀ q ∈ all, q.Has w i → p = q := by
    decide +kernel
  exact hall w hp.lt.1 i hp.lt.2 p p.mem_all hp q q.mem_all hq

/-- Every bit that is not spare belongs to a part. -/
theorem exists_has_iff {w i : Nat} (hw : w < wordCount) (hi : i < 32) :
    (∃ p : Part, p.Has w i) ↔ ¬Spare w i := by
  have hall : ∀ w < wordCount, ∀ i < 32, (∃ p ∈ all, p.Has w i) ↔ ¬Spare w i := by
    decide +kernel
  rw [← hall w hw i hi]
  exact ⟨fun ⟨p, hp⟩ ↦ ⟨p, p.mem_all, hp⟩, fun ⟨p, _, hp⟩ ↦ ⟨p, hp⟩⟩

end Part

/-- A part of a header as a number. -/
def value (h : RtdlHeader) : Part → UInt32
  | .seconds => h.seconds
  | .nanoseconds => h.nanoseconds
  | .charge => h.charge
  | .flavor => h.flavor.toByte.toUInt32
  | .badFlavorFrame => if h.badFlavorFrame then 1 else 0
  | .cycle => h.cycle
  | .lastCycleVeto => h.lastCycleVeto
  | .tstat => h.tstat
  | .badCycleFrame => if h.badCycleFrame then 1 else 0
  | .badVetoFrame => if h.badVetoFrame then 1 else 0
  | .tsyncPeriod => h.tsyncPeriod
  | .tofFixedOffset => h.tofFixedOffset
  | .frameOffset => h.frameOffset
  | .tofFullOffset => if h.tofFullOffset then 1 else 0

/-- A word is tested for one of its bits. -/
theorem bit_eq (w : UInt32) {n : UInt32} (hn : n.toNat < 32) : bit w n = Word.bit w n.toNat := by
  refine Word.and_bne_zero (fun i ↦ ?_) w
  have hone (k : Nat) : Word.bit 1 k = decide (0 = k) := Nat.testBit_two_pow (n := 0)
  rw [Word.bit_shiftLeft, Nat.mod_eq_of_lt hn, hone, Bool.eq_iff_iff]
  simp only [Bool.and_eq_true, decide_eq_true_eq]
  omega

/-- A mark is the number in a field of one bit. -/
private theorem mark_eq_extract {f : BitField} (hf : f.Checked) (hw : f.width = 1) {n : UInt32}
    (hn : n.toNat = f.shift) (word : UInt32) :
    (if bit word n then (1 : UInt32) else 0) = f.extract word := by
  rw [bit_eq word (hn ▸ hf.shift_lt), hn, BitField.extract_of_width_eq_one hf hw]

/-- The code of a flavor is the number in a field of at most eight bits. -/
private theorem code_eq_extract {f : BitField} (hf : f.Checked) (hw : f.width ≤ 8)
    (word : UInt32) :
    (PulseFlavor.ofByte (f.extract word).toUInt8).toByte.toUInt32 = f.extract word := by
  have hlt : (f.extract word).toNat < 2 ^ 8 := by
    rw [BitField.toNat_extract hf]
    exact Nat.lt_of_lt_of_le (Nat.mod_lt _ (Nat.two_pow_pos _))
      (Nat.pow_le_pow_right (by decide) hw)
  rw [PulseFlavor.toByte_ofByte]
  apply UInt32.toNat_inj.mp
  rw [UInt8.toNat_toUInt32, UInt32.toNat_toUInt8]
  exact Nat.mod_eq_of_lt hlt

/-- Each part of a decoded header is the number in its bits. -/
theorem value_ofVector (ws : Vector UInt32 wordCount) (p : Part) :
    (ofVector ws).value p = p.field.extract (p.word ws) := by
  have hp := p.checked
  cases p with
  | seconds => exact (BitField.extract_of_width_eq hp rfl _).symm
  | nanoseconds => exact (BitField.extract_of_width_eq hp rfl _).symm
  | charge => exact congrArg (· &&& 0x00FFFFFF) UInt32.shiftRight_zero.symm
  | flavor => exact code_eq_extract hp (by decide) ws[2]
  | badFlavorFrame => exact mark_eq_extract hp rfl rfl ws[2]
  | cycle => exact congrArg (· &&& 0x3FF) UInt32.shiftRight_zero.symm
  | lastCycleVeto => rfl
  | tstat => rfl
  | badCycleFrame => exact mark_eq_extract hp rfl rfl ws[3]
  | badVetoFrame => exact mark_eq_extract hp rfl rfl ws[3]
  | tsyncPeriod => exact (BitField.extract_of_width_eq hp rfl _).symm
  | tofFixedOffset => exact congrArg (· &&& 0x00FFFFFF) UInt32.shiftRight_zero.symm
  | frameOffset => rfl
  | tofFullOffset => exact mark_eq_extract hp rfl rfl ws[5]

/-- Marks are equal if their numbers are. -/
private theorem mark_inj {b c : Bool} (h : (if b then (1 : UInt32) else 0) = if c then 1 else 0) :
    b = c := by
  revert h
  cases b <;> cases c <;> decide

/-- Decoded flavors are equal if their codes are. -/
private theorem flavor_inj {b c : UInt8}
    (h : (PulseFlavor.ofByte b).toByte.toUInt32 = (PulseFlavor.ofByte c).toByte.toUInt32) :
    PulseFlavor.ofByte b = PulseFlavor.ofByte c := by
  rw [PulseFlavor.toByte_ofByte, PulseFlavor.toByte_ofByte] at h
  rw [UInt8.toUInt32_inj.mp h]

/-- Decoded headers are equal exactly if their parts are equal as numbers. -/
theorem ofVector_eq_iff_value {a b : Vector UInt32 wordCount} :
    ofVector a = ofVector b ↔ ∀ p, (ofVector a).value p = (ofVector b).value p := by
  constructor
  · intro h p
    rw [h]
  · intro h
    rw [ofVector, ofVector, ofWords, ofWords, RtdlHeader.mk.injEq]
    exact ⟨h .seconds, h .nanoseconds, h .charge, flavor_inj (h .flavor),
      mark_inj (h .badFlavorFrame), h .cycle, h .lastCycleVeto, h .tstat,
      mark_inj (h .badCycleFrame), mark_inj (h .badVetoFrame), h .tsyncPeriod,
      h .tofFixedOffset, h .frameOffset, mark_inj (h .tofFullOffset)⟩

/-- Decoded headers are equal exactly if their words agree on the bits of all parts. -/
theorem ofVector_eq_iff_bit {a b : Vector UInt32 wordCount} :
    ofVector a = ofVector b ↔ ∀ w (hw : w < wordCount), ∀ i < 32, ¬Part.Spare w i →
      Word.bit a[w] i = Word.bit b[w] i := by
  have hpart (p : Part) : (ofVector a).value p = (ofVector b).value p ↔
      ∀ i, p.field.Covers i → Word.bit (p.word a) i = Word.bit (p.word b) i := by
    rw [value_ofVector, value_ofVector, BitField.extract_eq_iff p.checked]
  rw [ofVector_eq_iff_value]
  simp only [hpart]
  constructor
  · intro h w hw i hi hs
    obtain ⟨p, rfl, hc⟩ := (Part.exists_has_iff hw hi).mpr hs
    exact h p i hc
  · intro h p i hc
    have hi := hc.lt p.checked
    exact h _ p.offset_lt i hi ((Part.exists_has_iff p.offset_lt hi).mp ⟨p, rfl, hc⟩)

/-- The time of a pulse is counted without wrapping. -/
theorem timestamp_exact (h : RtdlHeader) :
    h.seconds.toNat * 1000000000 + h.nanoseconds.toNat < 2 ^ 64 ∧
      h.timestamp.toNat = h.seconds.toNat * 1000000000 + h.nanoseconds.toNat := by
  have hs := h.seconds.toNat_lt
  have hn := h.nanoseconds.toNat_lt
  have hlt : h.seconds.toNat * 1000000000 + h.nanoseconds.toNat < 2 ^ 64 := by omega
  refine ⟨hlt, ?_⟩
  rw [timestamp, UInt64.toNat_add, UInt64.toNat_mul, UInt32.toNat_toUInt64, UInt32.toNat_toUInt64,
    show (1000000000 : UInt64).toNat = 1000000000 from rfl, Nat.mod_add_mod]
  exact Nat.mod_eq_of_lt hlt

/-- Six words decode to the same header exactly if they agree on every bit except bit 31 of word 2
and bits 28 to 30 of word 5. For each part of a header is the number in its own bits of one word,
these bits are all the others, and no two parts share one. The time of any header is its seconds and
nanoseconds exactly, a number of 64 bits. -/
theorem parts_share_out_bits :
    (∀ a b : Vector UInt32 wordCount, ofVector a = ofVector b ↔
      ∀ w (hw : w < wordCount), ∀ i < 32, ¬(w = 2 ∧ i = 31 ∨ w = 5 ∧ 28 ≤ i ∧ i ≤ 30) →
        Word.bit a[w] i = Word.bit b[w] i) ∧
    (∀ (a : Vector UInt32 wordCount) (p : Part), (ofVector a).value p = p.field.extract (p.word a)) ∧
    (∀ w < wordCount, ∀ i < 32,
      (∃ p : Part, p.Has w i) ↔ ¬(w = 2 ∧ i = 31 ∨ w = 5 ∧ 28 ≤ i ∧ i ≤ 30)) ∧
    (∀ (p q : Part) (w i : Nat), p.Has w i → q.Has w i → p = q) ∧
    (∀ h : RtdlHeader, h.seconds.toNat * 1000000000 + h.nanoseconds.toNat < 2 ^ 64 ∧
      h.timestamp.toNat = h.seconds.toNat * 1000000000 + h.nanoseconds.toNat) := by
  refine ⟨fun a b ↦ ofVector_eq_iff_bit, value_ofVector, ?_, ?_, timestamp_exact⟩
  · intro w hw i hi
    exact Part.exists_has_iff hw hi
  · intro p q w i hp hq
    exact hp.unique hq

/-- Words that differ in spare bits only. -/
example : ofVector #v[7, 8, 0x80000001, 0, 5, 0x70000000] = ofVector #v[7, 8, 1, 0, 5, 0] := by
  decide

end RtdlHeader

end DetectorLink
