import DetectorLink.Packet.Info
import DetectorLink.Proofs.Packet.Bits

/-!
# Command words and their fields

Command code, selector and flags lie in separate bits of a command word. A word therefore decodes
to an info exactly when it is the word of that info, and nothing is lost either way.
-/

namespace DetectorLink

open Word

namespace CommandFlag

@[simp] theorem bit_all (i : Nat) : bit all i = decide (16 ≤ i ∧ i < 32) := by
  by_cases hi : i < 32
  · revert i
    decide
  · rw [bit_of_ge all (by omega), decide_eq_false (by omega)]

@[simp] theorem bit_isCommand (i : Nat) : bit isCommand i = decide (31 = i) :=
  Nat.testBit_two_pow (n := 31)

@[simp] theorem bit_lvdsStop (i : Nat) : bit lvdsStop i = decide (17 = i) :=
  Nat.testBit_two_pow (n := 17)

@[simp] theorem bit_lvdsStart (i : Nat) : bit lvdsStart i = decide (18 = i) :=
  Nat.testBit_two_pow (n := 18)

@[simp] theorem bit_lvdsCommand (i : Nat) : bit lvdsCommand i = decide (19 = i) :=
  Nat.testBit_two_pow (n := 19)

@[simp] theorem bit_isResponse (i : Nat) : bit isResponse i = decide (29 = i) :=
  Nat.testBit_two_pow (n := 29)

@[simp] theorem bit_isPassthru (i : Nat) : bit isPassthru i = decide (30 = i) :=
  Nat.testBit_two_pow (n := 30)

/-- Flags lie in the upper half of the word exactly when they leave the lower half alone. -/
theorem and_all_eq_iff {flags : UInt32} :
    flags &&& all = flags ↔ ∀ i < 16, bit flags i = false := by
  constructor
  · intro h i hi
    rw [← h, bit_and, bit_all, decide_eq_false (by omega), Bool.and_false]
  · intro h
    apply eq_of_bit_eq
    intro i hi
    rw [bit_and, bit_all]
    by_cases h16 : i < 16
    · rw [h i h16, Bool.false_and]
    · rw [decide_eq_true (by omega), Bool.and_true]

end CommandFlag

@[simp] theorem DataFlag.bit_rtdlPresent (i : Nat) : bit rtdlPresent i = decide (3 = i) :=
  Nat.testBit_two_pow (n := 3)

/-- Flags have a mask when they have each of its bits. -/
theorem hasFlags_iff {flags mask : UInt32} :
    hasFlags flags mask = true ↔ ∀ i < 32, bit mask i = true → bit flags i = true := by
  rw [hasFlags, beq_iff_eq]
  constructor
  · intro h i hi hm
    rw [← h, bit_and] at hm
    exact (Bool.and_eq_true_iff.mp hm).1
  · intro h
    apply eq_of_bit_eq
    intro i hi
    rw [bit_and]
    cases hm : bit mask i with
    | true => rw [h i hi hm, Bool.true_and]
    | false => rw [Bool.and_false]

/-- Flags have a mask of one bit when they have that bit. -/
theorem hasFlags_eq_bit {flags mask : UInt32} {n : Nat} (hm : ∀ i, bit mask i = decide (n = i)) :
    hasFlags flags mask = bit flags n := by
  have hn : n < 32 := by
    rw [← Nat.not_le]
    intro h
    have hb := bit_of_ge mask h
    rw [hm, decide_eq_true rfl] at hb
    contradiction
  rw [Bool.eq_iff_iff, hasFlags_iff]
  constructor
  · intro h
    exact h n hn ((hm n).trans (decide_eq_true rfl))
  · intro h i _ hb
    rw [hm, decide_eq_true_eq] at hb
    rwa [← hb]

namespace CommandInfo

/-- The word of an info has the bits of its parts, each in its place. -/
theorem bit_toRaw_eq_or (info : CommandInfo) (i : Nat) : bit info.toRaw i =
    (info.command.toByte.toNat.testBit i ||
      (decide (i < 32) && (decide (8 ≤ i) && info.selector.toNat.testBit (i - 8))) ||
      bit info.flags i) := by
  have hs : (8 : UInt32).toNat % 32 = 8 := rfl
  simp only [toRaw, bit_or, bit_shiftLeft, bit_toUInt32, hs]

/-- The command comes from a byte, and the flags lie in the upper half of the word. -/
structure InPlace (info : CommandInfo) : Prop where
  command : Command.ofByte info.command.toByte = info.command
  flags : info.flags &&& CommandFlag.all = info.flags

namespace InPlace

variable {info : CommandInfo}

theorem of_byte {b : UInt8} (hc : info.command = .ofByte b)
    (hf : info.flags &&& CommandFlag.all = info.flags) : info.InPlace :=
  ⟨by rw [hc, Command.toByte_ofByte], hf⟩

/-- Flags in their place leave the lower half of the word alone. -/
theorem bit_flags (h : info.InPlace) {i : Nat} (hi : i < 16) : bit info.flags i = false :=
  CommandFlag.and_all_eq_iff.mp h.flags i hi

/-- Other flags in their place keep an info in place. -/
theorem with_flags (h : info.InPlace) {flags : UInt32} (hf : ∀ i < 16, bit flags i = false) :
    InPlace { info with flags } := ⟨h.command, CommandFlag.and_all_eq_iff.mpr hf⟩

/-- Command code, selector and flags lie in separate bits. -/
theorem bit_toRaw (h : info.InPlace) (i : Nat) : bit info.toRaw i =
    if i < 8 then info.command.toByte.toNat.testBit i
    else if i < 16 then info.selector.toNat.testBit (i - 8)
    else bit info.flags i := by
  rw [bit_toRaw_eq_or]
  by_cases h8 : i < 8
  · rw [h.bit_flags (by omega), ite_cond_eq_true _ _ (eq_true h8), decide_eq_false (by omega : ¬8 ≤ i)]
    simp only [Bool.false_and, Bool.and_false, Bool.or_false]
  · rw [testBit_byte_of_ge _ (by omega), ite_cond_eq_false _ _ (eq_false h8)]
    by_cases h16 : i < 16
    · rw [h.bit_flags h16, ite_cond_eq_true _ _ (eq_true h16), decide_eq_true (by omega : i < 32),
        decide_eq_true (by omega : 8 ≤ i)]
      simp only [Bool.true_and, Bool.false_or, Bool.or_false]
    · rw [testBit_byte_of_ge _ (by omega), ite_cond_eq_false _ _ (eq_false h16)]
      simp only [Bool.and_false, Bool.false_or]

/-- The upper half of the word holds the flags. -/
theorem bit_toRaw_high (h : info.InPlace) {i : Nat} (hi : 16 ≤ i) :
    bit info.toRaw i = bit info.flags i := by
  rw [h.bit_toRaw, ite_cond_eq_false _ _ (eq_false (by omega)),
    ite_cond_eq_false _ _ (eq_false (by omega))]

/-- The lower half of the word does not depend on the flags. -/
theorem bit_toRaw_low {other : CommandInfo} (h : info.InPlace) (h' : other.InPlace)
    (hc : info.command = other.command) (hs : info.selector = other.selector) {i : Nat}
    (hi : i < 16) : bit info.toRaw i = bit other.toRaw i := by
  rw [h.bit_toRaw, h'.bit_toRaw, hc, hs]
  simp only [hi, ite_true]

end InPlace

private theorem ofRaw?_eq (raw : UInt32) : ofRaw? raw =
    if bit raw 31 then
      some ⟨.ofByte raw.toUInt8, (raw >>> 8).toUInt8, raw &&& CommandFlag.all⟩
    else none := by
  unfold ofRaw?
  rw [and_bne_zero CommandFlag.bit_isCommand]

/-- A word that decodes is the word of the info it decodes to. -/
theorem toRaw_of_ofRaw? {raw : UInt32} {info : CommandInfo} (h : ofRaw? raw = some info) :
    raw = info.toRaw ∧ info.InPlace ∧ bit info.flags 31 = true := by
  rw [ofRaw?_eq] at h
  split at h
  · next hc =>
    obtain rfl := Option.some.inj h
    have hs : (8 : UInt32).toNat % 32 = 8 := rfl
    have hp : InPlace ⟨.ofByte raw.toUInt8, (raw >>> 8).toUInt8, raw &&& CommandFlag.all⟩ :=
      .of_byte rfl (by rw [UInt32.and_assoc, UInt32.and_self])
    refine ⟨eq_of_bit_eq fun i hi ↦ ?_, hp, ?_⟩
    · rw [hp.bit_toRaw]
      simp only [Command.toByte_ofByte, testBit_toUInt8, bit_shiftRight, bit_and,
        CommandFlag.bit_all, hs]
      split
      · next h8 => rw [decide_eq_true h8, Bool.true_and]
      · split
        · rw [decide_eq_true (by omega), Bool.true_and, Nat.add_sub_of_le (by omega)]
        · rw [decide_eq_true (by omega), Bool.and_true]
    · rw [bit_and, hc, CommandFlag.bit_all]
      rfl
  · contradiction

/-- The word of an info in its place decodes to it, if it is marked as a command. -/
theorem ofRaw?_toRaw {info : CommandInfo} (h : info.InPlace) (hc : bit info.flags 31 = true) :
    ofRaw? info.toRaw = some info := by
  have hb := h.bit_toRaw
  have hs : (8 : UInt32).toNat % 32 = 8 := rfl
  have hcommand : info.toRaw.toUInt8 = info.command.toByte := by
    apply byte_eq_of_testBit_eq
    intro i hi
    rw [testBit_toUInt8, hb, ite_cond_eq_true _ _ (eq_true hi), decide_eq_true hi, Bool.true_and]
  have hselector : (info.toRaw >>> 8).toUInt8 = info.selector := by
    apply byte_eq_of_testBit_eq
    intro i hi
    rw [testBit_toUInt8, bit_shiftRight, hb, hs, ite_cond_eq_false _ _ (eq_false (by omega)),
      ite_cond_eq_true _ _ (eq_true (by omega)), decide_eq_true hi, Bool.true_and,
      Nat.add_sub_cancel_left]
  have hflags : info.toRaw &&& CommandFlag.all = info.flags := by
    apply eq_of_bit_eq
    intro i hi
    rw [bit_and, hb, CommandFlag.bit_all]
    by_cases h16 : i < 16
    · rw [h.bit_flags h16, decide_eq_false (by omega), Bool.and_false]
    · rw [ite_cond_eq_false _ _ (eq_false (by omega)), ite_cond_eq_false _ _ (eq_false h16),
        decide_eq_true (by omega), Bool.and_true]
  have hmark : bit info.toRaw 31 = true := (hb 31).trans hc
  rw [ofRaw?_eq, hcommand, hselector, hflags, h.command]
  exact ite_cond_eq_true _ _ (eq_true hmark)

/-- A word decodes to an info exactly when it is its word, marked as a command. -/
theorem ofRaw?_eq_some_iff {raw : UInt32} {info : CommandInfo} :
    ofRaw? raw = some info ↔ raw = info.toRaw ∧ info.InPlace ∧ bit info.flags 31 = true := by
  constructor
  · exact toRaw_of_ofRaw?
  · rintro ⟨rfl, hp, hc⟩
    exact ofRaw?_toRaw hp hc

/-- An info is in its place exactly if its command comes from a byte and its flags leave the lower
half of the word alone. -/
theorem inPlace_iff {info : CommandInfo} :
    info.InPlace ↔ (∃ b, info.command = .ofByte b) ∧ ∀ i < 16, bit info.flags i = false := by
  constructor
  · intro h
    exact ⟨⟨_, h.command.symm⟩, fun i hi ↦ h.bit_flags hi⟩
  · rintro ⟨⟨b, hc⟩, hf⟩
    exact .of_byte hc (CommandFlag.and_all_eq_iff.mpr hf)

/-- A word decodes to an info exactly when it is marked as a command. -/
theorem isSome_ofRaw? (raw : UInt32) : (ofRaw? raw).isSome = bit raw 31 := by
  rw [ofRaw?_eq]
  cases bit raw 31 with
  | false => rfl
  | true => rfl

end CommandInfo

namespace Info

/-- The command word of a decoded word is that to which the word decodes as one. -/
theorem command?_ofRaw (raw : UInt32) : (ofRaw raw).command? = CommandInfo.ofRaw? raw := by
  rw [ofRaw]
  cases CommandInfo.ofRaw? raw with
  | none => rfl
  | some info => rfl

/-- Every word survives being decoded, whatever it says. -/
theorem toRaw_ofRaw (raw : UInt32) : (ofRaw raw).toRaw = raw := by
  rw [ofRaw]
  cases h : CommandInfo.ofRaw? raw with
  | none => rfl
  | some info => exact (CommandInfo.toRaw_of_ofRaw? h).1.symm

/-- Nothing is lost between a word and what it decodes to. Every word comes back, and is a command
word exactly when its highest bit is set. An info comes back from its word exactly if its command
comes from a byte, its flags leave the lower half of the word alone, and they mark it as a command.
The bits of its word are then those of the command code, of the selector and of the flags, each in
its own range, so that codes without a name and flags without a meaning are kept like any other. -/
theorem decoding_loses_nothing :
    (∀ raw, (ofRaw raw).toRaw = raw ∧ (ofRaw raw).command?.isSome = bit raw 31) ∧
    (∀ info : CommandInfo, CommandInfo.ofRaw? info.toRaw = some info ↔
      (∃ b, info.command = .ofByte b) ∧ (∀ i < 16, bit info.flags i = false) ∧
        info.has CommandFlag.isCommand = true) ∧
    (∀ raw info, CommandInfo.ofRaw? raw = some info → raw = info.toRaw ∧
      ∀ i, bit raw i =
        if i < 8 then info.command.toByte.toNat.testBit i
        else if i < 16 then info.selector.toNat.testBit (i - 8)
        else bit info.flags i) := by
  refine ⟨?_, ?_, ?_⟩
  · intro raw
    exact ⟨toRaw_ofRaw raw, by rw [command?_ofRaw, CommandInfo.isSome_ofRaw?]⟩
  · intro info
    rw [CommandInfo.ofRaw?_eq_some_iff, CommandInfo.inPlace_iff, CommandInfo.has,
      hasFlags_eq_bit CommandFlag.bit_isCommand, and_assoc]
    exact and_iff_right rfl
  · intro raw info h
    obtain ⟨rfl, hp, _⟩ := CommandInfo.toRaw_of_ofRaw? h
    exact ⟨rfl, hp.bit_toRaw⟩

end Info

end DetectorLink
