import DetectorLink.Proofs.Packet.Frame
import DetectorLink.Proofs.Packet.InfoWord

/-!
# The header of a framed command

A header carries the bits of an info, the flags of the framing, and an even parity. A decoder
accepts a header exactly when it is that of the info it reads, without the flags of the framing.
-/

namespace DetectorLink.Lvds

open Word

@[simp] theorem bit_requiredFlags (i : Nat) :
    bit requiredFlags i = decide (i = 31 ∨ i = 30 ∨ i = 19 ∨ i = 18) := by
  by_cases hi : i < 32
  · revert i
    decide
  · rw [bit_of_ge requiredFlags (by omega), decide_eq_false (by omega)]

@[simp] theorem bit_framingFlags (i : Nat) :
    bit framingFlags i = decide (i = 16 ∨ i = 17 ∨ i = 18 ∨ i = 19) := by
  by_cases hi : i < 32
  · revert i
    decide
  · rw [bit_of_ge framingFlags (by omega), decide_eq_false (by omega)]

/-- An info with the flags that a header carries, but for its parity and its stop flag. -/
def framed (info : CommandInfo) : CommandInfo :=
  (info.set requiredFlags).clear (CommandFlag.lvdsParity ||| CommandFlag.lvdsStop)

theorem header_eq (info : CommandInfo) : header info = sealed headerBits (framed info).toRaw := rfl

theorem bit_flags_framed {i : Nat} (hi : i < 32) (info : CommandInfo) :
    bit (framed info).flags i =
      ((bit info.flags i || decide (i = 31 ∨ i = 30 ∨ i = 19 ∨ i = 18)) &&
        !decide (i = 16 ∨ i = 17)) := by
  have hm : bit (CommandFlag.lvdsParity ||| CommandFlag.lvdsStop) i = decide (i = 16 ∨ i = 17) := by
    revert i
    decide
  show bit ((info.flags ||| requiredFlags) &&& ~~~(_ ||| _)) i = _
  rw [bit_and, bit_or, bit_requiredFlags, bit_not, hm, decide_eq_true hi, Bool.true_and]

variable {info : CommandInfo}

theorem inPlace_framed (h : info.InPlace) : (framed info).InPlace := by
  apply h.with_flags
  intro i hi
  have hb := bit_flags_framed (by omega : i < 32) info
  rw [h.bit_flags hi, decide_eq_false (by omega : ¬(i = 31 ∨ i = 30 ∨ i = 19 ∨ i = 18))] at hb
  exact hb

/-- A header has its parity and its stop flag beside the bits of the framed info. -/
theorem bit_stopped_header {i : Nat} (h16 : i ≠ 16) (h17 : i ≠ 17) (stop : Bool)
    (info : CommandInfo) : bit (stopped stop (header info)) i = bit (framed info).toRaw i := by
  rw [bit_stopped h16 h17, header_eq, bit_sealed h16]

theorem bit_framed_parity (h : info.InPlace) : bit (framed info).toRaw 16 = false := by
  rw [(inPlace_framed h).bit_toRaw_high (by decide)]
  exact (bit_flags_framed (by decide) info).trans (Bool.and_false _)

theorem bit_header_stop (h : info.InPlace) : bit (header info) 17 = false := by
  rw [header_eq, bit_sealed (by decide), (inPlace_framed h).bit_toRaw_high (by decide)]
  exact (bit_flags_framed (by decide) info).trans (Bool.and_false _)

theorem parity_stopped_header (h : info.InPlace) (stop : Bool) :
    parity (stopped stop (header info) &&& headerBits) = 0 := by
  rw [parity_stopped rfl rfl (bit_header_stop h), header_eq]
  exact parity_sealed rfl (bit_framed_parity h)

theorem bit_flags_clear {i : Nat} (hi : i < 32) (info : CommandInfo) :
    bit (info.clear framingFlags).flags i =
      (bit info.flags i && !decide (i = 16 ∨ i = 17 ∨ i = 18 ∨ i = 19)) := by
  show bit (info.flags &&& ~~~framingFlags) i = _
  rw [bit_and, bit_not, bit_framingFlags, decide_eq_true hi, Bool.true_and]

/-- An info as it is recovered from its frames. -/
structure Unframed (info : CommandInfo) : Prop where
  inPlace : info.InPlace
  isCommand : bit info.flags 31 = true
  isPassthru : bit info.flags 30 = true
  framing : info.flags &&& framingFlags = 0

/-- Without the flags of the framing an info is as it is recovered, if it is marked as a relayed
command. -/
theorem Unframed.of_clear (h : info.InPlace) (hc : bit info.flags 31 = true)
    (hr : bit info.flags 30 = true) : Unframed (info.clear framingFlags) := by
  refine ⟨h.with_flags ?_, ?_, ?_, ?_⟩
  · intro i hi
    exact (bit_flags_clear (by omega) info).trans (by rw [h.bit_flags hi, Bool.false_and])
  · rw [bit_flags_clear (by decide), hc]
    rfl
  · rw [bit_flags_clear (by decide), hr]
    rfl
  · show info.flags &&& ~~~framingFlags &&& framingFlags = 0
    rw [UInt32.and_assoc, UInt32.not_and_self, UInt32.and_zero]

theorem Unframed.bit_framing (h : Unframed info) {i : Nat} (hi : i = 16 ∨ i = 17 ∨ i = 18 ∨ i = 19) :
    bit info.flags i = false := by
  have hb := congrArg (bit · i) h.framing
  simpa [hi] using hb

/-- The bits above those of the framing are what the header takes over from the info. -/
theorem Unframed.bit_framed (h : Unframed info) {i : Nat} (hi : 20 ≤ i) (hlt : i < 32) :
    bit (framed info).flags i = bit info.flags i := by
  rw [bit_flags_framed hlt, decide_eq_false (by omega : ¬(i = 16 ∨ i = 17))]
  by_cases hr : i = 31 ∨ i = 30
  · rcases hr with rfl | rfl
    · rw [h.isCommand]
      rfl
    · rw [h.isPassthru]
      rfl
  · rw [decide_eq_false (by omega), Bool.or_false]
    exact Bool.and_true _

/-- What a decoder checks of a header and reads from it. -/
structure Accepts (raw : UInt32) (stop : Bool) (info : CommandInfo) : Prop where
  ofRaw? : CommandInfo.ofRaw? raw = some info
  required : info.has requiredFlags = true
  parity : headerParityOk raw = true
  stop : info.has CommandFlag.lvdsStop = stop

theorem has_lvdsStop (info : CommandInfo) : info.has CommandFlag.lvdsStop = bit info.flags 17 :=
  hasFlags_eq_bit CommandFlag.bit_lvdsStop

/-- A header that is accepted is that of the info without the flags of the framing. -/
theorem Accepts.eq_stopped_header {raw : UInt32} {stop : Bool} (h : Accepts raw stop info) :
    Unframed (info.clear framingFlags) ∧ raw = stopped stop (header (info.clear framingFlags)) := by
  obtain ⟨rfl, hp, hc⟩ := CommandInfo.ofRaw?_eq_some_iff.mp h.ofRaw?
  have hreq := hasFlags_iff.mp h.required
  have hs := (has_lvdsStop info).symm.trans h.stop
  have hu := Unframed.of_clear hp hc (hreq 30 (by decide) (by simp))
  have hf := inPlace_framed hu.inPlace
  refine ⟨hu, eq_of_parity_eq (m := headerBits) rfl ?_ ?_⟩
  · intro i hi h16
    by_cases h17 : i = 17
    · rw [h17, bit_stopped_stop (bit_header_stop hu.inPlace), hp.bit_toRaw_high (by decide), hs]
    · rw [bit_stopped_header h16 h17]
      by_cases hlow : i < 16
      · exact hp.bit_toRaw_low hf rfl rfl hlow
      · rw [hp.bit_toRaw_high (by omega), hf.bit_toRaw_high (by omega), bit_flags_framed hi,
          bit_flags_clear hi, decide_eq_false (by omega : ¬(i = 16 ∨ i = 17))]
        -- the decoder asks for what the header sets, the rest is taken over
        by_cases hr : i = 31 ∨ i = 30 ∨ i = 19 ∨ i = 18
        · rw [hreq i hi (by simpa using hr)]
          simp [hr]
        · have hn : ¬(i = 16 ∨ i = 17 ∨ i = 18 ∨ i = 19) := by omega
          simp [hr, hn]
  · rw [parity_stopped_header hu.inPlace]
    exact beq_iff_eq.mp h.parity

/-- What is read from the header of an info. -/
def read (stop : Bool) (info : CommandInfo) : CommandInfo :=
  { info with flags := stopped stop (header info) &&& CommandFlag.all }

theorem bit_flags_read {i : Nat} (hi : 16 ≤ i) (hlt : i < 32) (stop : Bool) (info : CommandInfo) :
    bit (read stop info).flags i = bit (stopped stop (header info)) i := by
  show bit (stopped stop (header info) &&& CommandFlag.all) i = _
  rw [bit_and, CommandFlag.bit_all, decide_eq_true ⟨hi, hlt⟩, Bool.and_true]

theorem bit_flags_read_framed (h : info.InPlace) {i : Nat} (hi : 18 ≤ i) (hlt : i < 32)
    (stop : Bool) : bit (read stop info).flags i = bit (framed info).flags i := by
  rw [bit_flags_read (by omega) hlt, bit_stopped_header (by omega) (by omega),
    (inPlace_framed h).bit_toRaw_high (by omega)]

theorem bit_flags_read_required (h : info.InPlace) {i : Nat}
    (hi : i = 31 ∨ i = 30 ∨ i = 19 ∨ i = 18) (stop : Bool) :
    bit (read stop info).flags i = true := by
  rw [bit_flags_read_framed h (by omega) (by omega), bit_flags_framed (by omega),
    decide_eq_true hi, decide_eq_false (by omega : ¬(i = 16 ∨ i = 17)), Bool.or_true]
  rfl

theorem inPlace_read (h : info.InPlace) (stop : Bool) : (read stop info).InPlace :=
  ⟨h.command, by rw [read, UInt32.and_assoc, UInt32.and_self]⟩

/-- A header is the word of the info that is read from it. -/
theorem toRaw_read (h : info.InPlace) (stop : Bool) :
    (read stop info).toRaw = stopped stop (header info) := by
  apply eq_of_bit_eq
  intro i hi
  by_cases hlow : i < 16
  · rw [bit_stopped_header (by omega) (by omega)]
    exact (inPlace_read h stop).bit_toRaw_low (inPlace_framed h) rfl rfl hlow
  · rw [(inPlace_read h stop).bit_toRaw_high (by omega), bit_flags_read (by omega) hi]

/-- The header of an info is accepted. -/
theorem accepts_header (h : info.InPlace) (stop : Bool) :
    Accepts (stopped stop (header info)) stop (read stop info) := by
  refine ⟨?_, ?_, ?_, ?_⟩
  · rw [← toRaw_read h]
    exact CommandInfo.ofRaw?_toRaw (inPlace_read h stop) (bit_flags_read_required h (.inl rfl) stop)
  · rw [CommandInfo.has, hasFlags_iff]
    intro i hi hb
    rw [bit_requiredFlags, decide_eq_true_eq] at hb
    exact bit_flags_read_required h hb stop
  · rw [headerParityOk, parity_stopped_header h]
    rfl
  · rw [has_lvdsStop, bit_flags_read (by decide) (by decide), bit_stopped_stop (bit_header_stop h)]

/-- An info without the flags of the framing is read back from its header. -/
theorem Unframed.clear_read (h : Unframed info) (stop : Bool) :
    (read stop info).clear framingFlags = info := by
  show CommandInfo.mk info.command info.selector ((read stop info).clear framingFlags).flags = info
  congr 1
  apply eq_of_bit_eq
  intro i hi
  rw [bit_flags_clear hi]
  by_cases hlow : i < 16
  · rw [(inPlace_read h.inPlace stop).bit_flags hlow, h.inPlace.bit_flags hlow, Bool.false_and]
  · by_cases hf : i = 16 ∨ i = 17 ∨ i = 18 ∨ i = 19
    · rw [decide_eq_true hf, h.bit_framing hf]
      exact Bool.and_false _
    · rw [decide_eq_false hf, bit_flags_read_framed h.inPlace (by omega) hi,
        h.bit_framed (by omega) hi]
      exact Bool.and_true _

/-- An info as it is recovered from its frames, whatever flags it had. -/
def recovered (info : CommandInfo) : CommandInfo :=
  (info.set (CommandFlag.isCommand ||| CommandFlag.isPassthru)).clear framingFlags

theorem bit_flags_relayed (i : Nat) (info : CommandInfo) :
    bit (info.set (CommandFlag.isCommand ||| CommandFlag.isPassthru)).flags i =
      (bit info.flags i || decide (i = 31 ∨ i = 30)) := by
  have hm : bit (CommandFlag.isCommand ||| CommandFlag.isPassthru) i = decide (i = 31 ∨ i = 30) := by
    by_cases hi : i < 32
    · revert i
      decide
    · rw [bit_of_ge _ (by omega), decide_eq_false (by omega)]
  show bit (info.flags ||| (_ ||| _)) i = _
  rw [bit_or, hm]

theorem unframed_recovered (h : info.InPlace) : Unframed (recovered info) := by
  refine Unframed.of_clear (h.with_flags ?_) ?_ ?_
  · intro i hi
    refine (bit_flags_relayed i info).trans ?_
    rw [h.bit_flags hi, decide_eq_false (by omega), Bool.false_or]
  · rw [bit_flags_relayed]
    simp
  · rw [bit_flags_relayed]
    simp

/-- The header does not depend on the flags that are not recovered. -/
theorem framed_recovered (info : CommandInfo) : framed (recovered info) = framed info := by
  show CommandInfo.mk info.command info.selector (framed (recovered info)).flags =
    CommandInfo.mk info.command info.selector (framed info).flags
  congr 1
  apply eq_of_bit_eq
  intro i hi
  rw [bit_flags_framed hi, bit_flags_framed hi, recovered, bit_flags_clear hi, bit_flags_relayed]
  by_cases hr : i = 31 ∨ i = 30 ∨ i = 19 ∨ i = 18
  · simp [hr]
  · by_cases hf : i = 16 ∨ i = 17
    · simp [hf]
    · have hn : ¬(i = 31 ∨ i = 30) := by omega
      have hm : ¬(i = 16 ∨ i = 17 ∨ i = 18 ∨ i = 19) := by omega
      simp [hn, hm]

/-- A header is that of an info whose parts are in their places, whatever info it was made for. -/
theorem exists_inPlace_header (info : CommandInfo) :
    ∃ placed : CommandInfo, placed.InPlace ∧ header placed = header info := by
  have hhigh {i : Nat} (hi : 16 ≤ i) : bit (framed info).toRaw i = bit (framed info).flags i := by
    rw [CommandInfo.bit_toRaw_eq_or, testBit_byte_of_ge _ (by omega), testBit_byte_of_ge _ (by omega)]
    simp only [Bool.and_false, Bool.false_or]
  -- the word that the header seals is marked as a command, so an info can be read from it
  obtain ⟨placed, hread⟩ : ∃ placed, CommandInfo.ofRaw? (framed info).toRaw = some placed := by
    have hmark : bit (framed info).toRaw 31 = true := by
      rw [hhigh (by decide), bit_flags_framed (by decide)]
      simp
    rw [CommandInfo.ofRaw?, and_bne_zero CommandFlag.bit_isCommand, hmark]
    exact ⟨_, rfl⟩
  obtain ⟨hraw, hp, _⟩ := CommandInfo.ofRaw?_eq_some_iff.mp hread
  have hself : framed placed = placed := by
    show CommandInfo.mk placed.command placed.selector (framed placed).flags = placed
    congr 1
    apply eq_of_bit_eq
    intro i hi
    rw [bit_flags_framed hi]
    by_cases hlow : i < 16
    · rw [hp.bit_flags hlow, decide_eq_false (by omega)]
      rfl
    · rw [← hp.bit_toRaw_high (by omega), ← hraw, hhigh (by omega), bit_flags_framed hi]
      cases decide (i = 31 ∨ i = 30 ∨ i = 19 ∨ i = 18) <;> cases decide (i = 16 ∨ i = 17) <;> simp
  exact ⟨placed, hp, by rw [header_eq, header_eq, hself, hraw]⟩

end DetectorLink.Lvds
