import DetectorLink.Module.Dsp
import DetectorLink.Proofs.Module.Verifying

/-!
# What a verified module has answered

A detector signal processor is verified by two answers, in this order: one to a discovery that names
its type, and one to a version request that carries a version and the expected firmware. Both came
since the verification last began, and no state in between was final. Refusals, answers of other
modules and answers to other commands confirm nothing.
-/

namespace DetectorLink

/-! ### What an answer confirms -/

/-- An answer to a discovery names a detector signal processor. -/
structure Answer.ConfirmsType (a : Answer) : Prop where
  command : a.command = .discover
  accepted : a.packet.command? ≠ some .nack
  moduleType : a.packet.moduleType? = some .dsp ∨ a.packet.moduleType? = some .dspW

/-- An answer to a version request carries a version, of the expected firmware if one is
expected. -/
structure Answer.ConfirmsVersion (expected : Option (UInt8 × UInt8)) (a : Answer) : Prop where
  command : a.command = .readVersion
  accepted : a.packet.command? ≠ some .nack
  length : a.packet.payload.length = 16
  firmware : ∃ v, DspVersion.parse? a.packet.payload = some v ∧
    ∀ version revision, expected = some (version, revision) →
      v.firmware.version = version ∧ v.firmware.revision = revision

theorem DspVersion.length_of_parse?_eq_some {payload : Bytes} {v : DspVersion}
    (h : parse? payload = some v) : payload.length = 16 := by
  unfold parse? at h
  split at h
  · cases h
  · next hl => exact not_not.mp hl

theorem ModuleType.isDsp_iff {type : ModuleType} : type.isDsp ↔ type = .dsp ∨ type = .dspW := by
  cases type <;> simp [isDsp]

namespace DspHandler

variable {h : DspHandler}

theorem accepts_iff {firmware : ComponentVersion} :
    h.accepts firmware ↔ ∀ version revision, h.expectedFirmware = some (version, revision) →
      firmware.version = version ∧ firmware.revision = revision := by
  unfold accepts
  cases h.expectedFirmware with
  | none => exact ⟨fun _ _ _ he ↦ (nomatch he), fun _ ↦ rfl⟩
  | some expected =>
    obtain ⟨version, revision⟩ := expected
    rw [Bool.and_eq_true_iff, beq_iff_eq, beq_iff_eq]
    constructor
    · intro he version' revision' hx
      cases hx
      exact he
    · intro he
      exact he version revision rfl

/-- A version request is answered well by a version of the expected firmware. -/
theorem checkVersion_eq_versionOk {payload : Bytes}
    (hv : (h.checkVersion payload).1 = .versionOk) :
    ∃ v, DspVersion.parse? payload = some v ∧ h.accepts v.firmware := by
  unfold checkVersion at hv
  split at hv
  · cases hv
  · next v hp =>
    split at hv
    · next ha => exact ⟨v, hp, ha⟩
    · cases hv

theorem checkVersion_ne_discoverOk (h : DspHandler) (payload : Bytes) :
    (h.checkVersion payload).1 ≠ .discoverOk := by
  unfold checkVersion
  split
  · nofun
  · split <;> nofun

theorem expectedFirmware_checkVersion (h : DspHandler) (payload : Bytes) :
    (h.checkVersion payload).2.expectedFirmware = h.expectedFirmware := by
  unfold checkVersion
  split <;> rfl

/-- No answer changes the expected firmware. -/
theorem expectedFirmware_respond (command : Command) (packet : Packet) (h : DspHandler) :
    (respond command packet h).2.expectedFirmware = h.expectedFirmware := by
  unfold respond
  split
  · rfl
  · split
    · rfl
    · exact h.expectedFirmware_checkVersion packet.payload
    · rfl
    · rfl

/-- Only the answer to a discovery confirms the type. -/
theorem confirmsType_of_respond {a : Answer}
    (hr : (respond a.command a.packet h).1 = some .discoverOk) : a.ConfirmsType := by
  unfold respond at hr
  split at hr
  · cases hr
  · next hn =>
    split at hr
    · next hc =>
      split at hr
      · next ht =>
        refine ⟨hc, fun he ↦ hn (beq_iff_eq.mpr he), ?_⟩
        cases hm : a.packet.moduleType? with
        | none =>
          rw [hm] at ht
          contradiction
        | some type =>
          rw [hm] at ht
          rw [Option.some_inj, Option.some_inj]
          exact ModuleType.isDsp_iff.mp ht
      · cases hr
    · exact absurd (Option.some.inj hr) (h.checkVersion_ne_discoverOk a.packet.payload)
    · cases hr
    · cases hr

/-- Only the answer to a version request confirms the version. -/
theorem confirmsVersion_of_respond {a : Answer}
    (hr : (respond a.command a.packet h).1 = some .versionOk) :
    a.ConfirmsVersion h.expectedFirmware := by
  unfold respond at hr
  split at hr
  · cases hr
  · next hn =>
    split at hr
    · split at hr <;> cases hr
    · next hc =>
      obtain ⟨v, hp, ha⟩ := checkVersion_eq_versionOk (Option.some.inj hr)
      exact ⟨hc, fun he ↦ hn (beq_iff_eq.mpr he), DspVersion.length_of_parse?_eq_some hp,
        v, hp, accepts_iff.mp ha⟩
    · cases hr
    · cases hr

end DspHandler

/-! ### The way to a state -/

namespace Verifying

/-- What was logged since the verification began, given the state that it led to. -/
inductive Course (expected : Option (UInt8 × UInt8)) : VerifyState → List Mark → Prop where
  /-- Nothing is confirmed. -/
  | init {marks : List Mark} (hi : ∀ m ∈ marks, m.after = .init) : Course expected .init marks
  /-- An answer confirmed the type. -/
  | typeOk {before between : List Mark} {discovery : Answer}
    (hi : ∀ m ∈ before, m.after = .init) (hd : discovery.ConfirmsType)
    (ht : ∀ m ∈ between, m.after = .typeOk) :
    Course expected .typeOk (before ++ ⟨.answered discovery, .typeOk⟩ :: between)
  /-- An answer confirmed the type, and a later one the version. -/
  | typeVersionOk {before between after : List Mark} {discovery version : Answer}
    (hi : ∀ m ∈ before, m.after = .init) (hd : discovery.ConfirmsType)
    (ht : ∀ m ∈ between, m.after = .typeOk) (hv : version.ConfirmsVersion expected)
    (ha : ∀ m ∈ after, m.after = .typeVersionOk) :
    Course expected .typeVersionOk (before ++ ⟨.answered discovery, .typeOk⟩ :: between ++
      ⟨.answered version, .typeVersionOk⟩ :: after)
  /-- The verification failed. -/
  | failed {state : VerifyState} {marks : List Mark} (hf : state.isFinal)
    (hne : state ≠ .typeVersionOk) : Course expected state marks

namespace Course

variable {expected : Option (UInt8 × UInt8)} {state : VerifyState} {marks : List Mark}

private theorem forall_mem_concat {p : Mark → Prop} {ms : List Mark} {m : Mark}
    (h : ∀ m ∈ ms, p m) (hm : p m) : ∀ n ∈ ms ++ [m], p n := by
  intro n hn
  rcases List.mem_append.mp hn with hn | hn
  · exact h n hn
  · exact List.mem_singleton.mp hn ▸ hm

/-- The state stays. -/
theorem stay (h : Course expected state marks) (what : Occurrence) :
    Course expected state (marks ++ [⟨what, state⟩]) := by
  cases h with
  | init hi => exact .init (forall_mem_concat hi rfl)
  | typeOk hi hd ht =>
    rw [List.append_assoc, List.cons_append]
    exact .typeOk hi hd (forall_mem_concat ht rfl)
  | typeVersionOk hi hd ht hv ha =>
    rw [List.append_assoc _ (_ :: _), List.cons_append]
    exact .typeVersionOk hi hd ht hv (forall_mem_concat ha rfl)
  | failed hf hne => exact .failed hf hne

/-- An action that something stands behind leads on. -/
theorem next (h : Course expected state marks) {what : Occurrence} {action : VerifyAction}
    (htype : action = .discoverOk → ∃ a : Answer, what = .answered a ∧ a.ConfirmsType)
    (hversion : action = .versionOk →
      ∃ a : Answer, what = .answered a ∧ a.ConfirmsVersion expected) :
    Course expected (state.next action) (marks ++ [⟨what, state.next action⟩]) := by
  cases h with
  | init hi =>
    cases action with
    | discoverOk =>
      obtain ⟨discovery, rfl, hd⟩ := htype rfl
      exact .typeOk hi hd (fun _ hm ↦ absurd hm List.not_mem_nil)
    | discoverErr => exact .failed rfl (by decide)
    | versionOk => exact (Course.init hi).stay what
    | versionErr => exact (Course.init hi).stay what
    | timeout => exact .failed rfl (by decide)
  | typeOk hi hd ht =>
    cases action with
    | discoverOk => exact (Course.typeOk hi hd ht).stay what
    | discoverErr => exact (Course.typeOk hi hd ht).stay what
    | versionOk =>
      obtain ⟨version, rfl, hv⟩ := hversion rfl
      exact .typeVersionOk hi hd ht hv (fun _ hm ↦ absurd hm List.not_mem_nil)
    | versionErr => exact .failed rfl (by decide)
    | timeout => exact .failed rfl (by decide)
  | typeVersionOk hi hd ht hv ha => exact (Course.typeVersionOk hi hd ht hv ha).stay what
  | failed hf hne =>
    rw [VerifyState.next_of_isFinal hf]
    exact (Course.failed hf hne).stay what

/-- Any occurrence but a new beginning leads on. -/
theorem leadsTo {handler : DspHandler} (h : Course handler.expectedFirmware state marks)
    {what : Occurrence} (hr : what ≠ .restarted) :
    Course handler.expectedFirmware (what.leadsTo handler state)
      (marks ++ [⟨what, what.leadsTo handler state⟩]) := by
  cases what with
  | restarted => contradiction
  | expired o => exact h.next (fun he ↦ by cases he) (fun he ↦ by cases he)
  | answered a =>
    rw [Occurrence.leadsTo]
    cases hc : (ResponseHandler.respond a.command a.packet handler).1 with
    | none => exact h.stay _
    | some action =>
      refine h.next ?_ ?_
      · rintro rfl
        exact ⟨a, rfl, DspHandler.confirmsType_of_respond hc⟩
      · rintro rfl
        exact ⟨a, rfl, DspHandler.confirmsVersion_of_respond hc⟩

end Course

variable {σ : Type}

/-- The log since the verification began leads to its state, with the firmware that is expected. -/
structure Coursed (expected : Option (UInt8 × UInt8)) (s : Verifying DspHandler σ) : Prop where
  sound : s.Sound
  firmware : s.exchange.commander.handler.expectedFirmware = expected
  course : Course expected s.verifyState (sinceRestart s.log)

theorem coursed_start (config : ModuleConfig) (handler : DspHandler) (t : σ) :
    (start config handler t).Coursed handler.expectedFirmware :=
  ⟨sound_start config handler t, rfl, .init fun _ hm ↦ absurd hm List.not_mem_nil⟩

theorem coursed_step {expected : Option (UInt8 × UInt8)} {s : Verifying DspHandler σ}
    (hs : s.Coursed expected) (sink : Sink σ) (event : Event) :
    (step sink s event).Coursed expected := by
  refine ⟨sound_step hs.sound sink event, ?_, ?_⟩
  · rcases handler_act sink s event with hh | ⟨a, hh⟩
    · exact (congrArg DspHandler.expectedFirmware hh).trans hs.firmware
    · have he := s.exchange.commander.handler.expectedFirmware_respond a.command a.packet
      exact (congrArg DspHandler.expectedFirmware hh).trans (he.trans hs.firmware)
  · have hv := verifyState_step hs.sound sink event
    have hlog : (step sink s event).log =
        s.log ++ (s.occurrence? event).toList.map (⟨·, (step sink s event).verifyState⟩) := rfl
    cases hw : s.occurrence? event with
    | none =>
      rw [hw] at hv hlog
      rw [hlog, hv]
      exact (List.append_nil s.log).symm ▸ hs.course
    | some what =>
      rw [hw] at hv hlog
      rw [hlog, hv, Option.toList_some, List.map_singleton, Option.elim_some]
      obtain rfl := hs.firmware
      by_cases hr : what = .restarted
      · rw [hr, sinceRestart_concat_restarted]
        exact .init fun _ hm ↦ absurd hm List.not_mem_nil
      · rw [sinceRestart_concat s.log hr]
        exact hs.course.leadsTo hr

/-- Every run leads to its state as its log says. -/
theorem coursed_run {expected : Option (UInt8 × UInt8)} {s : Verifying DspHandler σ}
    (hs : s.Coursed expected) (sink : Sink σ) (events : List Event) :
    (run sink s events).Coursed expected := by
  induction events generalizing s with
  | nil => exact hs
  | cons event rest ih => exact ih (coursed_step hs sink event)

/-- The module with an address answered an outstanding command, and did not refuse it. -/
structure Granted (s : Verifying DspHandler σ) (address : UInt32) (command : Command)
    (a : Answer) : Prop where
  completed : s.exchange.Completed a
  about : a.about.command = command
  isResponse : a.packet.isResponse
  sourceAddress : a.packet.sourceAddress = address
  responseType : a.packet.responseType? = some command
  accepted : a.packet.command? ≠ some .nack

/-- An answer in the log is that of the module to an outstanding command. -/
theorem Sound.granted {s : Verifying DspHandler σ} (hs : s.Sound) {m : Mark}
    (hm : m ∈ sinceRestart s.log) {a : Answer} (ha : m.what = .answered a)
    (hn : a.packet.command? ≠ some .nack) :
    s.Granted s.exchange.commander.address a.command a := by
  have hc := hs.completed m ((List.rtakeWhile_suffix _ _).subset hm) a ha
  obtain ⟨hr, hsource, ht⟩ := Commander.answered?_eq_some_iff.mp hc.answers
  exact ⟨hc, hc.command.symm, hr, hsource, hc.command ▸ ht, hn⟩

/-- After any sends, answers, expiries and restarts: a module counts as verified only if, since the
verification last began and with no final state in between, first it granted a discovery naming
its type as that of a detector signal processor, and later a version request with a version of the
expected firmware. A final state stays until the verification begins again. -/
theorem run_verified (sink : Sink σ) (config : ModuleConfig) (handler : DspHandler) (t : σ)
    (events : List Event) :
    let s := run sink (start config handler t) events
    (s.verifyState = .typeVersionOk → ∃ before discovery between version after,
      sinceRestart s.log = before ++ ⟨.answered discovery, .typeOk⟩ :: between ++
        ⟨.answered version, .typeVersionOk⟩ :: after ∧
      (∀ m ∈ before ++ between, m.after.isFinal = false) ∧
      s.Granted config.hardwareId.raw .discover discovery ∧ discovery.ConfirmsType ∧
      s.Granted config.hardwareId.raw .readVersion version ∧
      version.ConfirmsVersion handler.expectedFirmware) ∧
    (∀ more, .restart ∉ more → s.verifyState.isFinal →
      (run sink s more).verifyState = s.verifyState) := by
  intro s
  have hs : s.Coursed handler.expectedFirmware :=
    coursed_run (coursed_start config handler t) sink events
  have haddress : s.exchange.commander.address = config.hardwareId.raw :=
    congrArg (·.hardwareId.raw) (config_run sink (start config handler t) events)
  refine ⟨?_, fun more hr hf ↦ verifyState_run_of_isFinal hs.sound sink hr hf⟩
  intro hv
  have hcourse := hs.course
  rw [hv] at hcourse
  generalize hlog : sinceRestart s.log = log at hcourse
  cases hcourse with
  | failed hf hne => contradiction
  | @typeVersionOk before between after discovery version hi hd ht hversion ha =>
    have hmd : ⟨.answered discovery, .typeOk⟩ ∈ sinceRestart s.log := by
      rw [hlog]
      exact List.mem_append_left _ (List.mem_append_right _ List.mem_cons_self)
    have hmv : ⟨.answered version, .typeVersionOk⟩ ∈ sinceRestart s.log := by
      rw [hlog]
      exact List.mem_append_right _ List.mem_cons_self
    have hgd := hs.sound.granted hmd rfl hd.accepted
    have hgv := hs.sound.granted hmv rfl hversion.accepted
    rw [haddress, hd.command] at hgd
    rw [haddress, hversion.command] at hgv
    refine ⟨before, discovery, between, version, after, rfl, ?_, hgd, hd, hgv, hversion⟩
    intro m hm
    rcases List.mem_append.mp hm with hm | hm
    · rw [hi m hm]
      rfl
    · rw [ht m hm]
      rfl

/-- A module of which firmware 5.2 is expected is verified by its two answers. -/
theorem run_verified_expecting :
    let config : ModuleConfig := ⟨"module", ⟨0x15325501⟩, .dsp, none, 100⟩
    let discovery : Packet := ⟨⟨0, 0x15325501, 0xA0003080, 0, 0, 0⟩, []⟩
    let version : Packet := ⟨⟨0, 0x15325501, 0xA0003020, 16, 0, 0⟩,
      Word.toByteList [0x21130405, 0x52141231, 1, 2]⟩
    let events := [.send 0 .discover 0 [], .offer discovery, .conclude 0,
      .send 0 .readVersion 0 [], .offer version, .conclude 0].map Event.exchange
    let s := run Recorder.sink
      (start config (DspHandler.fresh.expecting 5 2) (Recorder.mk [] none)) events
    s.verifyState = .typeVersionOk ∧
      ∃ d v, s.Granted 0x15325501 .discover d ∧ s.Granted 0x15325501 .readVersion v ∧
        v.ConfirmsVersion (some (5, 2)) := by
  intro config discovery version events s
  have hv : s.verifyState = .typeVersionOk := by decide +kernel
  obtain ⟨_, d, _, v, _, _, _, hd, _, hg, hversion⟩ :=
    (run_verified Recorder.sink config (DspHandler.fresh.expecting 5 2) (Recorder.mk [] none)
      events).1 hv
  exact ⟨hv, d, v, hd, hg, hversion⟩

end Verifying

end DetectorLink
