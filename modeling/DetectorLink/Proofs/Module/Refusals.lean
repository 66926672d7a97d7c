import DetectorLink.Proofs.Module.Outcomes

/-!
# What is refused leaves a commander as it was

A commander refuses to send while a command is outstanding, when the packet cannot be built and when
the sink fails. It refuses a packet that does not answer the outstanding command, and one that comes
after the timer has won. Whatever happened before, a refusal leaves the outstanding command, its
number, its callback, the verification and the handler as they were, and nobody is told an outcome.
-/

namespace DetectorLink

/-- Packets that a sink was given, with what it answered. -/
abbrev SinkLog := List (Bytes × Except LinkError Nat)

/-- A sink that writes down what it is given. -/
def Sink.noting {σ : Type} (sink : Sink σ) : Sink (σ × SinkLog) where
  send data := .ofFun fun (s, log) =>
    let (r, t) := (sink.send data).exec s
    (r, t, log ++ [(data, r)])

theorem Sink.exec_noting {σ : Type} (sink : Sink σ) (data : Bytes) (s : σ × SinkLog) :
    (sink.noting.send data).exec s =
      (((sink.send data).exec s.1).1, ((sink.send data).exec s.1).2,
        s.2 ++ [(data, ((sink.send data).exec s.1).1)]) := rfl

namespace Exchange

variable {η σ : Type}

/-! ### All that is done to a commander -/

/-- Something that is done to a commander, or that its timer does. -/
inductive Action (η : Type) where
  /-- The verification begins again. -/
  | restart
  /-- Somebody works on the handler. -/
  | adjust (handler : η)
  /-- Something happens in the exchange. -/
  | event (event : Event)

/-- The exchange after an action. -/
def act [ResponseHandler η] (sink : Sink σ) (s : Exchange η σ) : Action η → Exchange η σ
  | .restart => { s with commander := s.commander.restartVerification }
  | .adjust handler => { s with commander := { s.commander with handler } }
  | .event event => s.step sink event

/-- The exchange after actions, one after the other. -/
def actAll [ResponseHandler η] (sink : Sink σ) (s : Exchange η σ) (actions : List (Action η)) :
    Exchange η σ :=
  actions.foldl (act sink) s

namespace Guarded

variable {s : Exchange η σ}

theorem act [ResponseHandler η] (hs : s.Guarded) (sink : Sink σ) (action : Action η) :
    (s.act sink action).Guarded := by
  cases action with
  | restart => exact ⟨hs.alive, hs.firing, hs.callbacks⟩
  | adjust handler => exact ⟨hs.alive, hs.firing, hs.callbacks⟩
  | event event => exact hs.transition (transition_step sink s event)

/-- Whatever is done, the timer guards the outstanding command. -/
theorem actAll [ResponseHandler η] (hs : s.Guarded) (sink : Sink σ) (actions : List (Action η)) :
    (s.actAll sink actions).Guarded := by
  induction actions generalizing s with
  | nil => exact hs
  | cons action rest ih => exact ih (hs.act sink action)

/-- The callback of the outstanding command is pending, or the worker has taken it. -/
theorem of_outstanding (hs : s.Guarded) {o : Outstanding} (ho : s.commander.outstanding = some o) :
    (∃ armed, s.commander.timer.pending = some armed) ∨ s.worker = .taken o.sequence := by
  cases hp : s.commander.timer.pending with
  | some armed => exact .inl ⟨armed, rfl⟩
  | none =>
    have hc := hs.callbacks
    rw [Exchange.callbacks, hp, ho] at hc
    cases hw : s.worker with
    | taken callback =>
      rw [hw] at hc
      exact .inr (congrArg Worker.taken (List.cons.inj hc).1)
    | idle => rw [hw] at hc; contradiction
    | decided callback about outcome => rw [hw] at hc; contradiction
    | done callback => rw [hw] at hc; contradiction

end Guarded

/-! ### Sends -/

variable {sink : Sink σ} {s : Exchange η (σ × SinkLog)} {now : Nat} {command : Command}
  {channel : UInt8} {payload : List UInt32}

/-- What a send answers, and what it leaves. -/
inductive Sends (sink : Sink σ) (s : Exchange η (σ × SinkLog)) (now : Nat) (command : Command)
    (channel : UInt8) (payload : List UInt32) :
    Except ModuleError Unit → Exchange η (σ × SinkLog) → Prop where
  /-- Another command is outstanding. Nothing is given to the sink. -/
  | busy (o : Outstanding) (ho : s.commander.outstanding = some o) :
    Sends sink s now command channel payload
      (.error (.busy s.commander.config.hardwareId o.command)) s
  /-- There is no such packet. Nothing is given to the sink. -/
  | unbuilt (e : CodecError) (ho : s.commander.outstanding = none)
    (hp : Commander.buildPacket s.commander.config command channel payload = .error e) :
    Sends sink s now command channel payload (.error (.codec e)) s
  /-- The sink fails with the packet. -/
  | failed (packet : Packet) (e : LinkError) (t : σ) (ho : s.commander.outstanding = none)
    (hp : Commander.buildPacket s.commander.config command channel payload = .ok packet)
    (hs : (sink.send packet.bytes).exec s.sink.1 = (.error e, t)) :
    Sends sink s now command channel payload (.error (.link e))
      { s with sink := (t, s.sink.2 ++ [(packet.bytes, .error e)]) }
  /-- The sink takes the packet, and nothing else. The command is outstanding, under the next number
  and with a callback of its own. -/
  | sent (packet : Packet) (n : Nat) (t : σ) (c : Commander η)
    (ho : s.commander.outstanding = none)
    (hp : Commander.buildPacket s.commander.config command channel payload = .ok packet)
    (hs : (sink.send packet.bytes).exec s.sink.1 = (.ok n, t))
    (hc : c = { s.commander with
      outstanding := some ⟨command, s.commander.sequence + 1⟩
      sequence := s.commander.sequence + 1
      timer := { s.commander.timer with
        pending := some ⟨now + s.commander.config.responseTimeout, s.commander.sequence + 1⟩ } }) :
    Sends sink s now command channel payload (.ok ()) { s with
      commander := c
      sink := (t, s.sink.2 ++ [(packet.bytes, .ok n)])
      sent := s.sent ++ [⟨command, s.commander.sequence + 1⟩] }

/-- A send does one of these. -/
theorem Guarded.sends [ResponseHandler η] (hs : s.Guarded) (sink : Sink σ) (now : Nat)
    (command : Command) (channel : UInt8) (payload : List UInt32) :
    Sends sink s now command channel payload
      (s.commander.send sink.noting now command channel payload s.sink).1
      (s.step sink.noting (.send now command channel payload)) := by
  simp only [step, Commander.send]
  cases ho : s.commander.outstanding with
  | some o => exact .busy o ho
  | none =>
    cases hp : Commander.buildPacket s.commander.config command channel payload with
    | error e => exact .unbuilt e ho hp
    | ok packet =>
      simp only [Sink.exec_noting]
      rcases hr : (sink.send packet.bytes).exec s.sink.1 with ⟨e | n, t⟩
      · exact .failed packet e t ho hp hr
      · have harm := s.commander.arm_of_pending_none (hs.of_outstanding_none ho).1 hs.alive now
          (s.commander.sequence + 1)
        refine .sent packet n t _ ho hp hr ?_
        rw [Commander.await, harm]

/-! ### Packets -/

/-- Why a packet is refused. -/
inductive Refused {σ : Type} (s : Exchange η σ) (packet : Packet) : Prop where
  /-- It is no response. -/
  | notResponse (hr : packet.isResponse = false)
  /-- It comes from another module. -/
  | otherSource (ha : packet.sourceAddress ≠ s.commander.address)
  /-- It does not name what it answers. -/
  | noType (ht : packet.responseType? = none)
  /-- No command is outstanding. -/
  | unsolicited (ho : s.commander.outstanding = none)
  /-- It answers another command than the outstanding one. -/
  | otherCommand (o : Outstanding) (answered : Command) (ho : s.commander.outstanding = some o)
    (ht : packet.responseType? = some answered) (hne : o.command ≠ answered)
  /-- The timer has won: the worker has taken the callback of the outstanding command. -/
  | late (o : Outstanding) (ho : s.commander.outstanding = some o)
    (hw : s.worker = .taken o.sequence)

/-- A packet loses exactly if there is such a reason. -/
theorem Guarded.decide_eq_none_iff {σ : Type} {s : Exchange η σ} (hs : s.Guarded)
    (packet : Packet) : (s.commander.decide packet).1 = none ↔ s.Refused packet := by
  constructor
  · intro hd
    by_cases hr : packet.isResponse
    · by_cases ha : packet.sourceAddress = s.commander.address
      · cases ht : packet.responseType? with
        | none => exact .noType ht
        | some answered =>
          have hanswers := Commander.answered?_eq_some_iff.mpr ⟨hr, ha, ht⟩
          cases ho : s.commander.outstanding with
          | none => exact .unsolicited ho
          | some o =>
            by_cases he : o.command = answered
            · rcases hs.of_outstanding ho with ⟨armed, hp⟩ | hw
              · rw [s.commander.decide_of_pending (he ▸ hanswers) ho hp] at hd
                contradiction
              · exact .late o ho hw
            · exact .otherCommand o answered ho ht he
      · exact .otherSource ha
    · exact .notResponse (Bool.eq_false_iff.mpr hr)
  · intro hrefused
    rcases s.commander.decide_cases packet with ⟨o, armed, ha, ho, hp, -⟩ | ⟨b, hd⟩
    · -- a packet that wins has none of the reasons
      obtain ⟨hr, hsource, ht⟩ := Commander.answered?_eq_some_iff.mp ha
      cases hrefused with
      | notResponse hn => exact absurd hr (Bool.eq_false_iff.mp hn)
      | otherSource hn => exact absurd hsource hn
      | noType hn => cases ht.symm.trans hn
      | unsolicited hn => cases ho.symm.trans hn
      | otherCommand o' answered ho' ht' hne =>
        cases ho.symm.trans ho'
        cases ht.symm.trans ht'
        exact absurd rfl hne
      | late o' ho' hw => cases hp.symm.trans (hs.of_taken hw).1
    · rw [hd]

/-- A packet that loses leaves everything as it was, but for a flag of the timer that only a
callback that asks to be armed again would heed. -/
theorem step_offer_of_decide {σ : Type} [ResponseHandler η] (sink : Sink σ) {s : Exchange η σ}
    {packet : Packet} (hd : (s.commander.decide packet).1 = none) :
    ∃ b, let c := { s.commander with timer := { s.commander.timer with rearmCancelled := b } }
      s.commander.handlePacket packet = (none, c) ∧
      s.step sink (.offer packet) = { s with
        commander := c
        calls := s.calls ++ [packet]
        returns := s.returns ++ [(s.calls.length, false)] } := by
  rcases s.commander.decide_cases packet with ⟨o, armed, -, -, -, hw⟩ | ⟨b, hl⟩
  · rw [hw] at hd
    contradiction
  · refine ⟨b, ?_, ?_⟩
    · rw [Commander.handlePacket, hl]
    · simp only [step, hl]

/-- Whatever was done to a commander: a send is busy, or its packet cannot be built, and either way
the sink is given nothing; or the sink fails with it; and each time everything else stays as it was.
Otherwise the sink takes exactly the packet of the command, which becomes the outstanding one. A
packet is refused exactly if it is no response, comes from another module, does not name what it
answers, answers another command, or comes when no command is outstanding or the timer has won; then
there is no outcome, and everything but a flag of the timer stays as it was. -/
theorem actAll_refuses [ResponseHandler η] (sink : Sink σ) (config : ModuleConfig) (handler : η)
    (t : σ) (actions : List (Action η)) :
    let s := actAll sink.noting (start config handler (t, [])) actions
    (∀ now command channel payload,
      Sends sink s now command channel payload
        (s.commander.send sink.noting now command channel payload s.sink).1
        (s.step sink.noting (.send now command channel payload))) ∧
    ∀ packet,
      ((s.commander.handlePacket packet).1 = none ↔ s.Refused packet) ∧
      (s.Refused packet →
        ∃ b, let c := { s.commander with timer := { s.commander.timer with rearmCancelled := b } }
          s.commander.handlePacket packet = (none, c) ∧
          s.step sink.noting (.offer packet) = { s with
            commander := c
            calls := s.calls ++ [packet]
            returns := s.returns ++ [(s.calls.length, false)] }) := by
  intro s
  have hs : s.Guarded := (Guarded.start config handler (t, [])).actAll sink.noting actions
  refine ⟨hs.sends sink, fun packet ↦ ⟨?_, ?_⟩⟩
  · rw [← hs.decide_eq_none_iff, Commander.handlePacket]
    rcases s.commander.decide packet with ⟨_ | command, c⟩
    · exact iff_of_true rfl rfl
    · exact iff_of_false (Option.some_ne_none _) (Option.some_ne_none _)
  · intro hr
    exact step_offer_of_decide sink.noting ((hs.decide_eq_none_iff packet).mpr hr)

/-- The answer to a status request is refused once the timer has won, and the request stays the
outstanding command until it is given up. -/
theorem actAll_refuses_late :
    let config : ModuleConfig := ⟨"module", ⟨0x15325501⟩, .dsp, none, 100⟩
    let s := actAll Recorder.sink.noting (start config (ConstantHandler.mk none) (⟨[], none⟩, []))
      [.event (.send 0 .readStatus 0 []), .event (.take 100)]
    let answer : Packet := ⟨⟨0, 0x15325501, 0xA0003022, 0, 0, 0⟩, []⟩
    s.commander.answered? answer = some .readStatus ∧ s.Refused answer ∧
      (s.commander.handlePacket answer).1 = none ∧
      (s.step Recorder.sink.noting (.offer answer)).commander.outstanding =
        some ⟨.readStatus, 1⟩ ∧
      (s.step Recorder.sink.noting (.offer answer)).notices = [] := by
  intro config s answer
  have ho : s.commander.outstanding = some ⟨.readStatus, 1⟩ := by decide +kernel
  have hw : s.worker = .taken 1 := by decide +kernel
  have hn : s.notices = [] := by decide +kernel
  have hrefused : s.Refused answer := .late _ ho hw
  obtain ⟨_, hpackets⟩ := actAll_refuses Recorder.sink config (ConstantHandler.mk none) ⟨[], none⟩
    [.event (.send 0 .readStatus 0 []), .event (.take 100)]
  obtain ⟨b, hlost, hstep⟩ := (hpackets answer).2 hrefused
  refine ⟨by decide +kernel, hrefused, congrArg Prod.fst hlost, ?_, ?_⟩
  · rw [hstep]
    exact ho
  · rw [hstep]
    exact hn

end Exchange

end DetectorLink
