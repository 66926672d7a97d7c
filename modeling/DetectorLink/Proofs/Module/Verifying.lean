import Mathlib.Data.List.DropRight
import DetectorLink.Proofs.Module.Outcomes

/-!
# The verification along a run

Answers and expiries move the verification on, and it can be begun again at any time. The log of a
run remembers each of these with the state that it left: a restart, an answer where its consequences
are drawn, and an expiry. Nothing else that happens bears on the verification, and what was answered
completed a command that had been sent.
-/

namespace DetectorLink

/-! ### One action -/

namespace VerifyState

/-- Where an action leads. A state that it does not lead on stays. -/
def next : VerifyState → VerifyAction → VerifyState
  | init, .discoverOk => typeOk
  | init, .discoverErr => typeError
  | init, .timeout => timeout
  | typeOk, .versionOk => typeVersionOk
  | typeOk, .versionErr => versionError
  | typeOk, .timeout => timeout
  | state, _ => state

variable {state : VerifyState} {action : VerifyAction}

/-- No action leaves a final state. -/
theorem next_of_isFinal (h : state.isFinal) : state.next action = state := by
  cases state with
  | init => contradiction
  | typeOk => contradiction
  | _ => rfl

/-- Only a missing answer leads to the state that says so. -/
theorem next_becomes_timeout_iff (state : VerifyState) (action : VerifyAction) :
    state ≠ .timeout ∧ state.next action = .timeout ↔
      state.isFinal = false ∧ action = .timeout := by
  cases state <;> cases action <;> decide

/-- A missing answer leaves a verification as it is if that has ended. -/
theorem next_timeout_eq_self_iff (state : VerifyState) :
    state.next .timeout = state ↔ state.isFinal := by
  cases state <;> decide

end VerifyState

/-- A verification with the transitions that it started with goes from state to state. -/
theorem Verification.apply_of_entries {v : Verification}
    (hv : v.entries = Verification.start.entries) (action : VerifyAction) :
    (v.apply action).2 = { v with current := v.current.next action } := by
  obtain ⟨entries, current⟩ := v
  obtain rfl : entries = Verification.start.entries := hv
  cases current <;> cases action <;> rfl

/-! ### Events and their log -/

/-- Something that bears on a verification. -/
inductive Occurrence where
  /-- It began again. -/
  | restarted
  /-- The consequences of an answer were drawn. -/
  | answered (answer : Answer)
  /-- The outstanding command was given up. -/
  | expired (about : Outstanding)
  deriving DecidableEq, Repr

namespace Occurrence

/-- True for the beginning of a verification. -/
def isRestart : Occurrence → Bool
  | restarted => true
  | _ => false

theorem isRestart_eq_false {what : Occurrence} (h : what ≠ restarted) : what.isRestart = false := by
  cases what with
  | restarted => contradiction
  | _ => rfl

/-- The state that follows a state, given the handler of the answers. -/
def leadsTo {η : Type} [ResponseHandler η] (handler : η) (state : VerifyState) :
    Occurrence → VerifyState
  | restarted => .init
  | answered answer =>
    (ResponseHandler.respond answer.command answer.packet handler).1.elim state state.next
  | expired _ => state.next .timeout

/-- A final state is left by a beginning only. -/
theorem leadsTo_of_isFinal {η : Type} [ResponseHandler η] (handler : η) {state : VerifyState}
    (hf : state.isFinal) {what : Occurrence} (hr : what ≠ restarted) :
    what.leadsTo handler state = state := by
  cases what with
  | restarted => contradiction
  | answered a =>
    rw [leadsTo]
    cases (ResponseHandler.respond a.command a.packet handler).1 with
    | none => rfl
    | some action => exact VerifyState.next_of_isFinal hf
  | expired o => exact VerifyState.next_of_isFinal hf

/-- A state comes to `timeout` by an expiry, or by an answer that says so. -/
theorem leadsTo_becomes_timeout_iff {η : Type} [ResponseHandler η] {handler : η}
    {state : VerifyState} {what : Occurrence} :
    state ≠ .timeout ∧ what.leadsTo handler state = .timeout ↔ state.isFinal = false ∧
      ((∃ o, what = .expired o) ∨ ∃ a, what = .answered a ∧
        (ResponseHandler.respond a.command a.packet handler).1 = some .timeout) := by
  cases what with
  | restarted => simp [leadsTo]
  | expired o => simpa [leadsTo] using VerifyState.next_becomes_timeout_iff state .timeout
  | answered a =>
    cases hr : (ResponseHandler.respond a.command a.packet handler).1 with
    | none => simp [leadsTo, hr]
    | some action => simpa [leadsTo, hr] using VerifyState.next_becomes_timeout_iff state action

end Occurrence

/-- Something that bore on a verification, and the state that it left. -/
structure Mark where
  /-- What happened. -/
  what : Occurrence
  /-- The state after it. -/
  after : VerifyState
  deriving DecidableEq, Repr

/-- An exchange of which the verification may begin again, and the log of what bore on it. -/
structure Verifying (η σ : Type) where
  /-- The exchange. -/
  exchange : Exchange η σ
  /-- What bore on the verification. -/
  log : List Mark

namespace Verifying

variable {η σ : Type}

/-- Nothing happened yet. -/
def start (config : ModuleConfig) (handler : η) (t : σ) : Verifying η σ :=
  ⟨.start config handler t, []⟩

/-- Something that happens. -/
inductive Event where
  /-- The verification begins again. -/
  | restart
  /-- Something happens in the exchange. -/
  | exchange (event : Exchange.Event)
  deriving DecidableEq, Repr

/-- State of the verification. -/
def verifyState (s : Verifying η σ) : VerifyState := s.exchange.commander.verifyState

/-- What an event is for the verification, if it bears on it. -/
def occurrence? (s : Verifying η σ) : Event → Option Occurrence
  | .restart => some .restarted
  | .exchange (.conclude i) => s.exchange.answers[i]?.map .answered
  | .exchange .expire =>
    match s.exchange.worker, s.exchange.commander.outstanding with
    | .taken callback, some o => if o.sequence = callback then some (.expired o) else none
    | _, _ => none
  | _ => none

/-- The exchange after an event. -/
def act [ResponseHandler η] (sink : Sink σ) (s : Exchange η σ) : Event → Exchange η σ
  | .restart => { s with commander := s.commander.restartVerification }
  | .exchange event => s.step sink event

/-- What happens in an event, with the entry that it leaves in the log. -/
def step [ResponseHandler η] (sink : Sink σ) (s : Verifying η σ) (event : Event) : Verifying η σ :=
  let t := act sink s.exchange event
  ⟨t, s.log ++ (s.occurrence? event).toList.map (⟨·, t.commander.verifyState⟩)⟩

/-- What happens in events, one after the other. -/
def run [ResponseHandler η] (sink : Sink σ) (s : Verifying η σ) (events : List Event) :
    Verifying η σ :=
  events.foldl (step sink) s

/-- What was logged since the verification last began. -/
def sinceRestart (log : List Mark) : List Mark := log.rtakeWhile (!·.what.isRestart)

theorem sinceRestart_concat_restarted (log : List Mark) (state : VerifyState) :
    sinceRestart (log ++ [⟨.restarted, state⟩]) = [] :=
  List.rtakeWhile_concat_neg _ _ _ Bool.false_ne_true

theorem sinceRestart_concat (log : List Mark) {m : Mark} (hm : m.what ≠ .restarted) :
    sinceRestart (log ++ [m]) = sinceRestart log ++ [m] :=
  List.rtakeWhile_concat_pos _ _ _ (congrArg not (Occurrence.isRestart_eq_false hm))

end Verifying

/-! ### What completed a command -/

namespace Exchange

variable {η σ : Type} {s t : Exchange η σ}

/-- An answer won against the outstanding command that it is about, and its outcome was told. -/
structure Completed (s : Exchange η σ) (a : Answer) : Prop where
  sent : a.about ∈ s.sent
  command : a.command = a.about.command
  brought : s.calls[a.call]? = some a.packet
  answers : s.commander.answered? a.packet = some a.about.command
  told : ∃ action, ⟨a.about, .response a.command action, some a.call⟩ ∈ s.notices

theorem Transition.sent_subset (h : Transition s t) : s.sent ⊆ t.sent := by
  cases h with
  | sent now command t ho => exact List.subset_append_left _ _
  | _ => exact List.Subset.refl _

theorem Transition.notices_subset (h : Transition s t) : s.notices ⊆ t.notices := by
  cases h with
  | concluded i answer action handler verify hi => exact List.subset_append_left _ _
  | reported callback about outcome hw => exact List.subset_append_left _ _
  | _ => exact List.Subset.refl _

theorem Transition.config (h : Transition s t) : t.commander.config = s.commander.config := by
  cases h <;> rfl

/-- What was completed stays completed. -/
theorem Completed.transition (h : Transition s t) {a : Answer} (ha : s.Completed a) :
    t.Completed a where
  sent := h.sent_subset ha.sent
  command := ha.command
  brought := h.getElem?_calls ha.brought
  answers := h.answered? ▸ ha.answers
  told := ha.told.imp fun _ hn ↦ h.notices_subset hn

/-- Concluding an answer completes its command. -/
theorem Sound.completed_conclude [ResponseHandler η] (hs : s.Sound) (sink : Sink σ) {i : Nat}
    {a : Answer} (hi : s.answers[i]? = some a) : (step sink s (.conclude i)).Completed a := by
  have hm : a ∈ s.answers := List.mem_of_getElem? hi
  obtain ⟨hc, hk, ha⟩ := hs.explained.answers a hm
  obtain ⟨action, handler, verify, hd⟩ := s.commander.complete_cases a.command a.packet
  have hsent : a.about ∈ s.sent := by
    refine hs.accounted.commands.mem_iff.mpr (List.mem_append_left _ (List.mem_append_right _ ?_))
    exact List.mem_append_left _ (List.mem_map_of_mem hm)
  simp only [step, hi, hd]
  exact ⟨hsent, hc, hk, ha, action, List.mem_append_right _ (List.mem_singleton_self _)⟩

/-- Beginning the verification again leaves everything else as it is. -/
theorem Sound.restartVerification (hs : s.Sound) :
    { s with commander := s.commander.restartVerification }.Sound where
  guarded := ⟨hs.guarded.alive, hs.guarded.firing, hs.guarded.callbacks⟩
  accounted := ⟨hs.accounted.sequence, hs.accounted.numbers, hs.accounted.commands⟩
  returned := ⟨hs.returned.calls, hs.returned.notices⟩
  explained := ⟨hs.explained.answers, hs.explained.decided, hs.explained.notices⟩

end Exchange

/-! ### One event -/

namespace Verifying

variable {η σ : Type}

/-- The events that bear on the verification. -/
theorem occurrence?_cases {s : Verifying η σ} {event : Event} {what : Occurrence}
    (h : s.occurrence? event = some what) :
    (event = .restart ∧ what = .restarted) ∨
    (∃ i a, event = .exchange (.conclude i) ∧ s.exchange.answers[i]? = some a ∧
      what = .answered a) ∨
    (∃ o, event = .exchange .expire ∧ s.exchange.worker = .taken o.sequence ∧
      s.exchange.commander.outstanding = some o ∧ what = .expired o) := by
  unfold occurrence? at h
  split at h
  · cases h
    exact .inl ⟨rfl, rfl⟩
  · next i =>
    obtain ⟨a, ha, rfl⟩ := Option.map_eq_some_iff.mp h
    exact .inr (.inl ⟨i, a, rfl, ha, rfl⟩)
  · split at h
    · next callback o hw ho =>
      split at h
      · next he =>
        cases h
        exact .inr (.inr ⟨o, rfl, he ▸ hw, ho, rfl⟩)
      · cases h
    · cases h
  · cases h

/-- A callback that was taken gives up the outstanding command if that has its number. -/
theorem occurrence?_expire {s : Verifying η σ} {o : Outstanding}
    (hw : s.exchange.worker = .taken o.sequence)
    (ho : s.exchange.commander.outstanding = some o) :
    s.occurrence? (.exchange .expire) = some (.expired o) := by
  simp only [occurrence?, hw, ho, ite_true]

/-- What an occurrence does to the verification and to the handler of a commander. Without one,
nothing happens to them. -/
inductive Bears [ResponseHandler η] (c d : Commander η) : Option Occurrence → Prop where
  | none (hv : d.verify = c.verify) (hh : d.handler = c.handler) : Bears c d none
  | restarted (hv : d.verify = c.verify.force .init) (hh : d.handler = c.handler) :
    Bears c d (some .restarted)
  | answered (a : Answer) (hd : d = (c.complete a.command a.packet).2) :
    Bears c d (some (.answered a))
  | expired (o : Outstanding) (hv : d.verify = (c.verify.apply .timeout).2)
    (hh : d.handler = c.handler) : Bears c d (some (.expired o))

/-- Events bear on the verification and on the handler by their occurrences only. -/
theorem bears_act [ResponseHandler η] (sink : Sink σ) (s : Verifying η σ) (event : Event) :
    Bears s.exchange.commander (act sink s.exchange event).commander (s.occurrence? event) := by
  cases event with
  | restart => exact .restarted rfl rfl
  | exchange event =>
    -- sends, offers and the timer work on the outstanding command and on the worker alone
    cases event with
    | send now command channel payload =>
      rcases s.exchange.commander.send_cases sink now command channel payload s.exchange.sink with
        ⟨e, t, h⟩ | ⟨_, t, h⟩
      · simp only [act, Exchange.step, h]
        exact .none rfl rfl
      · simp only [act, Exchange.step, h]
        exact .none rfl rfl
    | offer packet =>
      rcases s.exchange.commander.decide_cases packet with ⟨o, armed, _, ho, _, h⟩ | ⟨b, h⟩
      · simp only [act, Exchange.step, h, ho]
        exact .none rfl rfl
      · simp only [act, Exchange.step, h]
        exact .none rfl rfl
    | conclude i =>
      simp only [occurrence?, act, Exchange.step]
      cases s.exchange.answers[i]? with
      | none => exact .none rfl rfl
      | some a => exact .answered a rfl
    | take now =>
      rcases s.exchange.commander.takeDue?_cases now with h | ⟨armed, _, _, _, h⟩
      · simp only [act, Exchange.step, h]
        exact .none rfl rfl
      · simp only [act, Exchange.step, h]
        exact .none rfl rfl
    | expire =>
      simp only [occurrence?, act, Exchange.step]
      cases s.exchange.worker with
      | taken callback =>
        rcases s.exchange.commander.expire_cases callback with ⟨o, ho, he, h⟩ | ⟨hne, h⟩
        · simp only [ho, h, he, ite_true]
          exact .expired o rfl rfl
        · cases ho : s.exchange.commander.outstanding with
          | none =>
            simp only [h]
            exact .none rfl rfl
          | some o =>
            simp only [h, if_neg (hne o ho)]
            exact .none rfl rfl
      | _ => exact .none rfl rfl
    | report =>
      simp only [act, Exchange.step]
      cases s.exchange.worker <;> exact .none rfl rfl
    | finish now =>
      simp only [act, Exchange.step]
      cases s.exchange.worker <;> exact .none rfl rfl

/-- What every run keeps: the exchange is sound, the machine has the transitions that it started
with, and the answers in the log completed their commands. -/
structure Sound (s : Verifying η σ) : Prop where
  exchange : s.exchange.Sound
  entries : s.exchange.commander.verify.entries = Verification.start.entries
  completed : ∀ m ∈ s.log, ∀ a, m.what = .answered a → s.exchange.Completed a

/-- An event leads the verification where its occurrence leads, and leaves it without one. -/
theorem verify_act [ResponseHandler η] {s : Verifying η σ} (hs : s.Sound) (sink : Sink σ)
    (event : Event) :
    (act sink s.exchange event).commander.verify = { s.exchange.commander.verify with
      current := (s.occurrence? event).elim s.verifyState
        (·.leadsTo s.exchange.commander.handler s.verifyState) } := by
  have h := bears_act sink s event
  generalize s.occurrence? event = what at h
  cases h with
  | none hv hh => exact hv
  | restarted hv hh => exact hv
  | answered a hd =>
    rw [hd, Commander.complete]
    simp only [Option.elim_some, Occurrence.leadsTo]
    cases (ResponseHandler.respond a.command a.packet s.exchange.commander.handler).1 with
    | none => rfl
    | some action => exact Verification.apply_of_entries hs.entries action
  | expired o hv hh => exact hv.trans (Verification.apply_of_entries hs.entries .timeout)

/-- The state after an event. -/
theorem verifyState_step [ResponseHandler η] {s : Verifying η σ} (hs : s.Sound) (sink : Sink σ)
    (event : Event) :
    (step sink s event).verifyState = (s.occurrence? event).elim s.verifyState
      (·.leadsTo s.exchange.commander.handler s.verifyState) :=
  congrArg Machine.current (verify_act hs sink event)

/-- A final state is left by a restart only. -/
theorem verifyState_step_of_isFinal [ResponseHandler η] {s : Verifying η σ} (hs : s.Sound)
    (sink : Sink σ) {event : Event} (hr : event ≠ .restart) (hf : s.verifyState.isFinal) :
    (step sink s event).verifyState = s.verifyState := by
  rw [verifyState_step hs]
  cases hw : s.occurrence? event with
  | none => rfl
  | some what =>
    refine Occurrence.leadsTo_of_isFinal _ hf ?_
    rintro rfl
    rcases occurrence?_cases hw with ⟨he, _⟩ | ⟨i, a, _, _, he⟩ | ⟨o, _, _, _, he⟩
    · exact hr he
    · cases he
    · cases he

/-- The handler changes with answers only. -/
theorem handler_act [ResponseHandler η] (sink : Sink σ) (s : Verifying η σ) (event : Event) :
    (act sink s.exchange event).commander.handler = s.exchange.commander.handler ∨
    ∃ a : Answer, (act sink s.exchange event).commander.handler =
      (ResponseHandler.respond a.command a.packet s.exchange.commander.handler).2 := by
  have h := bears_act sink s event
  generalize s.occurrence? event = what at h
  cases h with
  | none hv hh => exact .inl hh
  | restarted hv hh => exact .inl hh
  | answered a hd => exact .inr ⟨a, congrArg Commander.handler hd⟩
  | expired o hv hh => exact .inl hh

/-! ### Runs -/

theorem sound_start (config : ModuleConfig) (handler : η) (t : σ) :
    (start config handler t).Sound where
  exchange := Exchange.sound_start config handler t
  entries := rfl
  completed := fun _ hm ↦ absurd hm List.not_mem_nil

theorem sound_step [ResponseHandler η] {s : Verifying η σ} (hs : s.Sound) (sink : Sink σ)
    (event : Event) :
    (step sink s event).Sound := by
  have hkept : ∀ m ∈ s.log, ∀ a, m.what = .answered a →
      (act sink s.exchange event).Completed a := by
    intro m hm a ha
    have hc := hs.completed m hm a ha
    cases event with
    | restart => exact ⟨hc.sent, hc.command, hc.brought, hc.answers, hc.told⟩
    | exchange event => exact hc.transition (Exchange.transition_step sink s.exchange event)
  refine ⟨?_, ?_, ?_⟩
  · cases event with
    | restart => exact hs.exchange.restartVerification
    | exchange event =>
      exact Exchange.sound_transition (Exchange.transition_step sink s.exchange event) hs.exchange
  · exact (congrArg Machine.entries (verify_act hs sink event)).trans hs.entries
  · intro m hm a ha
    rcases List.mem_append.mp hm with hm | hm
    · exact hkept m hm a ha
    · obtain ⟨what, hw, rfl⟩ := List.mem_map.mp hm
      rw [Option.mem_toList] at hw
      obtain rfl : what = .answered a := ha
      rcases occurrence?_cases hw with ⟨_, he⟩ | ⟨i, b, rfl, hi, he⟩ | ⟨o, _, _, _, he⟩
      · cases he
      · cases he
        exact hs.exchange.completed_conclude sink hi
      · cases he

/-- Every run is sound. -/
theorem sound_run [ResponseHandler η] {s : Verifying η σ} (hs : s.Sound) (sink : Sink σ)
    (events : List Event) :
    (run sink s events).Sound := by
  induction events generalizing s with
  | nil => exact hs
  | cons event rest ih => exact ih (sound_step hs sink event)

/-- The module stays the same. -/
theorem config_run [ResponseHandler η] (sink : Sink σ) (s : Verifying η σ) (events : List Event) :
    (run sink s events).exchange.commander.config = s.exchange.commander.config := by
  induction events generalizing s with
  | nil => rfl
  | cons event rest ih =>
    refine (ih (step sink s event)).trans ?_
    cases event with
    | restart => rfl
    | exchange event => exact (Exchange.transition_step sink s.exchange event).config

/-- A final state stays until the verification begins again. -/
theorem verifyState_run_of_isFinal [ResponseHandler η] {s : Verifying η σ} (hs : s.Sound)
    (sink : Sink σ) {events : List Event} (hr : .restart ∉ events) (hf : s.verifyState.isFinal) :
    (run sink s events).verifyState = s.verifyState := by
  induction events generalizing s with
  | nil => rfl
  | cons event rest ih =>
    have hstep : (step sink s event).verifyState = s.verifyState :=
      verifyState_step_of_isFinal hs sink (fun h ↦ hr (h ▸ List.mem_cons_self)) hf
    have hrest := ih (sound_step hs sink event) (fun h ↦ hr (List.mem_cons_of_mem _ h))
      (hstep ▸ hf)
    exact hrest.trans hstep

/-- After any sends, answers, expiries and restarts: the verification comes to `timeout` exactly
if it had not ended and either the outstanding command is given up, whatever command it is, or
an answer is concluded of which the handler says so; and giving up a command leaves the verification
as it was exactly if that had ended. -/
theorem run_becomes_timeout_iff [ResponseHandler η] (sink : Sink σ) (config : ModuleConfig)
    (handler : η) (t : σ) (events : List Event) :
    let s := run sink (start config handler t) events
    (∀ event, s.verifyState ≠ .timeout ∧ (step sink s event).verifyState = .timeout ↔
      s.verifyState.isFinal = false ∧
        ((∃ o, event = .exchange .expire ∧ s.exchange.worker = .taken o.sequence ∧
            s.exchange.commander.outstanding = some o) ∨
          ∃ i a, event = .exchange (.conclude i) ∧ s.exchange.answers[i]? = some a ∧
            (ResponseHandler.respond a.command a.packet s.exchange.commander.handler).1 =
              some .timeout)) ∧
    (∀ o, s.exchange.worker = .taken o.sequence → s.exchange.commander.outstanding = some o →
      ((step sink s (.exchange .expire)).verifyState = s.verifyState ↔ s.verifyState.isFinal)) := by
  intro s
  have hs : s.Sound := sound_run (sound_start config handler t) sink events
  constructor
  · intro event
    rw [verifyState_step hs]
    constructor
    · rintro ⟨hne, he⟩
      cases hw : s.occurrence? event with
      | none =>
        rw [hw] at he
        exact absurd he hne
      | some what =>
        rw [hw] at he
        obtain ⟨hf, h⟩ := Occurrence.leadsTo_becomes_timeout_iff.mp ⟨hne, he⟩
        refine ⟨hf, ?_⟩
        rcases occurrence?_cases hw with ⟨_, rfl⟩ | ⟨i, a, rfl, hi, rfl⟩ | ⟨o, rfl, ht, ho, rfl⟩
        · rcases h with ⟨_, h⟩ | ⟨_, h, _⟩ <;> cases h
        · rcases h with ⟨_, h⟩ | ⟨_, h, hr⟩
          · cases h
          · cases h
            exact .inr ⟨i, a, rfl, hi, hr⟩
        · exact .inl ⟨o, rfl, ht, ho⟩
    · rintro ⟨hf, ⟨o, rfl, ht, ho⟩ | ⟨i, a, rfl, hi, hr⟩⟩
      · rw [occurrence?_expire ht ho, Option.elim_some]
        exact Occurrence.leadsTo_becomes_timeout_iff.mpr ⟨hf, .inl ⟨o, rfl⟩⟩
      · rw [occurrence?, hi, Option.map_some, Option.elim_some]
        exact Occurrence.leadsTo_becomes_timeout_iff.mpr ⟨hf, .inr ⟨a, rfl, hr⟩⟩
  · intro o hw ho
    rw [verifyState_step hs, occurrence?_expire hw ho]
    exact VerifyState.next_timeout_eq_self_iff s.verifyState

/-- A status request that nobody answers ends a verification that has not begun. -/
theorem run_becomes_timeout_iff_status_unanswered :
    let config : ModuleConfig := ⟨"module", ⟨0x15325501⟩, .dsp, none, 100⟩
    let s := run Recorder.sink (start config (ConstantHandler.mk none) (Recorder.mk [] none))
      [.exchange (.send 0 .readStatus 0 []), .exchange (.take 100)]
    s.exchange.commander.outstanding = some ⟨.readStatus, 1⟩ ∧ s.verifyState = .init ∧
      (step Recorder.sink s (.exchange .expire)).verifyState = .timeout := by
  intro config s
  have ho : s.exchange.commander.outstanding = some ⟨.readStatus, 1⟩ := by decide +kernel
  have hw : s.exchange.worker = .taken 1 := by decide +kernel
  have hi : s.verifyState = .init := by decide +kernel
  have h := run_becomes_timeout_iff Recorder.sink config (ConstantHandler.mk none)
    (Recorder.mk [] none) [.exchange (.send 0 .readStatus 0 []), .exchange (.take 100)]
  refine ⟨ho, hi, ((h.1 (.exchange .expire)).mpr ⟨?_, .inl ⟨_, rfl, hw, ho⟩⟩).2⟩
  exact congrArg VerifyState.isFinal hi

end Verifying

end DetectorLink
