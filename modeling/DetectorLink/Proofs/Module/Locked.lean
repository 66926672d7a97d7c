import DetectorLink.Proofs.Module.Outcomes

/-!
# A commander and its timer behind two locks

A commander keeps the outstanding command under one lock, and its timer keeps the callback under
another. Sending a command and deciding about an answer hold the first lock all the time and take
the second one in between, while the worker of the timer takes a callback under the second lock
alone and asks for the first one later. An operation is therefore cut at each use of the timer, and
the worker may come between any two pieces. Seen from the timer, a command is outstanding from the
moment its callback is armed to the moment that is cancelled or finds the command.
-/

namespace DetectorLink

/-- What the operation that holds the lock of the commander does next. -/
inductive Turn where
  /-- It found nothing outstanding and transmits a command. -/
  | transmit (command : Command) (channel : UInt8) (payload : List UInt32)
  /-- It made a command the outstanding one and arms its callback. -/
  | schedule (o : Outstanding)
  /-- The callback was refused, so a stale one is removed. -/
  | replace (o : Outstanding)
  /-- It arms the callback in place of the stale one. -/
  | scheduleAgain (o : Outstanding)
  /-- It found the command that a packet answers and cancels the callback. -/
  | cancel (o : Outstanding) (packet : Packet)
  /-- It has cancelled the callback and takes the command away. -/
  | clear (o : Outstanding) (packet : Packet)
  deriving DecidableEq, Repr

/-- What the turn takes for granted about the outstanding command. No turn may remove a stale
callback. -/
def Turn.Fits (outstanding : Option Outstanding) : Turn → Prop
  | transmit _ _ _ => outstanding = none
  | schedule o | cancel o _ | clear o _ => outstanding = some o
  | replace _ | scheduleAgain _ => False

/-- A commander with its sink, the operations that are under way, and the log of what was sent. -/
structure Locked (η σ : Type) where
  /-- The commander. -/
  commander : Commander η
  /-- State of the sink. -/
  sink : σ
  /-- The turn of the operation that holds the lock of the commander. -/
  turn : Option Turn
  /-- The worker of the timer. -/
  worker : Worker
  /-- Answers that won, for the handler to take. -/
  answers : List (Command × Packet)
  /-- What the handler made of answers, for the verification to take. -/
  actions : List VerifyAction
  /-- Commands that were sent. -/
  sent : List Outstanding
  /-- What the timer answered when the callback of a command was to be armed for the first time. -/
  armings : List (Outstanding × Bool)

namespace Locked

variable {η σ : Type}

/-- Nothing happened yet. -/
def start (config : ModuleConfig) (handler : η) (t : σ) : Locked η σ :=
  ⟨.fresh config handler, t, none, .idle, [], [], [], []⟩

/-- Something that happens. -/
inductive Event where
  /-- Somebody who sends a command takes the lock and looks for an outstanding one. -/
  | send (command : Command) (channel : UInt8) (payload : List UInt32)
  /-- Somebody who brings a packet takes the lock and looks for the command it answers. -/
  | offer (packet : Packet)
  /-- The operation that holds the lock takes its turn. -/
  | go (now : Nat)
  /-- The handler takes an answer. -/
  | respond (i : Nat)
  /-- The verification takes what the handler made of an answer. -/
  | verify (i : Nat)
  /-- Somebody begins the verification again. -/
  | restart
  /-- The worker takes the pending callback if it is due. -/
  | take (now : Nat)
  /-- The callback takes the lock and looks at the outstanding command. -/
  | expire
  /-- The callback tells what it decided. -/
  | report
  /-- The callback returns. -/
  | finish (now : Nat)
  deriving DecidableEq, Repr

/-- What happens in a turn. -/
def go (sink : Sink σ) (s : Locked η σ) (now : Nat) : Turn → Locked η σ
  | .transmit command channel payload =>
    match Commander.buildPacket s.commander.config command channel payload with
    | .error _ => { s with turn := none }
    | .ok packet =>
      match (sink.send packet.bytes).exec s.sink with
      | (.error _, t) => { s with sink := t, turn := none }
      | (.ok _, t) =>
        let o : Outstanding := ⟨command, s.commander.sequence + 1⟩
        { s with
          commander := { s.commander with outstanding := some o, sequence := o.sequence }
          sink := t
          turn := some (.schedule o)
          sent := s.sent ++ [o] }
  | .schedule o =>
    let (done, timer) :=
      s.commander.timer.schedule now s.commander.config.responseTimeout o.sequence
    { s with
      commander := { s.commander with timer }
      turn := if done then none else some (.replace o)
      armings := s.armings ++ [(o, done)] }
  | .replace o =>
    { s with
      commander := { s.commander with timer := s.commander.timer.cancel.2 }
      turn := some (.scheduleAgain o) }
  | .scheduleAgain o =>
    let (_, timer) := s.commander.timer.schedule now s.commander.config.responseTimeout o.sequence
    { s with commander := { s.commander with timer }, turn := none }
  | .cancel o packet =>
    let (done, timer) := s.commander.timer.cancel
    { s with
      commander := { s.commander with timer }
      turn := if done then some (.clear o packet) else none }
  | .clear o packet =>
    { s with
      commander := { s.commander with outstanding := none }
      turn := none
      answers := s.answers ++ [(o.command, packet)] }

/-- What happens in an event. One that asks for the lock of the commander waits while another
operation holds it; an event that cannot happen changes nothing. -/
def step [ResponseHandler η] (sink : Sink σ) (s : Locked η σ) : Event → Locked η σ
  | .send command channel payload =>
    match s.turn, s.commander.outstanding with
    | none, none => { s with turn := some (.transmit command channel payload) }
    | _, _ => s
  | .offer packet =>
    match s.turn, s.commander.answered? packet, s.commander.outstanding with
    | none, some answered, some o =>
      if o.command = answered then { s with turn := some (.cancel o packet) } else s
    | _, _, _ => s
  | .go now =>
    match s.turn with
    | some turn => s.go sink now turn
    | none => s
  | .respond i =>
    match s.answers[i]? with
    | some (command, packet) =>
      let (action, handler) := ResponseHandler.respond command packet s.commander.handler
      { s with
        commander := { s.commander with handler }
        answers := s.answers.eraseIdx i
        actions := s.actions ++ action.toList }
    | none => s
  | .verify i =>
    match s.turn, s.actions[i]? with
    | none, some action =>
      { s with
        commander := { s.commander with verify := (s.commander.verify.apply action).2 }
        actions := s.actions.eraseIdx i }
    | _, _ => s
  | .restart =>
    match s.turn with
    | none => { s with commander := s.commander.restartVerification }
    | some _ => s
  | .take now =>
    match s.commander.takeDue? now with
    | some (callback, c) => { s with commander := c, worker := .taken callback }
    | none => s
  | .expire =>
    match s.turn, s.worker with
    | none, .taken callback =>
      let s' := { s with commander := (s.commander.expire callback).2 }
      match (s.commander.expire callback).1, s.commander.outstanding with
      | some outcome, some about => { s' with worker := .decided callback about outcome }
      | _, _ => { s' with worker := .done callback }
    | _, _ => s
  | .report =>
    match s.worker with
    | .decided callback _ _ => { s with worker := .done callback }
    | _ => s
  | .finish now =>
    match s.worker with
    | .done callback =>
      { s with
        commander := { s.commander with timer := s.commander.timer.finish now callback none }
        worker := .idle }
    | _ => s

/-- What happens in events, one after the other. -/
def run [ResponseHandler η] (sink : Sink σ) (s : Locked η σ) (events : List Event) : Locked η σ :=
  events.foldl (step sink) s

/-- What a step can do, with all that it depends on. -/
inductive Transition (s : Locked η σ) : Locked η σ → Prop where
  | idle : Transition s s
  | looked (command : Command) (channel : UInt8) (payload : List UInt32) (ht : s.turn = none)
    (ho : s.commander.outstanding = none) :
    Transition s { s with turn := some (.transmit command channel payload) }
  | refused (command : Command) (channel : UInt8) (payload : List UInt32) (t : σ)
    (ht : s.turn = some (.transmit command channel payload)) :
    Transition s { s with sink := t, turn := none }
  | sent (command : Command) (channel : UInt8) (payload : List UInt32) (t : σ)
    (ht : s.turn = some (.transmit command channel payload)) :
    Transition s { s with
      commander := { s.commander with
        outstanding := some ⟨command, s.commander.sequence + 1⟩
        sequence := s.commander.sequence + 1 }
      sink := t
      turn := some (.schedule ⟨command, s.commander.sequence + 1⟩)
      sent := s.sent ++ [⟨command, s.commander.sequence + 1⟩] }
  | armed (o : Outstanding) (deadline : Nat) (ht : s.turn = some (.schedule o)) :
    Transition s { s with
      commander := { s.commander with timer := { s.commander.timer with
        pending := some ⟨deadline, o.sequence⟩ } }
      turn := none
      armings := s.armings ++ [(o, true)] }
  | blocked (o : Outstanding) (ht : s.turn = some (.schedule o))
    (hn : ¬(s.commander.timer.pending = none ∧ s.commander.timer.closed = false)) :
    Transition s { s with turn := some (.replace o), armings := s.armings ++ [(o, false)] }
  | replaced (o : Outstanding) (timer : Timer Nat) (ht : s.turn = some (.replace o)) :
    Transition s { s with
      commander := { s.commander with timer }, turn := some (.scheduleAgain o) }
  | armedAgain (o : Outstanding) (timer : Timer Nat) (ht : s.turn = some (.scheduleAgain o)) :
    Transition s { s with commander := { s.commander with timer }, turn := none }
  | found (o : Outstanding) (packet : Packet) (ht : s.turn = none)
    (ho : s.commander.outstanding = some o) :
    Transition s { s with turn := some (.cancel o packet) }
  | cancelled (o : Outstanding) (packet : Packet) (armed : Armed Nat)
    (ht : s.turn = some (.cancel o packet)) (hp : s.commander.timer.pending = some armed) :
    Transition s { s with
      commander := { s.commander with timer := { s.commander.timer with pending := none } }
      turn := some (.clear o packet) }
  | late (o : Outstanding) (packet : Packet) (b : Bool) (ht : s.turn = some (.cancel o packet)) :
    Transition s { s with
      commander := { s.commander with timer := { s.commander.timer with rearmCancelled := b } }
      turn := none }
  | cleared (o : Outstanding) (packet : Packet) (ht : s.turn = some (.clear o packet)) :
    Transition s { s with
      commander := { s.commander with outstanding := none }
      turn := none
      answers := s.answers ++ [(o.command, packet)] }
  | aside (handler : η) (verify : Verification) (answers : List (Command × Packet))
    (actions : List VerifyAction) :
    Transition s { s with commander := { s.commander with handler, verify }, answers, actions }
  | taken (armed : Armed Nat) (hp : s.commander.timer.pending = some armed)
    (hf : s.commander.timer.firing = none) :
    Transition s { s with
      commander := { s.commander with timer := { s.commander.timer with
        pending := none, firing := some armed.callback, rearmCancelled := false } }
      worker := .taken armed.callback }
  | expired (about : Outstanding) (verify : Verification) (ht : s.turn = none)
    (hw : s.worker = .taken about.sequence) (ho : s.commander.outstanding = some about) :
    Transition s { s with
      commander := { s.commander with outstanding := none, verify }
      worker := .decided about.sequence about (.timeout about.command) }
  | missed (callback : Nat) (ht : s.turn = none) (hw : s.worker = .taken callback)
    (hne : ∀ o, s.commander.outstanding = some o → o.sequence ≠ callback) :
    Transition s { s with worker := .done callback }
  | reported (callback : Nat) (about : Outstanding) (outcome : Outcome)
    (hw : s.worker = .decided callback about outcome) :
    Transition s { s with worker := .done callback }
  | finished (callback : Nat) (hw : s.worker = .done callback) :
    Transition s { s with
      commander := { s.commander with timer := { s.commander.timer with firing := none } }
      worker := .idle }

/-- A turn does nothing else than that. -/
theorem transition_go (sink : Sink σ) (s : Locked η σ) (now : Nat) {turn : Turn}
    (ht : s.turn = some turn) : Transition s (s.go sink now turn) := by
  cases turn with
  | transmit command channel payload =>
    simp only [go]
    split
    · exact .refused command channel payload s.sink ht
    · split
      · next t hs => exact .refused command channel payload t ht
      · next t hs => exact .sent command channel payload t ht
  | schedule o =>
    rcases s.commander.timer.schedule_cases now s.commander.config.responseTimeout o.sequence with
      ⟨hp, hc, h⟩ | ⟨hn, h⟩
    · simp only [go, h]
      exact .armed o _ ht
    · simp only [go, h]
      exact .blocked o ht hn
  | replace o => exact .replaced o _ ht
  | scheduleAgain o => exact .armedAgain o _ ht
  | cancel o packet =>
    rcases s.commander.timer.cancel_cases with ⟨armed, hp, h⟩ | ⟨hp, h⟩
    · simp only [go, h]
      exact .cancelled o packet armed ht hp
    · simp only [go, h]
      exact .late o packet _ ht
  | clear o packet => exact .cleared o packet ht

/-- A step does nothing else than that. -/
theorem transition_step [ResponseHandler η] (sink : Sink σ) (s : Locked η σ) (event : Event) :
    Transition s (step sink s event) := by
  cases event with
  | send command channel payload =>
    simp only [step]
    split
    · next ht ho => exact .looked command channel payload ht ho
    · exact .idle
  | offer packet =>
    simp only [step]
    split
    · next answered o ht _ ho =>
      split
      · exact .found o packet ht ho
      · exact .idle
    · exact .idle
  | go now =>
    simp only [step]
    split
    · next turn ht => exact transition_go sink s now ht
    · exact .idle
  | respond i =>
    simp only [step]
    split
    · exact .aside _ s.commander.verify _ _
    · exact .idle
  | verify i =>
    simp only [step]
    split
    · exact .aside s.commander.handler _ s.answers _
    · exact .idle
  | restart =>
    simp only [step]
    split
    · exact .aside s.commander.handler _ s.answers s.actions
    · exact .idle
  | take now =>
    rcases s.commander.takeDue?_cases now with h | ⟨armed, hp, hf, _, h⟩
    · simp only [step, h]
      exact .idle
    · simp only [step, h]
      exact .taken armed hp hf
  | expire =>
    simp only [step]
    split
    · next callback ht hw =>
      rcases s.commander.expire_cases callback with ⟨o, ho, rfl, h⟩ | ⟨hne, h⟩
      · simp only [h, ho]
        exact .expired o _ ht hw ho
      · simp only [h]
        exact .missed callback ht hw hne
    · exact .idle
  | report =>
    simp only [step]
    split
    · next callback about outcome hw => exact .reported callback about outcome hw
    · exact .idle
  | finish now =>
    simp only [step]
    split
    · next callback hw => exact .finished callback hw
    · exact .idle

/-- What holds at the start and is kept by every transition holds in every run. -/
theorem run_induction [ResponseHandler η] {p : Locked η σ → Prop} {s : Locked η σ} (hs : p s)
    (hstep : ∀ {s t : Locked η σ}, Transition s t → p s → p t) (sink : Sink σ)
    (events : List Event) : p (run sink s events) := by
  induction events generalizing s with
  | nil => exact hs
  | cons event rest ih => exact ih (hstep (transition_step sink s event) hs)

/-! ### Uninterrupted operations -/

/-- A send that nothing interrupts is a send of the commander. -/
theorem run_send [ResponseHandler η] (sink : Sink σ) {s : Locked η σ} (ht : s.turn = none)
    (now : Nat) (command : Command) (channel : UInt8) (payload : List UInt32) :
    let t := run sink s [.send command channel payload, .go now, .go now, .go now, .go now]
    (t.commander, t.sink) = (s.commander.send sink now command channel payload s.sink).2 ∧
      t.turn = none := by
  simp only [run, List.foldl_cons, List.foldl_nil, Commander.send]
  cases ho : s.commander.outstanding with
  | some o => simp only [step, ht, ho, and_self]
  | none =>
    cases hb : Commander.buildPacket s.commander.config command channel payload with
    | error e => simp only [step, ht, ho, go, hb, and_self]
    | ok packet =>
      rcases hx : (sink.send packet.bytes).exec s.sink with ⟨e | n, u⟩
      · simp only [step, ht, ho, go, hb, hx, and_self]
      · rcases h : s.commander.timer.schedule now s.commander.config.responseTimeout
          (s.commander.sequence + 1) with ⟨_ | _, timer⟩
        · simp only [step, ht, ho, go, hb, hx, h, Commander.await, Commander.arm,
            Bool.false_eq_true, if_false, and_self]
        · simp only [step, ht, ho, go, hb, hx, h, Commander.await, Commander.arm, if_true, and_self]

/-- A decision that nothing interrupts is a decision of the commander. -/
theorem run_offer [ResponseHandler η] (sink : Sink σ) {s : Locked η σ} (ht : s.turn = none)
    (now : Nat) (packet : Packet) :
    let t := run sink s [.offer packet, .go now, .go now]
    t.commander = (s.commander.decide packet).2 ∧ t.turn = none ∧
      t.answers = s.answers ++ ((s.commander.decide packet).1.map (·, packet)).toList := by
  simp only [run, List.foldl_cons, List.foldl_nil, Commander.decide]
  cases ha : s.commander.answered? packet with
  | none => simp [step, ht, ha]
  | some answered =>
    cases ho : s.commander.outstanding with
    | none => simp [step, ht, ha, ho]
    | some o =>
      by_cases he : o.command = answered
      · rcases h : s.commander.timer.cancel with ⟨_ | _, timer⟩ <;>
          simp [step, ht, ha, ho, he, go, h]
      · simp [step, ht, ha, ho, he]

/-- An answer that the handler and then the verification take is completed. -/
theorem run_respond_verify [ResponseHandler η] (sink : Sink σ) {s : Locked η σ} (ht : s.turn = none)
    {i : Nat} {command : Command} {packet : Packet} (hi : s.answers[i]? = some (command, packet)) :
    (run sink s [.respond i, .verify s.actions.length]).commander =
      (s.commander.complete command packet).2 := by
  simp only [run, List.foldl_cons, List.foldl_nil, Commander.complete, step, hi, ht]
  cases (ResponseHandler.respond command packet s.commander.handler).1 with
  | none => simp
  | some action => simp

/-- An expiry that nothing interrupts is a tick of the commander. -/
theorem run_take_expire_report_finish [ResponseHandler η] (sink : Sink σ) {s : Locked η σ}
    (ht : s.turn = none) (hw : s.worker = .idle) (now : Nat) :
    let t := run sink s [.take now, .expire, .report, .finish now]
    t.commander = (s.commander.tick now).2 ∧ t.turn = none ∧ t.worker = .idle := by
  simp only [run, List.foldl_cons, List.foldl_nil, Commander.tick]
  cases hd : s.commander.takeDue? now with
  | none => simp only [step, hd, ht, hw, and_self]
  | some taken =>
    obtain ⟨callback, c⟩ := taken
    rcases c.expire_cases callback with ⟨o, ho, he, hx⟩ | ⟨hne, hx⟩
    · simp only [step, hd, ht, ho, hx, and_self]
    · simp only [step, hd, ht, hx, and_self]

/-! ### The timer guards the outstanding command -/

section

variable (s : Locked η σ)

/-- The command of which the callback is still to be armed for the first time. -/
def scheduling : Option Outstanding :=
  match s.turn with
  | some (.schedule o) => some o
  | _ => none

/-- The command that is outstanding as the timer sees it: from the moment its callback is armed to
the moment that is cancelled or finds it. -/
def guarded : Option Outstanding :=
  match s.turn with
  | some (.schedule _) | some (.clear _ _) => none
  | _ => s.commander.outstanding

/-- The exchange that the timer sees. -/
def view : Exchange η σ where
  commander := { s.commander with outstanding := s.guarded }
  sink := s.sink
  worker := s.worker
  answers := []
  sent := []
  notices := []
  calls := []
  returns := []

variable {s}

/-- What the timer sees is outstanding. -/
theorem outstanding_of_guarded {o : Outstanding} (h : s.guarded = some o) :
    s.commander.outstanding = some o := by
  unfold guarded at h
  split at h
  · contradiction
  · contradiction
  · exact h

end

/-- The turn fits the outstanding command, the timer guards the command it sees, and the callback of
every command that was sent was armed at the first attempt, or is about to be. -/
structure InStep (s : Locked η σ) : Prop where
  fits : ∀ turn, s.turn = some turn → turn.Fits s.commander.outstanding
  guarded : s.view.Guarded
  sent : s.sent = s.armings.map Prod.fst ++ s.scheduling.toList
  armed : ∀ arming ∈ s.armings, arming.2 = true

namespace InStep

variable {s t : Locked η σ}

theorem start (config : ModuleConfig) (handler : η) (t : σ) :
    (Locked.start config handler t).InStep :=
  ⟨nofun, ⟨rfl, rfl, rfl⟩, rfl, nofun⟩

/-- The callback of a command that is about to be armed meets a timer with nothing pending. -/
theorem of_scheduling (hs : s.InStep) {o : Outstanding} (ht : s.turn = some (.schedule o)) :
    s.commander.timer.pending = none ∧ s.worker.taken? = none := by
  refine hs.guarded.of_outstanding_none ?_
  simp only [view, Locked.guarded, ht]

/-- No callback is ever in the way of another. -/
theorem not_blocked (hs : s.InStep) {o : Outstanding} (ht : s.turn = some (.schedule o)) :
    s.commander.timer.pending = none ∧ s.commander.timer.closed = false :=
  ⟨(hs.of_scheduling ht).1, hs.guarded.alive⟩

/-- Each turn leaves the outstanding command as the next one takes it for granted. -/
theorem fits_transition (h : Transition s t) (hs : s.InStep) :
    ∀ turn, t.turn = some turn → turn.Fits t.commander.outstanding := by
  cases h with
  | looked command channel payload ht ho =>
    rintro _ ⟨⟩
    exact ho
  | refused command channel payload t ht => nofun
  | sent command channel payload t ht =>
    rintro _ ⟨⟩
    rfl
  | armed o deadline ht => nofun
  | blocked o ht hn => exact absurd (hs.not_blocked ht) hn
  | replaced o timer ht => exact (hs.fits _ ht).elim
  | armedAgain o timer ht => exact (hs.fits _ ht).elim
  | found o packet ht ho =>
    rintro _ ⟨⟩
    exact ho
  | cancelled o packet armed ht hp =>
    rintro _ ⟨⟩
    exact hs.fits (.cancel o packet) ht
  | late o packet b ht => nofun
  | cleared o packet ht => nofun
  | expired about verify ht hw ho =>
    intro turn h
    rw [ht] at h
    contradiction
  | _ => exact hs.fits

/-- A step that leaves the callbacks and the command that the timer sees keeps them together. -/
theorem callbacks_of_guarded_eq (hs : s.InStep) (hc : t.view.callbacks = s.view.callbacks)
    (hg : t.guarded = s.guarded) :
    t.view.callbacks = (t.view.commander.outstanding.map Outstanding.sequence).toList := by
  rw [hc, hs.guarded.callbacks]
  simp only [view, hg]

/-- Every transition keeps the timer in step with the command it sees. -/
theorem guarded_transition (h : Transition s t) (hs : s.InStep) : t.view.Guarded := by
  have hg := hs.guarded
  cases h with
  | idle => exact hg
  | looked _ _ _ ht _ | refused _ _ _ _ ht | found _ _ ht _ | late _ _ _ ht | cleared _ _ ht =>
    refine ⟨hg.alive, hg.firing, hs.callbacks_of_guarded_eq rfl ?_⟩
    simp only [Locked.guarded, ht]
  | sent command channel payload t ht =>
    -- the command is outstanding already, but the timer sees it only once its callback is armed
    refine ⟨hg.alive, hg.firing, hs.callbacks_of_guarded_eq rfl ?_⟩
    have ho : s.commander.outstanding = none := hs.fits _ ht
    simp only [Locked.guarded, ht, ho]
  | armed o deadline ht =>
    have ho : s.commander.outstanding = some o := hs.fits _ ht
    refine ⟨hg.alive, hg.firing, ?_⟩
    simp only [Exchange.callbacks, view, Locked.guarded, ho, (hs.of_scheduling ht).2]
    rfl
  | blocked o ht hn => exact absurd (hs.not_blocked ht) hn
  | replaced o timer ht => exact (hs.fits _ ht).elim
  | armedAgain o timer ht => exact (hs.fits _ ht).elim
  | cancelled o packet armed ht hp =>
    -- the command is outstanding still, but the timer does not see it any longer
    refine ⟨hg.alive, hg.firing, ?_⟩
    have hw : s.worker.taken? = none := (hg.of_pending hp).1
    simp only [Exchange.callbacks, view, Locked.guarded, hw]
    rfl
  | aside handler verify answers actions => exact ⟨hg.alive, hg.firing, hg.callbacks⟩
  | taken armed hp hf => exact hg.transition (.taken armed hp hf)
  | expired about verify ht hw ho =>
    have hv : s.view.commander.outstanding = some about := by
      simp only [view, Locked.guarded, ht, ho]
    have h := hg.transition (.expired about verify hw hv)
    refine ⟨h.alive, h.firing, h.callbacks.trans ?_⟩
    simp only [view, Locked.guarded, ht]
  | missed callback ht hw hne =>
    have hv : s.view.commander.outstanding = s.commander.outstanding := by
      simp only [view, Locked.guarded, ht]
    exact hg.transition (.missed callback hw (hv ▸ hne))
  | reported callback about outcome hw =>
    have h := hg.transition (.reported callback about outcome hw)
    exact ⟨h.alive, h.firing, h.callbacks⟩
  | finished callback hw => exact hg.transition (.finished callback hw)

/-- Every command that was sent is about to be armed, or was armed at the first attempt. -/
theorem log_transition (h : Transition s t) (hs : s.InStep) :
    t.sent = t.armings.map Prod.fst ++ t.scheduling.toList ∧
      ∀ arming ∈ t.armings, arming.2 = true := by
  have hl := hs.sent
  cases h with
  | looked _ _ _ ht _ | refused _ _ _ _ ht | found _ _ ht _ | cancelled _ _ _ ht _ | late _ _ _ ht
  | cleared _ _ ht =>
    simp only [Locked.scheduling, ht] at hl
    exact ⟨hl, hs.armed⟩
  | sent command channel payload t ht =>
    simp only [Locked.scheduling, ht, Option.toList_none, List.append_nil] at hl
    refine ⟨?_, hs.armed⟩
    simp only [Locked.scheduling, hl, Option.toList_some]
  | armed o deadline ht =>
    simp only [Locked.scheduling, ht, Option.toList_some] at hl
    refine ⟨?_, ?_⟩
    · simp only [Locked.scheduling, hl, List.map_append, List.map_singleton, Option.toList_none,
        List.append_nil]
    · intro arming ha
      rcases List.mem_append.mp ha with ha | ha
      · exact hs.armed arming ha
      · rw [List.mem_singleton.mp ha]
  | blocked o ht hn => exact absurd (hs.not_blocked ht) hn
  | replaced o timer ht => exact (hs.fits _ ht).elim
  | armedAgain o timer ht => exact (hs.fits _ ht).elim
  | _ => exact ⟨hl, hs.armed⟩

/-- Every transition keeps commander and timer in step. -/
theorem transition (h : Transition s t) (hs : s.InStep) : t.InStep :=
  ⟨hs.fits_transition h, hs.guarded_transition h, (hs.log_transition h).1, (hs.log_transition h).2⟩

theorem run [ResponseHandler η] (config : ModuleConfig) (handler : η) (t : σ) (sink : Sink σ)
    (events : List Event) : (Locked.run sink (Locked.start config handler t) events).InStep :=
  run_induction (.start config handler t) .transition sink events

/-- A pending callback is that of the outstanding command. -/
theorem of_pending (hs : s.InStep) {armed : Armed Nat}
    (hp : s.commander.timer.pending = some armed) :
    ∃ o, s.commander.outstanding = some o ∧ o.sequence = armed.callback := by
  obtain ⟨_, o, ho, he⟩ := hs.guarded.of_pending hp
  exact ⟨o, outstanding_of_guarded ho, he⟩

/-- Without an outstanding command nothing is pending. -/
theorem of_outstanding_none (hs : s.InStep) (ho : s.commander.outstanding = none) :
    s.commander.timer.pending = none := by
  cases hp : s.commander.timer.pending with
  | none => rfl
  | some armed =>
    obtain ⟨o, h, _⟩ := hs.of_pending hp
    rw [ho] at h
    contradiction

end InStep

/-- **A commander never meets a stale callback.** However senders, those who bring packets and the
worker of the timer take turns at the two locks: while nothing is outstanding nothing is pending,
and a pending callback is that of the outstanding command. So the callback of each command that was
sent is armed at the first attempt, whenever that comes, and no operation ever gets to replace a
callback. -/
theorem run_never_replaces [ResponseHandler η] (config : ModuleConfig) (handler : η) (t : σ)
    (sink : Sink σ) (events : List Event) :
    let s := run sink (start config handler t) events
    let timer := s.commander.timer
    (s.commander.outstanding = none → timer.pending = none) ∧
      (∀ armed, timer.pending = some armed →
        ∃ o, s.commander.outstanding = some o ∧ o.sequence = armed.callback) ∧
      (∀ o now, s.turn = some (.schedule o) →
        (timer.schedule now s.commander.config.responseTimeout o.sequence).1 = true) ∧
      (s.sent = s.armings.map Prod.fst ++ s.scheduling.toList ∧
        ∀ arming ∈ s.armings, arming.2 = true) ∧
      ∀ o, s.turn ≠ some (.replace o) ∧ s.turn ≠ some (.scheduleAgain o) := by
  intro s timer
  have hs : s.InStep := .run config handler t sink events
  refine ⟨hs.of_outstanding_none, fun armed ↦ hs.of_pending, ?_, ⟨hs.sent, hs.armed⟩, ?_⟩
  · intro o now ht
    rcases timer.schedule_cases now s.commander.config.responseTimeout o.sequence with
      ⟨_, _, h⟩ | ⟨hn, _⟩
    · rw [h]
    · exact absurd (hs.not_blocked ht) hn
  · exact fun o ↦ ⟨hs.fits (.replace o), hs.fits (.scheduleAgain o)⟩

-- the first command runs out of time just before its answer, and the next one is armed before the
-- callback of the first has returned
example :
    let config : ModuleConfig := ⟨"module", ⟨0x15325501⟩, .dsp, none, 100⟩
    let s := run Recorder.sink (start config (ConstantHandler.mk none) (Recorder.mk [] none))
      [.send .discover 0 [], .go 0, .go 0, .take 100,
        .offer ⟨⟨0, 0x15325501, 0xA0003080, 0, 0, 0⟩, []⟩, .go 101, .expire,
        .send .readVersion 0 [], .go 102, .report, .go 103]
    s.worker = .done 1 ∧ s.armings = [(⟨.discover, 1⟩, true), (⟨.readVersion, 2⟩, true)] := by
  decide +kernel

end Locked

end DetectorLink
