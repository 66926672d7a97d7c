import DetectorLink.Proofs.Module.Commander

/-!
# Commands, answers and expiries in any order

A commander is used by those who send, by those who bring packets, and by the worker of its timer,
all at once. What each of them does is cut into steps at the places where another may come between:
taking a packet is a decision followed by drawing the consequences, and an expiry is taken by the
worker, decided, and told. The log of a run remembers what was sent, told and returned. Steps that
nothing interrupts are the operations of the commander.
-/

namespace DetectorLink

/-- An answer that won, of which the consequences are not drawn yet. -/
structure Answer where
  /-- What it answers. -/
  about : Outstanding
  /-- Number of the call that brought it. -/
  call : Nat
  /-- The command as the decision told it. -/
  command : Command
  /-- The packet. -/
  packet : Packet
  deriving DecidableEq, Repr

/-- An outcome of which the listener was told. -/
structure Notice where
  /-- What it is the outcome of. -/
  about : Outstanding
  /-- The outcome. -/
  outcome : Outcome
  /-- Number of the call that brought the answer; an expiry has none. -/
  call? : Option Nat
  deriving DecidableEq, Repr

/-- What the worker of the timer does. -/
inductive Worker where
  /-- It waits. -/
  | idle
  /-- It has taken a callback. -/
  | taken (callback : Nat)
  /-- The callback has given up a command; nobody is told yet. -/
  | decided (callback : Nat) (about : Outstanding) (outcome : Outcome)
  /-- The callback is about to return. -/
  | done (callback : Nat)
  deriving DecidableEq, Repr

namespace Worker

/-- The callback that runs. -/
def callback? : Worker → Option Nat
  | idle => none
  | taken callback | decided callback _ _ | done callback => some callback

/-- The callback that was taken and has not looked at the outstanding command yet. -/
def taken? : Worker → Option Nat
  | taken callback => some callback
  | _ => none

/-- The command that was given up and of which nobody is told yet. -/
def decided? : Worker → Option Outstanding
  | decided _ about _ => some about
  | _ => none

theorem decided?_eq_none {w : Worker} (h : w.callback? = none) : w.decided? = none := by
  cases w with
  | idle => rfl
  | taken callback => rfl
  | decided callback about outcome => contradiction
  | done callback => rfl

end Worker

/-- A commander with its sink, what is going on, and the log of what happened. -/
structure Exchange (η σ : Type) where
  /-- The commander. -/
  commander : Commander η
  /-- State of the sink. -/
  sink : σ
  /-- The worker of the timer. -/
  worker : Worker
  /-- Answers of which the consequences are not drawn yet. -/
  answers : List Answer
  /-- Commands that were sent. -/
  sent : List Outstanding
  /-- Outcomes that were told. -/
  notices : List Notice
  /-- Packets that were brought, one for each call. -/
  calls : List Packet
  /-- Numbers of the calls that returned, with what they returned. -/
  returns : List (Nat × Bool)

namespace Exchange

variable {η σ : Type}

/-- Nothing happened yet. -/
def start (config : ModuleConfig) (handler : η) (t : σ) : Exchange η σ :=
  ⟨.fresh config handler, t, .idle, [], [], [], [], []⟩

/-- Something that happens. -/
inductive Event where
  /-- Somebody sends a command. -/
  | send (now : Nat) (command : Command) (channel : UInt8) (payload : List UInt32)
  /-- Somebody brings a packet, and whether it wins is decided. -/
  | offer (packet : Packet)
  /-- The consequences of an answer are drawn and told, and the call that brought it returns. -/
  | conclude (i : Nat)
  /-- The worker takes the pending callback if it is due. -/
  | take (now : Nat)
  /-- The callback looks at the outstanding command. -/
  | expire
  /-- The callback tells what it decided. -/
  | report
  /-- The callback returns. -/
  | finish (now : Nat)
  deriving DecidableEq, Repr

/-- What happens in an event. An event that cannot happen changes nothing. -/
def step [ResponseHandler η] (sink : Sink σ) (s : Exchange η σ) : Event → Exchange η σ
  | .send now command channel payload =>
    match s.commander.send sink now command channel payload s.sink with
    | (.error _, c, t) => { s with commander := c, sink := t }
    | (.ok (), c, t) =>
      { s with commander := c, sink := t, sent := s.sent ++ [⟨command, c.sequence⟩] }
  | .offer packet =>
    let call := s.calls.length
    let s' := { s with commander := (s.commander.decide packet).2, calls := s.calls ++ [packet] }
    match (s.commander.decide packet).1, s.commander.outstanding with
    | some command, some about =>
      { s' with answers := s.answers ++ [⟨about, call, command, packet⟩] }
    | _, _ => { s' with returns := s.returns ++ [(call, false)] }
  | .conclude i =>
    match s.answers[i]? with
    | none => s
    | some answer =>
      let (outcome, c) := s.commander.complete answer.command answer.packet
      { s with
        commander := c
        answers := s.answers.eraseIdx i
        notices := s.notices ++ [⟨answer.about, outcome, some answer.call⟩]
        returns := s.returns ++ [(answer.call, true)] }
  | .take now =>
    match s.commander.takeDue? now with
    | none => s
    | some (callback, c) => { s with commander := c, worker := .taken callback }
  | .expire =>
    match s.worker with
    | .taken callback =>
      let s' := { s with commander := (s.commander.expire callback).2 }
      match (s.commander.expire callback).1, s.commander.outstanding with
      | some outcome, some about => { s' with worker := .decided callback about outcome }
      | _, _ => { s' with worker := .done callback }
    | _ => s
  | .report =>
    match s.worker with
    | .decided callback about outcome =>
      { s with notices := s.notices ++ [⟨about, outcome, none⟩], worker := .done callback }
    | _ => s
  | .finish now =>
    match s.worker with
    | .done callback =>
      { s with
        commander := { s.commander with timer := s.commander.timer.finish now callback none }
        worker := .idle }
    | _ => s

/-- What happens in events, one after the other. -/
def run [ResponseHandler η] (sink : Sink σ) (s : Exchange η σ) (events : List Event) :
    Exchange η σ :=
  events.foldl (step sink) s

/-- What a step can do, with all that it depends on. -/
inductive Transition (s : Exchange η σ) : Exchange η σ → Prop where
  | idle : Transition s s
  | refused (t : σ) : Transition s { s with sink := t }
  | sent (now : Nat) (command : Command) (t : σ) (ho : s.commander.outstanding = none) :
    Transition s { s with
      commander := s.commander.await now command
      sink := t
      sent := s.sent ++ [⟨command, s.commander.sequence + 1⟩] }
  | won (packet : Packet) (about : Outstanding) (armed : Armed Nat)
    (ha : s.commander.answered? packet = some about.command)
    (ho : s.commander.outstanding = some about) (hp : s.commander.timer.pending = some armed) :
    Transition s { s with
      commander := { s.commander with
        outstanding := none, timer := { s.commander.timer with pending := none } }
      calls := s.calls ++ [packet]
      answers := s.answers ++ [⟨about, s.calls.length, about.command, packet⟩] }
  | lost (packet : Packet) (b : Bool) :
    Transition s { s with
      commander := { s.commander with timer := { s.commander.timer with rearmCancelled := b } }
      calls := s.calls ++ [packet]
      returns := s.returns ++ [(s.calls.length, false)] }
  | concluded (i : Nat) (answer : Answer) (action : Option VerifyAction) (handler : η)
    (verify : Verification) (hi : s.answers[i]? = some answer) :
    Transition s { s with
      commander := { s.commander with handler, verify }
      answers := s.answers.eraseIdx i
      notices := s.notices ++
        [⟨answer.about, .response answer.command action, some answer.call⟩]
      returns := s.returns ++ [(answer.call, true)] }
  | taken (armed : Armed Nat) (hp : s.commander.timer.pending = some armed)
    (hf : s.commander.timer.firing = none) :
    Transition s { s with
      commander := { s.commander with timer := { s.commander.timer with
        pending := none, firing := some armed.callback, rearmCancelled := false } }
      worker := .taken armed.callback }
  | expired (about : Outstanding) (verify : Verification)
    (hw : s.worker = .taken about.sequence) (ho : s.commander.outstanding = some about) :
    Transition s { s with
      commander := { s.commander with outstanding := none, verify }
      worker := .decided about.sequence about (.timeout about.command) }
  | missed (callback : Nat) (hw : s.worker = .taken callback)
    (hne : ∀ o, s.commander.outstanding = some o → o.sequence ≠ callback) :
    Transition s { s with worker := .done callback }
  | reported (callback : Nat) (about : Outstanding) (outcome : Outcome)
    (hw : s.worker = .decided callback about outcome) :
    Transition s { s with
      notices := s.notices ++ [⟨about, outcome, none⟩]
      worker := .done callback }
  | finished (callback : Nat) (hw : s.worker = .done callback) :
    Transition s { s with
      commander := { s.commander with timer := { s.commander.timer with firing := none } }
      worker := .idle }

/-- A step does nothing else than that. -/
theorem transition_step [ResponseHandler η] (sink : Sink σ) (s : Exchange η σ) (event : Event) :
    Transition s (step sink s event) := by
  cases event with
  | send now command channel payload =>
    rcases s.commander.send_cases sink now command channel payload s.sink with
      ⟨e, t, hs⟩ | ⟨ho, t, hs⟩
    · simp only [step, hs]
      exact .refused t
    · simp only [step, hs]
      exact .sent now command t ho
  | offer packet =>
    rcases s.commander.decide_cases packet with ⟨o, armed, ha, ho, hp, hd⟩ | ⟨b, hd⟩
    · simp only [step, hd, ho]
      exact .won packet o armed ha ho hp
    · simp only [step, hd]
      exact .lost packet b
  | conclude i =>
    simp only [step]
    split
    · exact .idle
    · next answer hi =>
      obtain ⟨action, handler, verify, hc⟩ :=
        s.commander.complete_cases answer.command answer.packet
      simp only [hc]
      exact .concluded i answer action handler verify hi
  | take now =>
    rcases s.commander.takeDue?_cases now with ht | ⟨armed, hp, hf, _, ht⟩
    · simp only [step, ht]
      exact .idle
    · simp only [step, ht]
      exact .taken armed hp hf
  | expire =>
    simp only [step]
    split
    · next callback hw =>
      rcases s.commander.expire_cases callback with ⟨o, ho, rfl, he⟩ | ⟨hne, he⟩
      · simp only [he, ho]
        exact .expired o _ hw ho
      · simp only [he]
        exact .missed callback hw hne
    · exact .idle
  | report =>
    simp only [step]
    split
    · next callback about outcome hw => exact .reported callback about outcome hw
    · exact .idle
  | finish now =>
    simp only [step]
    split
    · next callback hw => exact .finished callback hw
    · exact .idle

/-- What holds at the start and is kept by every transition holds in every run. -/
theorem run_induction [ResponseHandler η] {p : Exchange η σ → Prop} {s : Exchange η σ} (hs : p s)
    (hstep : ∀ {s t : Exchange η σ}, Transition s t → p s → p t) (sink : Sink σ)
    (events : List Event) : p (run sink s events) := by
  induction events generalizing s with
  | nil => exact hs
  | cons event rest ih => exact ih (hstep (transition_step sink s event) hs)

namespace Transition

variable {s t : Exchange η σ}

/-- What was returned stays returned. -/
theorem returns (h : Transition s t) : s.returns <+: t.returns := by
  cases h with
  | lost packet b => exact List.prefix_append _ _
  | concluded i answer action handler verify hi => exact List.prefix_append _ _
  | _ => exact List.prefix_rfl

/-- Calls keep their numbers. -/
theorem getElem?_calls (h : Transition s t) {k : Nat} {packet : Packet}
    (hk : s.calls[k]? = some packet) : t.calls[k]? = some packet := by
  have hlt := (List.getElem?_eq_some_iff.mp hk).1
  cases h with
  | won packet about armed ha ho hp => exact (List.getElem?_append_left hlt).trans hk
  | lost packet b => exact (List.getElem?_append_left hlt).trans hk
  | _ => exact hk

/-- Which packet answers which command does not change. -/
theorem answered? (h : Transition s t) : t.commander.answered? = s.commander.answered? := by
  cases h <;> rfl

end Transition

/-! ### Uninterrupted operations -/

/-- A decision that is concluded at once is the handling of the packet, with its outcome told and
returned. -/
theorem run_offer_conclude [ResponseHandler η] (sink : Sink σ) (s : Exchange η σ)
    (packet : Packet) :
    let t := run sink s [.offer packet, .conclude s.answers.length]
    let (outcome, c) := s.commander.handlePacket packet
    t.commander = c ∧ t.answers = s.answers ∧
      t.notices.map Notice.outcome = s.notices.map Notice.outcome ++ outcome.toList ∧
      t.returns = s.returns ++ [(s.calls.length, outcome.isSome)] := by
  simp only [run, List.foldl_cons, List.foldl_nil, Commander.handlePacket]
  rcases s.commander.decide_cases packet with ⟨o, armed, ha, ho, hp, hd⟩ | ⟨b, hd⟩
  · have hlast : (s.answers ++ [⟨o, s.calls.length, o.command, packet⟩])[s.answers.length]? =
        some ⟨o, s.calls.length, o.command, packet⟩ := List.getElem?_concat_length
    simp only [step, hd, ho, hlast, true_and]
    refine ⟨?_, ?_, rfl⟩
    · rw [List.eraseIdx_append_of_length_le (Nat.le_refl _), Nat.sub_self]
      exact List.append_nil _
    · rw [List.map_append]
      rfl
  · have hnone : s.answers[s.answers.length]? = none := List.getElem?_eq_none (Nat.le_refl _)
    simp only [step, hd, hnone, Option.toList_none, List.append_nil, Option.isSome_none, and_self]

/-- An expiry that nothing interrupts is a tick of the commander, with its outcome told. -/
theorem run_take_expire_report_finish [ResponseHandler η] (sink : Sink σ) {s : Exchange η σ}
    (hw : s.worker = .idle) (now : Nat) :
    let t := run sink s [.take now, .expire, .report, .finish now]
    let (outcome, c) := s.commander.tick now
    t.commander = c ∧ t.worker = .idle ∧
      t.notices.map Notice.outcome = s.notices.map Notice.outcome ++ outcome.toList := by
  simp only [run, List.foldl_cons, List.foldl_nil, Commander.tick]
  cases ht : s.commander.takeDue? now with
  | none =>
    simp only [step, ht, hw, Option.toList_none, List.append_nil, and_self]
  | some taken =>
    obtain ⟨callback, c⟩ := taken
    rcases c.expire_cases callback with ⟨o, ho, he, hx⟩ | ⟨hne, hx⟩
    · simp only [step, ht, ho, hx, List.map_append, true_and]
      rfl
    · simp only [step, ht, hx, Option.toList_none, List.append_nil, and_self]

end Exchange

end DetectorLink
