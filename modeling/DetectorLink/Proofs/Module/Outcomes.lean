import DetectorLink.Proofs.Module.Exchange
import Mathlib.Data.List.Nodup
import Mathlib.Data.List.Perm.Basic

/-!
# Every command has one outcome

In whatever order the steps of an exchange come, the callbacks of the timer are that of the
outstanding command and no other; every command that was sent is outstanding, or its outcome is
decided, or it was told, and never two of these; every call returned once, and true exactly if it
told an outcome; and every outcome comes from an answer to its command or from its expiry.
-/

namespace DetectorLink.Exchange

variable {η σ : Type}

/-! ### The timer guards the outstanding command -/

/-- The callbacks that may still give up a command: the pending one, and one that was taken and has
not looked at the outstanding command yet. -/
def callbacks (s : Exchange η σ) : List Nat :=
  (s.commander.timer.pending.map Armed.callback).toList ++ s.worker.taken?.toList

/-- The timer runs what the worker does, and its callbacks are that of the outstanding command and
no other. -/
structure Guarded (s : Exchange η σ) : Prop where
  alive : s.commander.timer.closed = false
  firing : s.commander.timer.firing = s.worker.callback?
  callbacks : s.callbacks = (s.commander.outstanding.map Outstanding.sequence).toList

namespace Guarded

variable {s t : Exchange η σ}

/-- Without an outstanding command there is no callback. -/
theorem of_outstanding_none (hs : s.Guarded) (ho : s.commander.outstanding = none) :
    s.commander.timer.pending = none ∧ s.worker.taken? = none := by
  have h := hs.callbacks
  rw [ho, Option.map_none, Option.toList_none, Exchange.callbacks, List.append_eq_nil_iff] at h
  exact ⟨Option.map_eq_none_iff.mp (Option.toList_eq_nil_iff.mp h.1),
    Option.toList_eq_nil_iff.mp h.2⟩

/-- A pending callback is that of the outstanding command. -/
theorem of_pending (hs : s.Guarded) {armed : Armed Nat}
    (hp : s.commander.timer.pending = some armed) :
    s.worker.taken? = none ∧
      ∃ o, s.commander.outstanding = some o ∧ o.sequence = armed.callback := by
  have h := hs.callbacks
  simp only [Exchange.callbacks, hp, Option.map_some, Option.toList_some, List.singleton_append] at h
  cases ho : s.commander.outstanding with
  | none =>
    rw [ho] at h
    contradiction
  | some o =>
    rw [ho] at h
    obtain ⟨hc, ht⟩ := List.cons.inj h
    exact ⟨Option.toList_eq_nil_iff.mp ht, o, rfl, hc.symm⟩

/-- A taken callback is that of the outstanding command. -/
theorem of_taken (hs : s.Guarded) {callback : Nat} (hw : s.worker = .taken callback) :
    s.commander.timer.pending = none ∧
      ∃ o, s.commander.outstanding = some o ∧ o.sequence = callback := by
  cases hp : s.commander.timer.pending with
  | some armed =>
    have ht := (hs.of_pending hp).1
    rw [hw] at ht
    contradiction
  | none =>
    have h := hs.callbacks
    simp only [Exchange.callbacks, hp, hw, Worker.taken?, Option.map_none, Option.toList_none,
      Option.toList_some, List.nil_append] at h
    cases ho : s.commander.outstanding with
    | none =>
      rw [ho] at h
      contradiction
    | some o =>
      rw [ho] at h
      exact ⟨rfl, o, rfl, (List.cons.inj h).1.symm⟩

theorem start (config : ModuleConfig) (handler : η) (t : σ) :
    (Exchange.start config handler t).Guarded := ⟨rfl, rfl, rfl⟩

/-- Every transition keeps the timer in step with the outstanding command. -/
theorem transition (h : Transition s t) (hs : s.Guarded) : t.Guarded := by
  have hc := hs.callbacks
  cases h with
  | idle => exact hs
  | refused t => exact ⟨hs.alive, hs.firing, hc⟩
  | sent now command t ho =>
    obtain ⟨hp, ht⟩ := hs.of_outstanding_none ho
    have harm := s.commander.arm_of_pending_none hp hs.alive now (s.commander.sequence + 1)
    refine ⟨?_, ?_, ?_⟩
    · simp only [Commander.await, harm]
      exact hs.alive
    · simp only [Commander.await, harm]
      exact hs.firing
    · simp only [Exchange.callbacks, Commander.await, harm, ht]
      rfl
  | won packet about armed ha ho hp =>
    have ht := (hs.of_pending hp).1
    refine ⟨hs.alive, hs.firing, ?_⟩
    simp only [Exchange.callbacks, ht]
    rfl
  | lost packet b => exact ⟨hs.alive, hs.firing, hc⟩
  | concluded i answer action handler verify hi => exact ⟨hs.alive, hs.firing, hc⟩
  | taken armed hp hf =>
    obtain ⟨_, o, ho, he⟩ := hs.of_pending hp
    refine ⟨hs.alive, rfl, ?_⟩
    simp only [Exchange.callbacks, ho, Option.map_some, he]
    rfl
  | expired about verify hw ho =>
    have hf := hs.firing
    rw [hw] at hf
    refine ⟨hs.alive, hf, ?_⟩
    simp only [Exchange.callbacks, (hs.of_taken hw).1]
    rfl
  | missed callback hw hne =>
    -- while a callback is taken no answer can win and no send is accepted, so it finds its command
    obtain ⟨_, o, ho, he⟩ := hs.of_taken hw
    exact absurd he (hne o ho)
  | reported callback about outcome hw =>
    have hf := hs.firing
    rw [hw] at hf
    refine ⟨hs.alive, hf, ?_⟩
    rw [← hc, Exchange.callbacks, Exchange.callbacks, hw]
    rfl
  | finished callback hw =>
    refine ⟨hs.alive, rfl, ?_⟩
    rw [← hc, Exchange.callbacks, Exchange.callbacks, hw]
    rfl

end Guarded

/-! ### Every command is accounted for -/

private theorem count_map_eraseIdx {α β : Type} [BEq β] (f : α → β) {as : List α} {i : Nat} {a : α}
    (hi : as[i]? = some a) (b : β) :
    (as.map f).count b = ((as.eraseIdx i).map f).count b + [f a].count b := by
  obtain ⟨hlt, rfl⟩ := List.getElem?_eq_some_iff.mp hi
  rw [← ((List.getElem_cons_eraseIdx_perm hlt).map f).count_eq b, List.map_cons,
    ← List.singleton_append, List.count_append, Nat.add_comm]

/-- The commands of which the outcome is decided and nobody is told yet. -/
def decided (s : Exchange η σ) : List Outstanding :=
  s.answers.map Answer.about ++ s.worker.decided?.toList

/-- The commands are numbered in the order in which they were sent, and each of them is told,
decided or outstanding. -/
structure Accounted (s : Exchange η σ) : Prop where
  sequence : s.commander.sequence = s.sent.length
  numbers : s.sent.map Outstanding.sequence = List.range' 1 s.sent.length
  commands : s.sent.Perm
    (s.notices.map Notice.about ++ s.decided ++ s.commander.outstanding.toList)

namespace Accounted

variable {s t : Exchange η σ}

private theorem commands_iff : s.sent.Perm
      (s.notices.map Notice.about ++ s.decided ++ s.commander.outstanding.toList) ↔
    ∀ o, s.sent.count o = (s.notices.map Notice.about).count o +
      (s.answers.map Answer.about).count o + s.worker.decided?.toList.count o +
      s.commander.outstanding.toList.count o := by
  rw [List.perm_iff_count]
  simp only [decided, List.count_append, Nat.add_assoc]

theorem start (config : ModuleConfig) (handler : η) (t : σ) :
    (Exchange.start config handler t).Accounted := ⟨rfl, rfl, .nil⟩

/-- Every transition keeps the account: a send adds a command that is outstanding, a decision or an
expiry moves it to those decided, and telling it moves it to those told. -/
theorem transition (h : Transition s t) (hg : s.Guarded) (hs : s.Accounted) : t.Accounted := by
  have hc := commands_iff.mp hs.commands
  cases h with
  | idle => exact hs
  | refused t => exact ⟨hs.sequence, hs.numbers, hs.commands⟩
  | sent now command t ho =>
    refine ⟨?_, ?_, commands_iff.mpr fun o ↦ ?_⟩
    · simp only [Commander.await, List.length_append, hs.sequence]
      rfl
    · rw [List.map_append, List.length_append, hs.numbers, hs.sequence]
      show _ = List.range' 1 (s.sent.length + 1)
      rw [List.range'_concat, Nat.one_mul, Nat.add_comm 1]
      rfl
    · have := hc o
      simp only [ho, Commander.await, List.count_append, Option.toList_none, Option.toList_some,
        List.count_nil] at this ⊢
      omega
  | won packet about armed ha ho hp =>
    refine ⟨hs.sequence, hs.numbers, commands_iff.mpr fun o ↦ ?_⟩
    have := hc o
    simp only [ho, List.map_append, List.count_append, List.map_cons, List.map_nil,
      Option.toList_none, Option.toList_some, List.count_nil] at this ⊢
    omega
  | lost packet b => exact ⟨hs.sequence, hs.numbers, hs.commands⟩
  | concluded i answer action handler verify hi =>
    refine ⟨hs.sequence, hs.numbers, commands_iff.mpr fun o ↦ ?_⟩
    have := hc o
    have := count_map_eraseIdx Answer.about hi o
    simp only [List.map_append, List.count_append, List.map_cons, List.map_nil] at this ⊢
    omega
  | taken armed hp hf =>
    refine ⟨hs.sequence, hs.numbers, commands_iff.mpr fun o ↦ ?_⟩
    have := hc o
    rwa [Worker.decided?_eq_none (hg.firing.symm.trans hf)] at this
  | expired about verify hw ho =>
    refine ⟨hs.sequence, hs.numbers, commands_iff.mpr fun o ↦ ?_⟩
    have := hc o
    simp only [ho, hw, Worker.decided?, Option.toList_none, Option.toList_some,
      List.count_nil] at this ⊢
    omega
  | missed callback hw hne =>
    refine ⟨hs.sequence, hs.numbers, commands_iff.mpr fun o ↦ ?_⟩
    have := hc o
    rwa [hw] at this
  | reported callback about outcome hw =>
    refine ⟨hs.sequence, hs.numbers, commands_iff.mpr fun o ↦ ?_⟩
    have := hc o
    simp only [hw, Worker.decided?, List.map_append, List.count_append, List.map_cons,
      List.map_nil, Option.toList_none, Option.toList_some, List.count_nil] at this ⊢
    omega
  | finished callback hw =>
    refine ⟨hs.sequence, hs.numbers, commands_iff.mpr fun o ↦ ?_⟩
    have := hc o
    rwa [hw] at this

end Accounted

/-! ### What a call returns -/

/-- Every call returned or its answer is in hand, once; those that returned true are the calls that
told an outcome. -/
structure Returned (s : Exchange η σ) : Prop where
  calls : (s.returns.map Prod.fst ++ s.answers.map Answer.call).Perm (List.range s.calls.length)
  notices : s.notices.filterMap Notice.call? = (s.returns.filter Prod.snd).map Prod.fst

namespace Returned

variable {s t : Exchange η σ}

private theorem calls_iff :
    (s.returns.map Prod.fst ++ s.answers.map Answer.call).Perm (List.range s.calls.length) ↔
    ∀ k, (s.returns.map Prod.fst).count k + (s.answers.map Answer.call).count k =
      (List.range s.calls.length).count k := by
  rw [List.perm_iff_count]
  simp only [List.count_append]

theorem start (config : ModuleConfig) (handler : η) (t : σ) :
    (Exchange.start config handler t).Returned := ⟨.nil, rfl⟩

/-- Every transition keeps track of the calls: a decision against a packet returns at once, one for
it returns with the outcome. -/
theorem transition (h : Transition s t) (hs : s.Returned) : t.Returned := by
  have hc := calls_iff.mp hs.calls
  cases h with
  | won packet about armed ha ho hp =>
    refine ⟨calls_iff.mpr fun k ↦ ?_, hs.notices⟩
    have := hc k
    simp only [List.map_append, List.length_append, List.length_singleton, List.range_succ,
      List.count_append, List.map_cons, List.map_nil]
    omega
  | lost packet b =>
    refine ⟨calls_iff.mpr fun k ↦ ?_, ?_⟩
    · have := hc k
      simp only [List.map_append, List.length_append, List.length_singleton, List.range_succ,
        List.count_append, List.map_cons, List.map_nil]
      omega
    · rw [hs.notices, List.filter_append, List.map_append]
      exact (List.append_nil _).symm
  | concluded i answer action handler verify hi =>
    refine ⟨calls_iff.mpr fun k ↦ ?_, ?_⟩
    · have := hc k
      have := count_map_eraseIdx Answer.call hi k
      simp only [List.map_append, List.count_append, List.map_cons, List.map_nil] at this ⊢
      omega
    · rw [List.filterMap_append, List.filter_append, List.map_append, hs.notices]
      rfl
  | reported callback about outcome hw =>
    refine ⟨hs.calls, ?_⟩
    rw [List.filterMap_append, hs.notices]
    exact List.append_nil _
  | _ => exact ⟨hs.calls, hs.notices⟩

/-- The calls that returned true are those that told an outcome. -/
theorem mem_true_iff (hs : s.Returned) (k : Nat) :
    (k, true) ∈ s.returns ↔ ∃ n ∈ s.notices, n.call? = some k := by
  rw [← List.mem_filterMap, hs.notices]
  constructor
  · intro hk
    exact List.mem_map.mpr ⟨(k, true), List.mem_filter.mpr ⟨hk, rfl⟩, rfl⟩
  · intro hk
    obtain ⟨⟨k', b⟩, hr, rfl⟩ := List.mem_map.mp hk
    obtain ⟨hr, hb⟩ := List.mem_filter.mp hr
    obtain rfl : b = true := hb
    exact hr

/-- No call returns twice. -/
theorem nodup (hs : s.Returned) : (s.returns.map Prod.fst).Nodup :=
  (List.nodup_append.mp (hs.calls.nodup_iff.mpr List.nodup_range)).1

/-- A call that returned false told no outcome. -/
theorem not_of_mem_false (hs : s.Returned) {k : Nat} (hk : (k, false) ∈ s.returns) :
    ∀ n ∈ s.notices, n.call? ≠ some k := by
  intro n hn hc
  have ht := (hs.mem_true_iff k).mpr ⟨n, hn, hc⟩
  have he := List.inj_on_of_nodup_map hs.nodup hk ht rfl
  exact Bool.noConfusion (congrArg Prod.snd he)

end Returned

/-! ### What explains an outcome -/

/-- Why something is the outcome of a command: its time passed, or the call brought a packet from
the module that answers it. -/
def Explains (s : Exchange η σ) (n : Notice) : Prop :=
  match n.call? with
  | none => n.outcome = .timeout n.about.command
  | some k => ∃ packet action, s.calls[k]? = some packet ∧
      s.commander.answered? packet = some n.about.command ∧
      n.outcome = .response n.about.command action

/-- Decisions and outcomes are about the commands that they name, and come from packets that answer
them or from their expiry. -/
structure Explained (s : Exchange η σ) : Prop where
  answers : ∀ a ∈ s.answers, a.command = a.about.command ∧ s.calls[a.call]? = some a.packet ∧
    s.commander.answered? a.packet = some a.about.command
  decided : ∀ callback about outcome, s.worker = .decided callback about outcome →
    outcome = .timeout about.command
  notices : ∀ n ∈ s.notices, s.Explains n

namespace Explained

variable {s t : Exchange η σ}

theorem start (config : ModuleConfig) (handler : η) (t : σ) :
    (Exchange.start config handler t).Explained := by
  refine ⟨?_, ?_, ?_⟩
  · intro a ha
    contradiction
  · intro callback about outcome hw
    contradiction
  · intro n hn
    contradiction

/-- What explains an outcome goes on explaining it. -/
theorem explains_transition (h : Transition s t) {n : Notice} (hn : s.Explains n) :
    t.Explains n := by
  unfold Explains at *
  cases hc : n.call? with
  | none =>
    rw [hc] at hn
    exact hn
  | some k =>
    rw [hc] at hn
    obtain ⟨packet, action, hk, ha, ho⟩ := hn
    exact ⟨packet, action, h.getElem?_calls hk, h.answered? ▸ ha, ho⟩

/-- Every transition explains the outcomes that it decides. -/
theorem transition (h : Transition s t) (hs : s.Explained) : t.Explained := by
  have hn : ∀ n ∈ s.notices, t.Explains n := fun n hn ↦ explains_transition h (hs.notices n hn)
  have ha : ∀ a ∈ s.answers, a.command = a.about.command ∧ t.calls[a.call]? = some a.packet ∧
      t.commander.answered? a.packet = some a.about.command := by
    intro a ha
    obtain ⟨hc, hk, hr⟩ := hs.answers a ha
    exact ⟨hc, h.getElem?_calls hk, h.answered? ▸ hr⟩
  cases h with
  | won packet about armed hr ho hp =>
    refine ⟨?_, hs.decided, hn⟩
    intro a hm
    rcases List.mem_append.mp hm with hm | hm
    · exact ha a hm
    · obtain rfl := List.mem_singleton.mp hm
      exact ⟨rfl, List.getElem?_concat_length, hr⟩
  | concluded i answer action handler verify hi =>
    refine ⟨fun a hm ↦ ha a (List.mem_of_mem_eraseIdx hm), hs.decided, ?_⟩
    intro n hm
    rcases List.mem_append.mp hm with hm | hm
    · exact hn n hm
    · obtain rfl := List.mem_singleton.mp hm
      obtain ⟨hc, hk, hr⟩ := ha answer (List.mem_of_getElem? hi)
      exact ⟨answer.packet, action, hk, hr, by rw [hc]⟩
  | taken armed hp hf =>
    refine ⟨ha, ?_, hn⟩
    intro callback about outcome hw
    contradiction
  | expired about verify hw ho =>
    refine ⟨ha, ?_, hn⟩
    intro callback about' outcome hd
    cases hd
    rfl
  | missed callback hw hne =>
    refine ⟨ha, ?_, hn⟩
    intro callback about outcome hd
    contradiction
  | reported callback about outcome hw =>
    refine ⟨ha, ?_, ?_⟩
    · intro callback' about' outcome' hd
      contradiction
    · intro n hm
      rcases List.mem_append.mp hm with hm | hm
      · exact hn n hm
      · obtain rfl := List.mem_singleton.mp hm
        exact hs.decided callback about outcome hw
  | finished callback hw =>
    refine ⟨ha, ?_, hn⟩
    intro callback about outcome hd
    contradiction
  | _ => exact ⟨ha, hs.decided, hn⟩

end Explained

/-! ### Runs -/

/-- What every run keeps. -/
structure Sound (s : Exchange η σ) : Prop where
  guarded : s.Guarded
  accounted : s.Accounted
  returned : s.Returned
  explained : s.Explained

variable {s t : Exchange η σ}

theorem sound_start (config : ModuleConfig) (handler : η) (t : σ) :
    (start config handler t).Sound :=
  ⟨.start config handler t, .start config handler t, .start config handler t,
    .start config handler t⟩

theorem sound_transition (h : Transition s t) (hs : s.Sound) : t.Sound :=
  ⟨hs.guarded.transition h, hs.accounted.transition h hs.guarded, hs.returned.transition h,
    hs.explained.transition h⟩

/-- Every run is sound. -/
theorem sound_run [ResponseHandler η] (hs : s.Sound) (sink : Sink σ) (events : List Event) :
    (run sink s events).Sound := run_induction hs sound_transition sink events

theorem returns_run [ResponseHandler η] (s : Exchange η σ) (sink : Sink σ) (events : List Event) :
    s.returns <+: (run sink s events).returns :=
  run_induction (p := fun t ↦ s.returns <+: t.returns) List.prefix_rfl
    (fun h hs ↦ hs.trans h.returns) sink events

/-- No command is in two places. -/
theorem Accounted.nodup (hs : s.Accounted) :
    (s.notices.map Notice.about ++ s.decided ++ s.commander.outstanding.toList).Nodup := by
  have hn : (s.sent.map Outstanding.sequence).Nodup := by
    rw [hs.numbers]
    exact List.nodup_range'
  exact hs.commands.nodup_iff.mp (List.Nodup.of_map _ hn)

/-- As many commands were sent as are told, decided and outstanding together. -/
theorem Accounted.length_sent (hs : s.Accounted) :
    s.sent.length =
      s.notices.length + s.decided.length + if s.commander.isBusy then 1 else 0 := by
  rw [hs.commands.length_eq, List.length_append, List.length_append, List.length_map,
    Commander.isBusy]
  cases s.commander.outstanding with
  | none => rfl
  | some o => rfl

/-- A callback that was taken gives up the command with its number. -/
theorem Guarded.step_expire [ResponseHandler η] (hs : s.Guarded) (sink : Sink σ) {callback : Nat}
    (hw : s.worker = .taken callback) :
    ∃ o, s.commander.outstanding = some o ∧ o.sequence = callback ∧
      (step sink s .expire).worker = .decided callback o (.timeout o.command) ∧
      (step sink s .expire).commander.outstanding = none := by
  obtain ⟨_, o, ho, he⟩ := hs.of_taken hw
  refine ⟨o, ho, he, ?_⟩
  simp only [step, hw, Commander.expire, ho, he, ite_true, and_self]

/-- In whatever order commands are sent, packets are brought and the timer runs: commands are
numbered one by one; none of them is told twice, or told and still decided or outstanding; each
outcome is that of a command that was sent, by an answer to it or by its expiry; as many commands
were sent as are told, decided and outstanding together; a call returns true exactly if it told an
outcome, and one that returned false never does; and a callback that was taken gives up the command
with its number, which is the outstanding one, and no other. -/
theorem run_outcomes [ResponseHandler η] (sink : Sink σ) (config : ModuleConfig) (handler : η)
    (t : σ) (events : List Event) :
    let s := run sink (start config handler t) events
    s.sent.map Outstanding.sequence = List.range' 1 s.sent.length ∧
    (s.notices.map Notice.about ++ s.decided ++ s.commander.outstanding.toList).Nodup ∧
    (∀ n ∈ s.notices, n.about ∈ s.sent ∧ s.Explains n) ∧
    s.sent.length = s.notices.length + s.decided.length + (if s.commander.isBusy then 1 else 0) ∧
    (∀ k, (k, true) ∈ s.returns ↔ ∃ n ∈ s.notices, n.call? = some k) ∧
    (∀ k, (k, false) ∈ s.returns →
      ∀ more, ∀ n ∈ (run sink s more).notices, n.call? ≠ some k) ∧
    (∀ callback, s.worker = .taken callback →
      ∃ o ∈ s.sent, s.commander.outstanding = some o ∧ o.sequence = callback ∧
        (step sink s .expire).worker = .decided callback o (.timeout o.command) ∧
        (step sink s .expire).commander.outstanding = none) := by
  intro s
  have hs : s.Sound := sound_run (sound_start config handler t) sink events
  have hmem (o : Outstanding) := hs.accounted.commands.mem_iff (a := o)
  refine ⟨hs.accounted.numbers, hs.accounted.nodup, ?_, hs.accounted.length_sent,
    hs.returned.mem_true_iff, ?_, ?_⟩
  · intro n hn
    refine ⟨(hmem _).mpr ?_, hs.explained.notices n hn⟩
    exact List.mem_append_left _ (List.mem_append_left _ (List.mem_map_of_mem hn))
  · intro k hk more
    have hlater := sound_run hs sink more
    exact hlater.returned.not_of_mem_false ((returns_run s sink more).subset hk)
  · intro callback hw
    obtain ⟨o, ho, he⟩ := hs.guarded.step_expire sink hw
    refine ⟨o, (hmem o).mpr ?_, ho, he⟩
    exact List.mem_append_right _ (Option.mem_toList.mpr ho)

end DetectorLink.Exchange
