import DetectorLink.Proofs.Link.Hardware

/-!
# What a driver is told and what it replies

Any driver can be wrapped so that the commands it is given are written down, whether or not it takes
them, and all that it replies. It answers as before. Waiting and looking at registers give no
command and leave the consumer offset alone; and what a wait shows to an adapter that has released
nothing follows from the replies and from the region that it finds.
-/

namespace DetectorLink

/-- Something that a driver replies. -/
inductive Reply where
  /-- The outcome of a wait. -/
  | readiness (outcome : Readiness)
  /-- The answer to a positional read. -/
  | answer (r : Except Errno Bytes)
  /-- The answer to a positional write. -/
  | taken (r : Except Errno Nat)

/-- A driver with the commands that it was given and with what it replied, in order. -/
structure Watched (δ : Type) where
  /-- The driver. -/
  driver : δ
  /-- Command offsets with what was to be written there. -/
  commands : List (Nat × Bytes)
  /-- Replies. -/
  replies : List Reply

namespace Watched

variable {δ : Type} [Driver δ]

/-- A driver that is watched from now on. -/
def start (d : δ) : Watched δ := ⟨d, [], []⟩

/-- The driver replies. -/
def reply (w : Watched δ) (driver : δ) (r : Reply) : Watched δ :=
  { w with driver, replies := w.replies ++ [r] }

instance : Driver (Watched δ) where
  readAt command n w :=
    let (r, driver) := Driver.readAt command n w.driver
    (r, w.reply driver (.answer r))
  writeAt command data w :=
    let (r, driver) := Driver.writeAt command data w.driver
    (r, { w.reply driver (.taken r) with commands := w.commands ++ [(command, data)] })
  await timeout w :=
    let (outcome, driver) := Driver.await timeout w.driver
    (outcome, w.reply driver (.readiness outcome))
  load address n w := Driver.load address n w.driver
  mapRegion size w :=
    let (r, driver) := Driver.mapRegion size w.driver
    (r, { w with driver })
  mapBar bar size w :=
    let (r, driver) := Driver.mapBar bar size w.driver
    (r, { w with driver })
  loadBar bar offset n w := Driver.loadBar bar offset n w.driver
  storeBar bar offset data w := { w with driver := Driver.storeBar bar offset data w.driver }
  patience w := Driver.patience w.driver

variable {w v : Watched δ}

/-- Reading is no command. -/
theorem commands_of_reads (h : Driver.Reads w v) : v.commands = w.commands := by
  induction h with
  | refl => rfl
  | await timeout _ ih => exact ih
  | readAt command n _ ih => exact ih
  | mapRegion size _ ih => exact ih

/-- What was replied stays replied. -/
theorem replies_of_reads (h : Driver.Reads w v) : w.replies <+: v.replies := by
  induction h with
  | refl => exact List.prefix_rfl
  | await timeout _ ih => exact ih.trans (List.prefix_append _ _)
  | readAt command n _ ih => exact ih.trans (List.prefix_append _ _)
  | mapRegion size _ ih => exact ih

/-- A command is written down whether or not the driver takes it. -/
theorem commands_writeAt (command : Nat) (data : Bytes) (w : Watched δ) :
    (Driver.writeAt command data w).2.commands = w.commands ++ [(command, data)] := rfl

end Watched

namespace Hardware

/-! ### Operations that only look -/

section Steady

variable {δ α β : Type}

/-- Between two states of a watched adapter no command was given and nothing was released. -/
structure Beside (s t : Hardware × Watched δ) : Prop where
  adapter : ∃ window bars, t.1 = { s.1 with window, bars }
  commands : t.2.commands = s.2.commands

theorem Beside.refl (s : Hardware × Watched δ) : Beside s s :=
  ⟨⟨s.1.window, s.1.bars, rfl⟩, rfl⟩

theorem Beside.trans {s t u : Hardware × Watched δ} (h : Beside s t) (h' : Beside t u) :
    Beside s u := by
  obtain ⟨⟨w, b, ht⟩, hc⟩ := h
  obtain ⟨⟨w', b', hu⟩, hc'⟩ := h'
  exact ⟨⟨w', b', by rw [hu, ht]⟩, hc'.trans hc⟩

theorem Beside.consumer {s t : Hardware × Watched δ} (h : Beside s t) :
    t.1.consumer = s.1.consumer := by
  obtain ⟨⟨w, b, ht⟩, -⟩ := h
  rw [ht]

/-- An operation that gives no command and releases nothing, as long as nothing was released. -/
def Steady (m : HardwareM (Watched δ) α) : Prop := ∀ s, s.1.consumer = 0 → Beside s (m.exec s).2

theorem Steady.bind {m : HardwareM (Watched δ) α} {f : α → HardwareM (Watched δ) β}
    (hm : Steady m) (hf : ∀ a, Steady (f a)) : Steady (m >>= f) := by
  intro s hc
  have hs := hm s hc
  rcases hr : m.exec s with ⟨x | a, t⟩
  · rw [LinkM.exec_bind_error _ hr]
    rwa [hr] at hs
  · rw [LinkM.exec_bind_ok _ hr]
    rw [hr] at hs
    exact hs.trans (hf a t (hs.consumer.trans hc))

theorem steady_pure (a : α) : Steady (pure a : HardwareM (Watched δ) α) := fun s _ ↦ .refl s

theorem steady_fail (x : LinkError) : Steady (.fail x : HardwareM (Watched δ) α) :=
  fun s _ ↦ .refl s

theorem steady_get : Steady (δ := δ) get := fun s _ ↦ .refl s

end Steady

variable {δ : Type} [Driver δ]

/-! ### Rounds of an adapter that has released nothing -/

/-- What an answer of the receive queue means to an adapter that has released nothing: an error, the
number of bytes that wait at the start of the region, or none, so that another round is due. -/
def judge (size : Nat) : Except Errno Bytes → Except LinkError (Option Nat)
  | .error x => .error (.ofSystem x)
  | .ok bytes =>
    match Word.ofByteList bytes with
    | [producer, flags] =>
      if StatusFlag.has flags StatusFlag.rxMessage then
        .ok (if alignDown (producer.toNat % size) = 0 then none else some (producer.toNat % size))
      else match condition? flags with
        | some x => .error x
        | none => .ok none
    | _ => .error .noData

/-- A round: what the driver replied means, and the driver after it. -/
def round (size : Nat) (timeout : Option Nat) (d : δ) : Except LinkError (Option Nat) × δ :=
  match Driver.await timeout d with
  | (.ready, e) =>
    let (answer, f) := Driver.readAt DriverCommand.rx 8 e
    (judge size answer, f)
  | (.interrupted, e) => (.ok none, e)
  | (.expired, e) => (.error .timeout, e)
  | (.broken, e) => (.error .connectionReset, e)
  | (.failed x, e) => (.error (.ofNumber x), e)

/-- What follows from a round. -/
def conclude (h : Hardware) (again : δ → Except LinkError Bytes × (Hardware × δ)) :
    Except LinkError (Option Nat) × δ → Except LinkError Bytes × (Hardware × δ)
  | (.error x, e) => (.error x, (h, e))
  | (.ok none, e) => again e
  | (.ok (some n), e) =>
    (.ok ((Driver.load regionAddress n e).take (alignDown n)),
      ({ h with window := alignDown n }, e))

variable {h : Hardware}

/-- Waiting bytes are shown from the start of the region. -/
theorem exec_showWindow_of_consumer_eq_zero (hc : h.consumer = 0) (producer : UInt32) (d : δ) :
    (showWindow producer).exec (h, d) =
      let n := producer.toNat % h.regionSize
      if alignDown n = 0 then (.ok none, (h, d))
      else (.ok (some ((Driver.load regionAddress n d).take (alignDown n))),
        ({ h with window := alignDown n }, d)) := by
  obtain ⟨interface, size, consumer, window, bars⟩ := h
  obtain rfl : consumer = 0 := hc
  rfl

/-- The answer of the receive queue to an adapter that has released nothing. -/
theorem exec_answerRound_of_consumer_eq_zero (hc : h.consumer = 0) (d : δ) :
    answerRound.exec (h, d) =
      match judge h.regionSize (Driver.readAt DriverCommand.rx 8 d).1,
        (Driver.readAt DriverCommand.rx 8 d).2 with
      | .error x, e => (.error x, (h, e))
      | .ok none, e => (.ok none, (h, e))
      | .ok (some n), e => (.ok (some ((Driver.load regionAddress n e).take (alignDown n))),
          ({ h with window := alignDown n }, e)) := by
  have hread : (readAt DriverCommand.rx 8).exec (h, d) =
      ((Driver.readAt DriverCommand.rx 8 d).1.mapError .ofSystem,
        (h, (Driver.readAt DriverCommand.rx 8 d).2)) := rfl
  rw [answerRound, LinkM.exec_bind, hread]
  rcases Driver.readAt DriverCommand.rx 8 d with ⟨x | answer, e⟩
  · rfl
  · dsimp only [Except.mapError, judge]
    rcases Word.ofByteList answer with _ | ⟨producer, _ | ⟨flags, _ | ⟨word, words⟩⟩⟩
    · rfl
    · rfl
    · dsimp only
      cases StatusFlag.has flags StatusFlag.rxMessage with
      | false => cases condition? flags <;> rfl
      | true =>
        rw [ite_cond_eq_true _ _ (eq_true rfl), ite_cond_eq_true _ _ (eq_true rfl),
          exec_showWindow_of_consumer_eq_zero hc]
        by_cases hz : alignDown (producer.toNat % h.regionSize) = 0
        · simp only [hz, ite_true]
        · simp only [hz, ite_false]
    · rfl

/-- Waiting is a round, and more rounds if it showed nothing. -/
theorem exec_waitRounds_succ (hc : h.consumer = 0) (timeout : Option Nat) (n : Nat) (d : δ) :
    (waitRounds timeout (n + 1)).exec (h, d) =
      conclude h (fun e ↦ (waitRounds timeout n).exec (h, e)) (round h.regionSize timeout d) := by
  rw [waitRounds, LinkM.exec_bind, exec_waitRound, exec_awaitReadable, round]
  rcases Driver.await timeout d with ⟨_ | _ | _ | _ | x, e⟩
  · dsimp only
    rw [exec_answerRound_of_consumer_eq_zero hc]
    rcases judge h.regionSize (Driver.readAt DriverCommand.rx 8 e).1 with x | _ | n <;> rfl
  · rfl
  · rfl
  · rfl
  · rfl

/-- A round reads. -/
theorem reads_round (size : Nat) (timeout : Option Nat) (d : δ) :
    Driver.Reads d (round size timeout d).2 := by
  have ha : Driver.Reads d (Driver.await timeout d).2 := .await timeout (.refl d)
  unfold round
  split
  · next e he =>
    rw [he] at ha
    exact .readAt _ _ ha
  all_goals
    next e he =>
      rw [he] at ha
      exact ha

/-- Fewer bytes than the region has wait at its start. -/
theorem lt_of_round_eq_some {size n : Nat} (hz : size ≠ 0) {timeout : Option Nat} {d e : δ}
    (hr : round size timeout d = (.ok (some n), e)) : n < size := by
  have hjudge {answer : Except Errno Bytes} (hj : judge size answer = .ok (some n)) : n < size := by
    unfold judge at hj
    split at hj
    · cases hj
    · split at hj
      · split at hj
        · split at hj
          · cases hj
          · cases hj
            exact Nat.mod_lt _ (Nat.pos_of_ne_zero hz)
        · split at hj <;> cases hj
      · cases hj
  unfold round at hr
  split at hr
  · exact hjudge (congrArg Prod.fst hr)
  all_goals cases hr

/-! ### Operations of an adapter that has released nothing -/

theorem steady_readStatus : Steady (readStatus (δ := Watched δ)) :=
  fun s _ ↦ ⟨⟨s.1.window, s.1.bars, rfl⟩, rfl⟩

theorem steady_waitRounds (timeout : Option Nat) (n : Nat) :
    Steady (waitRounds (δ := Watched δ) timeout n) := by
  induction n with
  | zero => exact steady_fail _
  | succ n ih =>
    rintro ⟨h, d⟩ hc
    have hr := Watched.commands_of_reads (reads_round h.regionSize timeout d)
    rw [exec_waitRounds_succ hc]
    generalize round h.regionSize timeout d = outcome at hr ⊢
    obtain ⟨x | _ | k, e⟩ := outcome
    · exact ⟨⟨_, _, rfl⟩, hr⟩
    · have hb : Beside (h, d) (h, e) := ⟨⟨_, _, rfl⟩, hr⟩
      exact hb.trans (ih (h, e) hc)
    · exact ⟨⟨_, _, rfl⟩, hr⟩

/-- A wait gives no command and releases nothing. -/
theorem steady_wait (timeout : Option Nat) : Steady (wait (δ := Watched δ) timeout) := by
  refine steady_get.bind fun h ↦ ?_
  split
  · exact steady_fail _
  · exact Steady.bind (fun s _ ↦ .refl s) fun rounds ↦ steady_waitRounds timeout _

theorem steady_barSize (bar : Nat) : Steady (barSize (δ := Watched δ) bar) := by
  refine steady_get.bind fun h ↦ ?_
  split
  · exact steady_pure _
  · refine steady_readStatus.bind fun block ↦ ?_
    dsimp only
    split
    · exact steady_fail _
    · refine Steady.bind (fun s _ ↦ ⟨⟨s.1.window, s.1.bars, rfl⟩, rfl⟩) fun _ ↦ ?_
      exact Steady.bind (fun s _ ↦ ⟨⟨s.1.window, _, rfl⟩, rfl⟩) fun _ ↦ steady_pure _

theorem steady_admitAccess (bar offset count : Nat) :
    Steady (admitAccess (δ := Watched δ) bar offset count) := by
  unfold admitAccess
  split
  · exact steady_fail _
  · refine (steady_barSize bar).bind fun size ↦ ?_
    split
    · exact steady_fail _
    · exact steady_pure _

/-- Registers are not the receive queue. -/
theorem commands_storeWords (bar offset : Nat) (words : List UInt32) (w : Watched δ) :
    (storeWords bar offset words w).commands = w.commands := by
  induction words generalizing offset w with
  | nil => rfl
  | cons word rest ih => exact ih _ _

theorem steady_registerRead (bar offset count : Nat) :
    Steady (registerRead (δ := Watched δ) bar offset count) :=
  (steady_admitAccess bar offset count).bind fun _ s _ ↦ .refl s

theorem steady_registerWrite (bar offset : Nat) (words : List UInt32) :
    Steady (registerWrite (δ := Watched δ) bar offset words) :=
  (steady_admitAccess bar offset words.length).bind
    fun _ s _ ↦ ⟨⟨s.1.window, s.1.bars, rfl⟩, commands_storeWords bar offset words s.2⟩

/-! ### What a wait shows follows from what the driver replies -/

section Heard

/-- What the driver replies in a round. -/
def heard (timeout : Option Nat) (d : δ) : List Reply :=
  match Driver.await timeout d with
  | (.ready, e) => [.readiness .ready, .answer (Driver.readAt DriverCommand.rx 8 e).1]
  | (outcome, _) => [.readiness outcome]

/-- What the replies of a round mean. -/
def verdict (size : Nat) : List Reply → Except LinkError (Option Nat)
  | [.readiness .ready, .answer r] => judge size r
  | [.readiness .expired] => .error .timeout
  | [.readiness .broken] => .error .connectionReset
  | [.readiness (.failed x)] => .error (.ofNumber x)
  | _ => .ok none

theorem round_eq_verdict (size : Nat) (timeout : Option Nat) (d : δ) :
    (round size timeout d).1 = verdict size (heard timeout d) := by
  unfold round heard
  rcases Driver.await timeout d with ⟨_ | _ | _ | _ | x, e⟩ <;> rfl

/-- The replies of a round stand at the end. -/
theorem replies_round (size : Nat) (timeout : Option Nat) (d : Watched δ) :
    (round size timeout d).2.replies = d.replies ++ heard timeout d := by
  have ha : (Driver.await timeout d).2.replies =
    d.replies ++ [.readiness (Driver.await timeout d).1] := rfl
  unfold round heard
  generalize Driver.await timeout d = awaited at ha ⊢
  obtain ⟨_ | _ | _ | _ | x, e⟩ := awaited
  · exact (congrArg (· ++ [_]) ha).trans (List.append_assoc ..)
  all_goals exact ha

theorem heard_cases (timeout : Option Nat) (d : δ) :
    (∃ r, heard timeout d = [.readiness .ready, .answer r]) ∨
      ∃ outcome, outcome ≠ .ready ∧ heard timeout d = [.readiness outcome] := by
  unfold heard
  split
  · exact .inl ⟨_, rfl⟩
  · next outcome e hne _ => exact .inr ⟨outcome, hne, rfl⟩

/-- Where a round ends can be told from the replies. -/
theorem heard_append_inj {timeout timeout' : Option Nat} {d d' : δ} {more more' : List Reply}
    (h : heard timeout d ++ more = heard timeout' d' ++ more') :
    heard timeout d = heard timeout' d' ∧ more = more' := by
  rcases heard_cases timeout d with ⟨r, hr⟩ | ⟨o, ho, hr⟩ <;>
    rcases heard_cases timeout' d' with ⟨r', hr'⟩ | ⟨o', ho', hr'⟩ <;>
    rw [hr, hr'] at h ⊢
  · cases h
    exact ⟨rfl, rfl⟩
  · cases h
    contradiction
  · cases h
    contradiction
  · cases h
    exact ⟨rfl, rfl⟩

/-- What is replied in a wait begins with the replies of its first round. -/
theorem replies_waitRounds_succ (hc : h.consumer = 0) (timeout : Option Nat) (n : Nat)
    {d : Watched δ} {replies : List Reply}
    (hd : ((waitRounds timeout (n + 1)).exec (h, d)).2.2.replies = d.replies ++ replies) :
    ∃ more, replies = heard timeout d ++ more ∧
      ((waitRounds timeout (n + 1)).exec (h, d)).2.2.replies =
        (round h.regionSize timeout d).2.replies ++ more := by
  have hprefix : (round h.regionSize timeout d).2.replies <+:
      ((waitRounds timeout (n + 1)).exec (h, d)).2.2.replies := by
    rw [exec_waitRounds_succ hc]
    rcases round h.regionSize timeout d with ⟨x | _ | k, e⟩
    · exact List.prefix_rfl
    · exact Watched.replies_of_reads (onlyReads_waitRounds timeout n (h, e))
    · exact List.prefix_rfl
  obtain ⟨more, hmore⟩ := hprefix
  refine ⟨more, ?_, hmore.symm⟩
  rw [hd, replies_round, List.append_assoc] at hmore
  exact (List.append_cancel_left hmore).symm

variable {h' : Hardware} {timeout timeout' : Option Nat} {d d' : Watched δ} {replies : List Reply}

theorem heard_append_ne_nil (timeout : Option Nat) (d : δ) (more : List Reply) :
    [] ≠ heard timeout d ++ more := by
  rcases heard_cases timeout d with ⟨r, hr⟩ | ⟨o, _, hr⟩ <;> rw [hr] <;>
    exact (List.cons_ne_nil _ _).symm

/-- Rounds that hear the same replies and find the same region show the same. -/
theorem waitRounds_eq_of_replies (hc : h.consumer = 0) (hc' : h'.consumer = 0)
    (hz : h.regionSize ≠ 0) (hsize : h'.regionSize = h.regionSize) {n n' : Nat}
    (hd : ((waitRounds timeout n).exec (h, d)).2.2.replies = d.replies ++ replies)
    (hd' : ((waitRounds timeout' n').exec (h', d')).2.2.replies = d'.replies ++ replies)
    (hload : ∀ k ≤ h.regionSize,
      Driver.load regionAddress k ((waitRounds timeout n).exec (h, d)).2.2 =
        Driver.load regionAddress k ((waitRounds timeout' n').exec (h', d')).2.2) :
    ((waitRounds timeout n).exec (h, d)).1 = ((waitRounds timeout' n').exec (h', d')).1 := by
  -- induction on the rounds of one wait; what is left of the replies after a round is that of both
  induction n generalizing n' d d' replies with
  | zero =>
    have hnil : replies = [] := List.append_cancel_left (hd.symm.trans (List.append_nil _).symm)
    cases n' with
    | zero => rfl
    | succ n' =>
      obtain ⟨more, hmore, -⟩ := replies_waitRounds_succ hc' timeout' n' hd'
      exact absurd (hnil.symm.trans hmore) (heard_append_ne_nil _ _ _)
  | succ n ih =>
    obtain ⟨more, hmore, hlast⟩ := replies_waitRounds_succ hc timeout n hd
    cases n' with
    | zero =>
      have hnil : replies = [] := List.append_cancel_left (hd'.symm.trans (List.append_nil _).symm)
      exact absurd (hnil.symm.trans hmore) (heard_append_ne_nil _ _ _)
    | succ n' =>
      obtain ⟨more', hmore', hlast'⟩ := replies_waitRounds_succ hc' timeout' n' hd'
      obtain ⟨hheard, rfl⟩ := heard_append_inj (hmore.symm.trans hmore')
      have hround := (round_eq_verdict h.regionSize timeout d).trans
        ((congrArg _ hheard).trans (round_eq_verdict h.regionSize timeout' d').symm)
      rw [exec_waitRounds_succ hc] at hlast hload ⊢
      rw [exec_waitRounds_succ hc', hsize] at hlast' hload ⊢
      rcases hr : round h.regionSize timeout d with ⟨x | _ | k, e⟩ <;>
        rcases hr' : round h.regionSize timeout' d' with ⟨x' | _ | k', e'⟩ <;>
        rw [hr, hr'] at hround <;> cases hround
      · rfl
      · rw [hr] at hlast hload
        rw [hr'] at hlast' hload
        exact ih hlast hlast' hload
      · rw [hr, hr'] at hload
        have hk : k ≤ h.regionSize := Nat.le_of_lt (lt_of_round_eq_some hz hr)
        exact congrArg (fun bytes ↦ Except.ok (bytes.take (alignDown k))) (hload k hk)

/-- Waits that hear the same replies and find the same region show the same. -/
theorem wait_eq_of_replies (hc : h.consumer = 0) (hc' : h'.consumer = 0)
    (hsize : h'.regionSize = h.regionSize)
    (hd : ((wait timeout).exec (h, d)).2.2.replies = d.replies ++ replies)
    (hd' : ((wait timeout').exec (h', d')).2.2.replies = d'.replies ++ replies)
    (hload : ∀ k ≤ h.regionSize,
      Driver.load regionAddress k ((wait timeout).exec (h, d)).2.2 =
        Driver.load regionAddress k ((wait timeout').exec (h', d')).2.2) :
    ((wait timeout).exec (h, d)).1 = ((wait timeout').exec (h', d')).1 := by
  by_cases hz : h.regionSize = 0
  · rw [exec_wait_of_regionSize_eq_zero _ hz, exec_wait_of_regionSize_eq_zero _ (hsize.trans hz)]
  · rw [exec_wait d hz] at hd hload ⊢
    rw [exec_wait d' (hsize ▸ hz)] at hd' hload ⊢
    exact waitRounds_eq_of_replies hc hc' hz hsize hd hd' hload

end Heard

end Hardware

end DetectorLink
