import DetectorLink.Proofs.Link.Region

/-!
# What the operations of an adapter can do

One statement for each operation: what it asks of the driver, how it can end, and what is left of
the adapter. Waiting only reads, and shows the next bytes of the region once the driver tells of
enough of them. Everything about runs of an adapter is derived from these.
-/

namespace DetectorLink

/-- A read of the receive queue that is answered with a message and a producer offset. -/
def Driver.Tells {δ : Type} [Driver δ] (d e : δ) (producer : UInt32) : Prop :=
  ∃ answer flags, Driver.readAt DriverCommand.rx 8 d = (.ok answer, e) ∧
    Word.ofByteList answer = [producer, flags] ∧
    StatusFlag.has flags StatusFlag.rxMessage = true

namespace Hardware

variable {δ : Type} [Driver δ] (h : Hardware) (d : δ)

/-! ### Commands -/

/-- A command is taken by the driver, or fails with its error. -/
theorem command_cases (offset : Nat) (value : UInt32) :
    (∃ n e, Driver.writeAt offset (Word.toBytes value) d = (.ok n, e) ∧
      (command offset value).exec (h, d) = (.ok (), (h, e))) ∨
    (∃ x e, Driver.writeAt offset (Word.toBytes value) d = (.error x, e) ∧
      (command offset value).exec (h, d) = (.error (.ofSystem x), (h, e))) := by
  have hw : (writeAt offset (Word.toBytes value)).exec (h, d) =
      (((Driver.writeAt offset (Word.toBytes value) d).1.mapError .ofSystem),
        (h, (Driver.writeAt offset (Word.toBytes value) d).2)) := rfl
  rcases hd : Driver.writeAt offset (Word.toBytes value) d with ⟨x | n, e⟩
  · rw [hd] at hw
    exact .inr ⟨x, e, rfl, LinkM.exec_bind_error _ hw⟩
  · rw [hd] at hw
    exact .inl ⟨n, e, rfl, LinkM.exec_bind_ok _ hw⟩

/-- Reading the status block only reads. -/
theorem exec_readStatus :
    readStatus.exec (h, d) =
      (checkStatus (Driver.readAt DriverCommand.getStatus StatusBlock.byteCount d).1,
        (h, (Driver.readAt DriverCommand.getStatus StatusBlock.byteCount d).2)) := rfl

/-- A reset is refused by the driver; or it is taken, and then the status either cannot be read, or
the adapter starts at the beginning of the region. -/
theorem reset_cases :
    (∃ x e, Driver.writeAt DriverCommand.reset (Word.toBytes (resetCode h.interface)) d =
        (.error x, e) ∧ reset.exec (h, d) = (.error (.ofSystem x), (h, e))) ∨
    (∃ n e f, Driver.writeAt DriverCommand.reset (Word.toBytes (resetCode h.interface)) d =
        (.ok n, e) ∧ Driver.Reads e f ∧
      ((∃ x, reset.exec (h, d) = (.error x, (h, f))) ∨
        reset.exec (h, d) = (.ok (), ({ h with consumer := 0, window := 0 }, f)))) := by
  have hget : reset.exec (h, d) =
      (command DriverCommand.reset (resetCode h.interface) >>= fun _ ↦ readStatus >>= fun _ ↦
        modify fun h ↦ { h with consumer := 0, window := 0 }).exec (h, d) := rfl
  rcases command_cases h d DriverCommand.reset (resetCode h.interface) with
    ⟨n, e, hd, hc⟩ | ⟨x, e, hd, hc⟩
  · have hr : Driver.Reads e
        (Driver.readAt DriverCommand.getStatus StatusBlock.byteCount e).2 := .readAt _ _ (.refl e)
    refine .inr ⟨n, e, _, hd, hr, ?_⟩
    rw [hget, LinkM.exec_bind_ok _ hc, LinkM.exec_bind, exec_readStatus]
    cases checkStatus (Driver.readAt DriverCommand.getStatus StatusBlock.byteCount e).1 with
    | error x => exact .inl ⟨x, rfl⟩
    | ok block => exact .inr rfl
  · refine .inl ⟨x, e, hd, ?_⟩
    rw [hget, LinkM.exec_bind_error _ hc]

/-- An adapter is opened at the beginning of its region, whose size is a word of the status. Unless
it only looks on, it is reset. -/
theorem openDriver_ok {interface : Interface} {debug : Bool} {h : Hardware} {d e : δ}
    (ho : openDriver interface debug d = (.ok h, e)) :
    (∃ size : UInt32, h = ⟨interface, size.toNat, 0, 0, []⟩) ∧
    (debug = false → ∃ n f g, Driver.Reads d f ∧
      Driver.writeAt DriverCommand.reset (Word.toBytes (resetCode interface)) f = (.ok n, g) ∧
      Driver.Reads g e) := by
  have hread : Driver.Reads d (Driver.readAt DriverCommand.getStatus StatusBlock.byteCount
      (Driver.readAt DriverCommand.version 8 d).2).2 := .readAt _ _ (.readAt _ _ (.refl d))
  dsimp only [openDriver] at ho
  generalize (Driver.readAt DriverCommand.getStatus StatusBlock.byteCount
    (Driver.readAt DriverCommand.version 8 d).2).2 = f at ho hread
  split at ho
  · cases ho
  · split at ho
    · cases ho
    · next block _ =>
      have hmap : Driver.Reads d (Driver.mapRegion block.regionSize.toNat f).2 :=
        .mapRegion _ hread
      split at ho
      · cases ho
      · next k hk =>
        rw [hk] at hmap
        cases debug with
        | true =>
          cases ho
          exact ⟨⟨_, rfl⟩, fun hd ↦ nomatch hd⟩
        | false =>
          rcases reset_cases ⟨interface, block.regionSize.toNat, 0, 0, []⟩ k with
            ⟨x, g, hd, hx⟩ | ⟨n, g, l, hd, hr, ⟨x, hx⟩ | hx⟩ <;> simp only [hx] at ho <;> cases ho
          exact ⟨⟨block.regionSize, rfl⟩, fun _ ↦ ⟨n, k, g, hmap, hd, hr⟩⟩

/-- A release is refused, or has nothing to do; or the driver takes it and the adapter goes on, or
refuses it. -/
theorem acknowledge_cases (n : Nat) :
    (n % 4 ≠ 0 ∧ (acknowledge n).exec (h, d) =
      (.error (.invalidArgument s!"acknowledge length {n} is not 4-byte aligned"), (h, d))) ∨
    (n % 4 = 0 ∧ min n h.window = 0 ∧ (acknowledge n).exec (h, d) = (.ok (), (h, d))) ∨
    (n % 4 = 0 ∧ min n h.window ≠ 0 ∧
      ((∃ k e, Driver.writeAt DriverCommand.advance
          (Word.toBytes (UInt32.ofNat (min n h.window))) d = (.ok k, e) ∧
        (acknowledge n).exec (h, d) = (.ok (),
          ({ h with
            consumer := (h.consumer + min n h.window) % h.regionSize
            window := h.window - min n h.window }, e))) ∨
      (∃ x e, Driver.writeAt DriverCommand.advance
          (Word.toBytes (UInt32.ofNat (min n h.window))) d = (.error x, e) ∧
        (acknowledge n).exec (h, d) = (.error (.ofSystem x), (h, e))))) := by
  by_cases hm : n % 4 = 0
  · have hget : (acknowledge n).exec (h, d) = LinkM.exec (if min n h.window ≠ 0 then do
          command DriverCommand.advance (UInt32.ofNat (min n h.window))
          modify fun h' ↦ { h' with
            consumer := (h'.consumer + min n h.window) % h'.regionSize
            window := h'.window - min n h.window }
        else pure ()) (h, d) := by
      rw [acknowledge, ite_cond_eq_false _ _ (eq_false (not_not_intro hm))]
      rfl
    by_cases hz : min n h.window = 0
    · refine .inr (.inl ⟨hm, hz, ?_⟩)
      rw [hget, ite_cond_eq_false _ _ (eq_false (not_not_intro hz))]
      rfl
    · refine .inr (.inr ⟨hm, hz, ?_⟩)
      rw [hget, ite_cond_eq_true _ _ (eq_true hz)]
      rcases command_cases h d DriverCommand.advance (UInt32.ofNat (min n h.window)) with
        ⟨k, e, hd, hc⟩ | ⟨x, e, hd, hc⟩
      · exact .inl ⟨k, e, hd, LinkM.exec_bind_ok _ hc⟩
      · exact .inr ⟨x, e, hd, LinkM.exec_bind_error _ hc⟩
  · refine .inl ⟨hm, ?_⟩
    rw [acknowledge, ite_cond_eq_true _ _ (eq_true hm)]
    rfl

/-! ### Waits -/

/-- A wait for the driver's queue leaves the adapter alone. -/
theorem exec_awaitReadable (timeout : Option Nat) :
    (awaitReadable timeout).exec (h, d) =
      (match (Driver.await timeout d).1 with
      | .ready => .ok true
      | .interrupted => .ok false
      | .expired => .error .timeout
      | .broken => .error .connectionReset
      | .failed x => .error (.ofNumber x),
      (h, (Driver.await timeout d).2)) := by
  simp only [awaitReadable, withDriver, LinkM.exec_ofFun]
  rcases Driver.await timeout d with ⟨_ | _ | _ | _ | x, e⟩ <;> rfl

/-- What follows in a round once the queue can be read. -/
def answerRound : HardwareM δ (Option Bytes) := do
  match Word.ofByteList (← readAt DriverCommand.rx 8) with
  | [producer, flags] =>
    if StatusFlag.has flags StatusFlag.rxMessage then showWindow producer
    else match condition? flags with
      | some e => .fail e
      | none => return none
  | _ => .fail .noData

theorem exec_waitRound (timeout : Option Nat) :
    (waitRound timeout).exec (h, d) =
      match (awaitReadable timeout).exec (h, d) with
      | (.ok true, s) => answerRound.exec s
      | (.ok false, s) => (.ok none, s)
      | (.error x, s) => (.error x, s) := by
  rw [waitRound, LinkM.exec_bind]
  rcases (awaitReadable timeout).exec (h, d) with ⟨_ | _ | _, s⟩ <;> rfl

/-! ### Operations that give no command -/

section OnlyReads

variable {α β : Type}

/-- An operation that gives the driver no command. -/
def OnlyReads (m : HardwareM δ α) : Prop := ∀ s, Driver.Reads s.2 (m.exec s).2.2

theorem OnlyReads.bind {m : HardwareM δ α} {f : α → HardwareM δ β} (hm : OnlyReads m)
    (hf : ∀ a, OnlyReads (f a)) : OnlyReads (m >>= f) := by
  intro s
  have hreads := hm s
  rcases hr : m.exec s with ⟨x | a, t⟩
  · rw [LinkM.exec_bind_error _ hr]
    rwa [hr] at hreads
  · rw [LinkM.exec_bind_ok _ hr]
    rw [hr] at hreads
    exact hreads.trans (hf a t)

theorem onlyReads_pure (a : α) : OnlyReads (pure a : HardwareM δ α) := fun s ↦ .refl s.2

theorem onlyReads_fail (x : LinkError) : OnlyReads (.fail x : HardwareM δ α) := fun s ↦ .refl s.2

theorem onlyReads_awaitReadable (timeout : Option Nat) :
    OnlyReads (awaitReadable (δ := δ) timeout) := by
  rintro ⟨h, d⟩
  rw [exec_awaitReadable]
  exact .await timeout (.refl d)

theorem onlyReads_showWindow (producer : UInt32) : OnlyReads (showWindow (δ := δ) producer) := by
  rintro ⟨h, d⟩
  simp only [showWindow, LinkM.exec_ofFun]
  split <;> exact .refl d

theorem onlyReads_waitRound (timeout : Option Nat) : OnlyReads (waitRound (δ := δ) timeout) := by
  refine (onlyReads_awaitReadable timeout).bind fun ready ↦ ?_
  split
  · exact onlyReads_pure none
  · refine OnlyReads.bind (fun s ↦ .readAt _ _ (.refl s.2)) fun answer ↦ ?_
    split
    · split
      · exact onlyReads_showWindow _
      · split
        · exact onlyReads_fail _
        · exact onlyReads_pure none
    · exact onlyReads_fail _

theorem onlyReads_waitRounds (timeout : Option Nat) (n : Nat) :
    OnlyReads (waitRounds (δ := δ) timeout n) := by
  induction n with
  | zero => exact onlyReads_fail _
  | succ n ih =>
    refine (onlyReads_waitRound timeout).bind fun shown ↦ ?_
    split
    · exact onlyReads_pure _
    · exact ih

theorem onlyReads_wait (timeout : Option Nat) : OnlyReads (wait (δ := δ) timeout) := by
  refine OnlyReads.bind (fun s ↦ .refl s.2) fun h ↦ ?_
  split
  · exact onlyReads_fail _
  · exact OnlyReads.bind (fun s ↦ .refl s.2) fun rounds ↦ onlyReads_waitRounds timeout _

end OnlyReads

variable {h}

/-- A round that tells of nothing shows nothing. -/
theorem exec_answerRound_of_not_tells
    (ht : ∀ producer, ¬Driver.Tells d (Driver.readAt DriverCommand.rx 8 d).2 producer) :
    (∃ x, answerRound.exec (h, d) = (.error x, (h, (Driver.readAt DriverCommand.rx 8 d).2))) ∨
    answerRound.exec (h, d) = (.ok none, (h, (Driver.readAt DriverCommand.rx 8 d).2)) := by
  have hread : (readAt DriverCommand.rx 8).exec (h, d) =
      ((Driver.readAt DriverCommand.rx 8 d).1.mapError .ofSystem,
        (h, (Driver.readAt DriverCommand.rx 8 d).2)) := rfl
  rw [answerRound, LinkM.exec_bind, hread]
  rcases hr : Driver.readAt DriverCommand.rx 8 d with ⟨x | answer, e⟩
  · exact .inl ⟨_, rfl⟩
  · rw [hr] at ht
    dsimp only [Except.mapError]
    split
    · next producer flags hw =>
      split
      · next hf => exact absurd ⟨answer, flags, hr, hw, hf⟩ (ht producer)
      · split
        · next x _ => exact .inl ⟨x, rfl⟩
        · exact .inr rfl
    · exact .inl ⟨_, rfl⟩

/-- Rounds that end with a round that showed bytes. -/
theorem exec_waitRounds_of_some {timeout : Option Nat} {bytes : Bytes} {s : Hardware × δ} (n : Nat)
    (hn : (waitRound timeout).exec (h, d) = (.ok (some bytes), s)) :
    (waitRounds timeout (n + 1)).exec (h, d) = (.ok bytes, s) := by
  rw [waitRounds, LinkM.exec_bind_ok _ hn]
  rfl

/-- Rounds after a round that showed nothing. -/
theorem exec_waitRounds_of_none {timeout : Option Nat} {e : δ} (n : Nat)
    (hn : (waitRound timeout).exec (h, d) = (.ok none, (h, e))) :
    (waitRounds timeout (n + 1)).exec (h, d) = (waitRounds timeout n).exec (h, e) := by
  rw [waitRounds, LinkM.exec_bind_ok _ hn]

/-- What a driver is after `n` rounds in which nothing was shown. -/
inductive IdleRounds (h : Hardware) (timeout : Option Nat) : Nat → δ → δ → Prop where
  | zero (d : δ) : IdleRounds h timeout 0 d d
  | succ {n : Nat} {d e f : δ} (hd : (waitRound timeout).exec (h, d) = (.ok none, (h, e)))
    (he : IdleRounds h timeout n e f) : IdleRounds h timeout (n + 1) d f

/-- Rounds after any number of rounds that showed nothing. -/
theorem IdleRounds.exec_waitRounds {timeout : Option Nat} {n : Nat} {d e : δ}
    (hidle : h.IdleRounds timeout n d e) (more : Nat) :
    (waitRounds timeout (n + more)).exec (h, d) = (waitRounds timeout more).exec (h, e) := by
  induction hidle with
  | zero d => rw [Nat.zero_add]
  | succ hd _ ih => rw [Nat.succ_add, exec_waitRounds_of_none _ _ hd, ih]

/-- A wait is rounds of waiting, as many as the driver has patience for and one more. -/
theorem exec_wait (hz : h.regionSize ≠ 0) (timeout : Option Nat) :
    (wait timeout).exec (h, d) = (waitRounds timeout (Driver.patience d + 1)).exec (h, d) := by
  have hget : (wait timeout).exec (h, d) =
      (if h.regionSize = 0 then LinkM.fail (.unsupported "receive DMA region")
        else waitRounds timeout (Driver.patience d + 1) : HardwareM δ Bytes).exec (h, d) := by
    rw [wait, LinkM.exec_bind_ok _ (show get.exec (h, d) = (.ok h, (h, d)) from rfl)]
    split <;> rfl
  rw [hget, ite_cond_eq_false _ _ (eq_false hz)]

/-- Without a receive region nothing is waited for. -/
theorem exec_wait_of_regionSize_eq_zero (hz : h.regionSize = 0) (timeout : Option Nat) :
    (wait timeout).exec (h, d) = (.error (.unsupported "receive DMA region"), (h, d)) := by
  rw [wait, LinkM.exec_bind_ok _ (show get.exec (h, d) = (.ok h, (h, d)) from rfl),
    ite_cond_eq_true _ _ (eq_true hz)]
  rfl

variable [MappedMemory δ]

/-- A round that tells of bytes shows the next whole words, if there are any. -/
theorem exec_answerRound_of_tells (hc : h.consumer < h.regionSize) {e : δ} {producer : UInt32}
    (ht : Driver.Tells d e producer) :
    answerRound.exec (h, d) =
      if h.windowLength producer = 0 then (.ok none, (h, e))
      else (.ok (some (h.cyclic e (h.windowLength producer))),
        ({ h with window := h.windowLength producer }, e)) := by
  obtain ⟨answer, flags, hr, hw, hf⟩ := ht
  have hread : (readAt DriverCommand.rx 8).exec (h, d) = (.ok answer, (h, e)) := by
    simp only [readAt, withDriver, LinkM.exec_ofFun, hr]
    rfl
  rw [answerRound, LinkM.exec_bind_ok _ hread, hw]
  simp only [hf, ite_true]
  exact exec_showWindow e hc producer

/-- Bytes are shown to an adapter: after reads the driver told of a producer offset up to which at
least one whole word waits. The state `e` is that after it told. -/
def Shows (h : Hardware) (d e : δ) (producer : UInt32) : Prop :=
  (∃ f, Driver.Reads d f ∧ Driver.Tells f e producer) ∧ 0 < h.windowLength producer

/-- A round of waiting only reads; it fails, or shows nothing, or shows bytes. -/
theorem waitRound_cases (hc : h.consumer < h.regionSize) (timeout : Option Nat) :
    ∃ e, Driver.Reads d e ∧
      ((∃ x, (waitRound timeout).exec (h, d) = (.error x, (h, e))) ∨
      (waitRound timeout).exec (h, d) = (.ok none, (h, e)) ∨
      ∃ producer, h.Shows d e producer ∧
        (waitRound timeout).exec (h, d) = (.ok (some (h.cyclic e (h.windowLength producer))),
          ({ h with window := h.windowLength producer }, e))) := by
  have ha : Driver.Reads d (Driver.await timeout d).2 := .await timeout (.refl d)
  have hround := exec_waitRound h d timeout
  rw [exec_awaitReadable] at hround
  generalize Driver.await timeout d = awaited at ha hround
  obtain ⟨outcome, f⟩ := awaited
  cases outcome with
  | ready =>
    have hr : Driver.Reads f (Driver.readAt DriverCommand.rx 8 f).2 := .readAt _ _ (.refl f)
    by_cases ht : ∃ producer, Driver.Tells f (Driver.readAt DriverCommand.rx 8 f).2 producer
    · obtain ⟨producer, ht⟩ := ht
      refine ⟨_, ha.trans hr, .inr ?_⟩
      rw [hround]
      dsimp only
      rw [exec_answerRound_of_tells f hc ht]
      split
      · exact .inl rfl
      · next hz => exact .inr ⟨producer, ⟨⟨f, ha, ht⟩, Nat.pos_of_ne_zero hz⟩, rfl⟩
    · refine ⟨_, ha.trans hr, ?_⟩
      rw [hround]
      rcases exec_answerRound_of_not_tells f (not_exists.mp ht) with ⟨x, hx⟩ | hx
      · exact .inl ⟨x, hx⟩
      · exact .inr (.inl hx)
  | interrupted => exact ⟨f, ha, .inr (.inl hround)⟩
  | expired => exact ⟨f, ha, .inl ⟨_, hround⟩⟩
  | broken => exact ⟨f, ha, .inl ⟨_, hround⟩⟩
  | failed x => exact ⟨f, ha, .inl ⟨_, hround⟩⟩

/-- Rounds of waiting only read; they fail or show bytes. -/
theorem waitRounds_cases (hc : h.consumer < h.regionSize) (timeout : Option Nat) (n : Nat) :
    ∃ e, Driver.Reads d e ∧
      ((∃ x, (waitRounds timeout n).exec (h, d) = (.error x, (h, e))) ∨
      ∃ producer, h.Shows d e producer ∧
        (waitRounds timeout n).exec (h, d) = (.ok (h.cyclic e (h.windowLength producer)),
          ({ h with window := h.windowLength producer }, e))) := by
  induction n generalizing d with
  | zero => exact ⟨d, .refl d, .inl ⟨_, rfl⟩⟩
  | succ n ih =>
    obtain ⟨e, he, ⟨x, hx⟩ | hx | ⟨producer, hs, hx⟩⟩ := waitRound_cases d hc timeout
    · exact ⟨e, he, .inl ⟨x, LinkM.exec_bind_error _ hx⟩⟩
    · obtain ⟨f, hf, hcases⟩ := ih e
      refine ⟨f, he.trans hf, ?_⟩
      rw [exec_waitRounds_of_none d n hx]
      rcases hcases with hfail | ⟨producer, ⟨⟨g, hg, ht⟩, hpos⟩, hshown⟩
      · exact .inl hfail
      · exact .inr ⟨producer, ⟨⟨g, he.trans hg, ht⟩, hpos⟩, hshown⟩
    · exact ⟨e, he, .inr ⟨producer, hs, exec_waitRounds_of_some d n hx⟩⟩

/-- A wait only reads; it fails or shows bytes. -/
theorem wait_cases (hc : h.consumer < h.regionSize) (timeout : Option Nat) :
    ∃ e, Driver.Reads d e ∧
      ((∃ x, (wait timeout).exec (h, d) = (.error x, (h, e))) ∨
      ∃ producer, h.Shows d e producer ∧
        (wait timeout).exec (h, d) = (.ok (h.cyclic e (h.windowLength producer)),
          ({ h with window := h.windowLength producer }, e))) := by
  rw [exec_wait d (Nat.ne_of_gt (Nat.lt_of_le_of_lt (Nat.zero_le _) hc))]
  exact waitRounds_cases d hc timeout _

/-- Once the driver tells of a whole word, in the first round or after rounds that showed nothing,
the wait shows the next bytes. -/
theorem exec_wait_of_tells (hc : h.consumer < h.regionSize) {timeout : Option Nat} {n : Nat}
    {d e f g : δ} {producer : UInt32} (hidle : h.IdleRounds timeout n d e)
    (hn : n ≤ Driver.patience d) (hready : Driver.await timeout e = (.ready, f))
    (ht : Driver.Tells f g producer) (hpos : 0 < h.windowLength producer) :
    (wait timeout).exec (h, d) = (.ok (h.cyclic g (h.windowLength producer)),
      ({ h with window := h.windowLength producer }, g)) := by
  have hround : (waitRound timeout).exec (h, e) =
      (.ok (some (h.cyclic g (h.windowLength producer))),
        ({ h with window := h.windowLength producer }, g)) := by
    rw [exec_waitRound, exec_awaitReadable, hready]
    dsimp only
    rw [exec_answerRound_of_tells f hc ht, ite_cond_eq_false _ _ (eq_false (Nat.ne_of_gt hpos))]
  obtain ⟨more, hm⟩ := Nat.exists_eq_add_of_le hn
  rw [exec_wait d (Nat.ne_of_gt (Nat.lt_of_le_of_lt (Nat.zero_le _) hc)), hm, Nat.add_assoc,
    hidle.exec_waitRounds]
  exact exec_waitRounds_of_some e more hround

end Hardware

end DetectorLink
