import DetectorLink.Proofs.Link.Simulated

/-!
# Receiving from a peer that stays connected

A simulated link whose peer stays connected never fails: a wait shows all buffered bytes, or times
out with less than a word of them, and a release succeeds. Its unread bytes are the buffered ones
and those on their way. Waits keep them, releases take from their front, and only what arrives is
added to them.
-/

namespace DetectorLink

/-! ### Waits that time out -/

namespace Intake

variable {i : Intake}

/-- Collecting a word from a peer that stays connected times out before there is one. -/
theorem buffer_fill_of_timeout {capacity : Nat} (hc : alignment ≤ capacity)
    {deadline : Option Nat} {rounds : Nat} (h : i.stream.Stays) (hi : i.buffer.length < alignment)
    (ht : (fill capacity deadline rounds i).1 = .error .timeout) :
    (fill capacity deadline rounds i).2.buffer.length < alignment := by
  induction rounds generalizing i with
  | zero => exact hi
  | succ rounds ih =>
    obtain ⟨⟨happened, hr⟩, hstays⟩ :=
      collect_of_stays h (Nat.lt_of_lt_of_le hi hc) (deadline.map (· - i.clock))
    have hkeep := @buffer_collect i capacity (deadline.map (· - i.clock))
    rw [fill] at ht ⊢
    generalize i.collect capacity (deadline.map (· - i.clock)) = r at hr hstays hkeep ht ⊢
    obtain ⟨answer, j⟩ := r
    obtain rfl : answer = .ok happened := hr
    cases happened with
    | false =>
      rw [hkeep fun he ↦ Bool.noConfusion (Except.ok.inj he)]
      exact hi
    | true =>
      dsimp only at ht ⊢
      split at ht
      · next hj =>
        rw [ite_cond_eq_true _ _ (eq_true hj)]
        exact ih hstays hj ht
      · cases ht

/-- A wait for the bytes of a peer that stays connected times out with less than a word. -/
theorem buffer_wait_of_timeout {capacity : Nat} (hc : alignment ≤ capacity)
    {deadline : Option Nat} (h : i.stream.Stays)
    (ht : (i.wait capacity deadline).1 = .error .timeout) :
    (i.wait capacity deadline).2.buffer.length < alignment := by
  have hcollect : ∀ r, r = (if i.buffer.length < alignment then i.fill capacity deadline alignment
        else i.topUp capacity) → r.1 = .error .timeout → r.2.buffer.length < alignment := by
    rintro r rfl he
    split at he
    · next hi =>
      rw [ite_cond_eq_true _ _ (eq_true hi)]
      exact buffer_fill_of_timeout hc h hi he
    · unfold topUp at he
      split at he
      · next hroom =>
        obtain ⟨⟨happened, hr⟩, -⟩ := collect_of_stays h hroom (some 0)
        dsimp only at he
        rw [hr] at he
        cases he
      · cases he
  unfold wait at ht ⊢
  generalize (if i.buffer.length < alignment then i.fill capacity deadline alignment
    else i.topUp capacity) = r at hcollect ht ⊢
  obtain ⟨e | ⟨⟩, j⟩ := r
  · exact hcollect _ rfl (congrArg Except.error (Except.error.inj ht))
  · nomatch ht

end Intake

namespace Link

variable {δ : Type}

/-! ### Connected links -/

/-- What can happen around a receiving link. -/
inductive Arrival where
  /-- Bytes are fed that arrive after some milliseconds. -/
  | feed (delay : Nat) (data : Bytes)
  /-- Milliseconds pass. -/
  | elapse (n : Nat)
  deriving DecidableEq, Repr

namespace Arrival

/-- What is left after it. -/
def apply : Arrival → Link × Host δ → Link × Host δ
  | .feed delay data, s => Link.feed (s.2.clock + delay) data s
  | .elapse n, s => (s.1, s.2.sleep n)

/-- The bytes that are fed. -/
def bytes : Arrival → Bytes
  | .feed _ data => data
  | .elapse _ => []

end Arrival

/-- Received bytes that were not released, and those on their way. -/
def unread (s : Link × Host δ) : Bytes := (intake s).unread

/-- A receiving link whose peer stays connected. -/
structure Connected (s : Link × Host δ) : Prop where
  receives : Receives s
  stays : (arriving s).Stays

variable {s t : Link × Host δ} {i : Intake}

theorem buffered_prefix_unread (s : Link × Host δ) : s.1.buffered <+: unread s :=
  List.prefix_append _ _

/-- A link over pipes that was turned on is connected as long as nobody closes the pipe. -/
theorem connected_pipe {p : Pipe} {on : Bool} {host : Host δ} (hrx : p.rx ≠ [])
    (hon : p.enabled = true) (hstays : (host.files.queue p.rx).Stays) :
    Connected (⟨.pipe p, false, on⟩, host) := ⟨.pipe hrx hon, hstays⟩

theorem Connected.alignment_le_bufferSize (h : Connected s) : alignment ≤ s.1.bufferSize := by
  obtain ⟨⟨⟩, -⟩ := h <;> exact of_decide_eq_true rfl

theorem Becomes.connected (h : Becomes s t i) (hi : i.stream.Stays) : Connected t := by
  have hstream : arriving t = i.stream := congrArg Intake.stream h.intake
  exact ⟨h.receives, hstream ▸ hi⟩

theorem Becomes.buffered (h : Becomes s t i) : t.1.buffered = i.buffer :=
  congrArg Intake.buffer h.intake

theorem Becomes.unread (h : Becomes s t i) : Link.unread t = i.unread :=
  congrArg Intake.unread h.intake

/-- What is fed comes behind the unread bytes. -/
theorem Connected.arrival (h : Connected s) (a : Arrival) :
    Connected (a.apply s) ∧ (a.apply s).1.buffered = s.1.buffered ∧
      unread (a.apply s) = unread s ++ a.bytes := by
  cases a with
  | feed delay data =>
    have hfeed := becomes_feed h.receives (s.2.clock + delay) data
    refine ⟨hfeed.connected (h.stays.feed _ data), hfeed.buffered, hfeed.unread.trans ?_⟩
    rw [Intake.unread, Stream.pending_feed, ← List.append_assoc]
    rfl
  | elapse n =>
    have hsleep := becomes_sleep h.receives n
    exact ⟨hsleep.connected h.stays, hsleep.buffered,
      hsleep.unread.trans (List.append_nil _).symm⟩

variable [Driver δ]

/-- A wait shows all buffered bytes, at least a word, or times out with less than a word. -/
theorem Connected.wait (h : Connected s) (timeout : Option Nat) :
    ∃ answer t, (Link.wait timeout).exec s = (answer, t) ∧ Connected t ∧
      s.1.buffered <+: t.1.buffered ∧ unread t = unread s ∧
      ((answer = .ok t.1.buffered ∧ alignment ≤ t.1.buffered.length) ∨
        answer = .error .timeout ∧ t.1.buffered.length < alignment) := by
  obtain ⟨t, hexec, ht⟩ := becomes_wait h.receives timeout
  let deadline := timeout.map (s.2.clock + ·)
  obtain ⟨hcollects, hwindow⟩ := (intake s).collects_wait s.1.bufferSize deadline
  obtain ⟨hanswer, hstays⟩ :=
    Intake.wait_of_stays h.alignment_le_bufferSize deadline (i := intake s) h.stays
  have htimeout := @Intake.buffer_wait_of_timeout (intake s) s.1.bufferSize
    h.alignment_le_bufferSize deadline h.stays
  refine ⟨_, t, hexec, ht.connected hstays, ht.buffered ▸ hcollects.buffer,
    ht.unread.trans hcollects.unread, ?_⟩
  rw [ht.buffered]
  rcases hanswer with ⟨data, hdata⟩ | he
  · obtain ⟨hbuffer, hword⟩ := hwindow data hdata
    exact .inl ⟨hbuffer ▸ hdata, hbuffer ▸ hword⟩
  · exact .inr ⟨he, htimeout he⟩

/-- A release takes buffered bytes from the front of the unread ones. -/
theorem Connected.acknowledge (h : Connected s) {n : Nat} (hn : n ≤ s.1.buffered.length) :
    ∃ t, (Link.acknowledge n).exec s = (.ok (), t) ∧ Connected t ∧
      t.1.buffered = s.1.buffered.drop n ∧ unread t = (unread s).drop n := by
  obtain ⟨t, hexec, ht⟩ := becomes_acknowledge h.receives n
  refine ⟨t, hexec, ht.connected h.stays, ht.buffered, ht.unread.trans ?_⟩
  exact (List.drop_append_of_le_length hn).symm

end Link

end DetectorLink
