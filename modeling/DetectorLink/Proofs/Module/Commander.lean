import DetectorLink.Module.Commander
import DetectorLink.Proofs.Module.Timer

/-!
# What a step of a commander can do

One statement for each step: what it answers, and what is left of the outstanding command and of the
timer. Everything about runs of a commander is derived from these.
-/

namespace DetectorLink.Commander

variable {η σ : Type} (c : Commander η)

/-- A send is refused and changes nothing, or it makes its command the outstanding one. -/
theorem send_cases (sink : Sink σ) (now : Nat) (command : Command) (channel : UInt8)
    (payload : List UInt32) (s : σ) :
    (∃ e t, c.send sink now command channel payload s = (.error e, c, t)) ∨
    (c.outstanding = none ∧
      ∃ t, c.send sink now command channel payload s = (.ok (), c.await now command, t)) := by
  unfold send
  split
  · exact .inl ⟨_, _, rfl⟩
  · next ho =>
    split
    · exact .inl ⟨_, _, rfl⟩
    · split
      · exact .inl ⟨_, _, rfl⟩
      · exact .inr ⟨ho, _, rfl⟩

/-- A timer with nothing pending takes the callback of a command at once. -/
theorem arm_of_pending_none (hp : c.timer.pending = none) (hc : c.timer.closed = false)
    (now sequence : Nat) :
    c.arm now sequence =
      { c.timer with pending := some ⟨now + c.config.responseTimeout, sequence⟩ } := by
  rcases c.timer.schedule_cases now c.config.responseTimeout sequence with ⟨_, _, h⟩ | ⟨hn, _⟩
  · rw [arm, h]
  · exact absurd ⟨hp, hc⟩ hn

/-- A packet answers a command if it is a response that comes from the module and names it. -/
theorem answered?_eq_some_iff {c : Commander η} {packet : Packet} {command : Command} :
    c.answered? packet = some command ↔ packet.isResponse ∧
      packet.sourceAddress = c.address ∧ packet.responseType? = some command := by
  unfold answered?
  split
  · next h =>
    obtain ⟨hr, ha⟩ := Bool.and_eq_true_iff.mp h
    rw [beq_iff_eq] at ha
    exact ⟨fun he ↦ ⟨hr, ha, he⟩, fun he ↦ he.2.2⟩
  · next h =>
    constructor
    · intro he
      cases he
    · rintro ⟨hr, ha, _⟩
      exact absurd (Bool.and_eq_true_iff.mpr ⟨hr, beq_iff_eq.mpr ha⟩) h

/-- A packet wins if it answers the outstanding command while the callback is pending, and takes
both away. Any other packet at most keeps the running callback from being armed again. -/
theorem decide_cases (packet : Packet) :
    (∃ o armed, c.answered? packet = some o.command ∧ c.outstanding = some o ∧
      c.timer.pending = some armed ∧ c.decide packet = (some o.command,
        { c with outstanding := none, timer := { c.timer with pending := none } })) ∨
    (∃ b, c.decide packet = (none, { c with timer := { c.timer with rearmCancelled := b } })) := by
  unfold decide
  split
  · next answered o ha ho =>
    split
    · next he =>
      subst he
      rcases c.timer.cancel_cases with ⟨armed, hp, h⟩ | ⟨_, h⟩
      · refine .inl ⟨o, armed, ha, ho, hp, ?_⟩
        simp only [h]
      · refine .inr ⟨c.timer.rearmCancelled || c.timer.firing.isSome, ?_⟩
        simp only [h]
    · exact .inr ⟨c.timer.rearmCancelled, rfl⟩
  · exact .inr ⟨c.timer.rearmCancelled, rfl⟩

/-- The answer to the outstanding command wins while the callback is pending. -/
theorem decide_of_pending {packet : Packet} {o : Outstanding} {armed : Armed Nat}
    (ha : c.answered? packet = some o.command) (ho : c.outstanding = some o)
    (hp : c.timer.pending = some armed) : (c.decide packet).1 = some o.command := by
  simp only [decide, ha, ho, Timer.cancel, hp, Option.isSome_some, ite_true]

/-- Drawing the consequences of an answer touches the handler and the verification only. -/
theorem complete_cases [ResponseHandler η] (command : Command) (packet : Packet) :
    ∃ action handler verify, c.complete command packet =
      (.response command action, { c with handler, verify }) := ⟨_, _, _, rfl⟩

/-- The worker takes the pending callback, if it takes one. -/
theorem takeDue?_cases (now : Nat) :
    c.takeDue? now = none ∨
    (∃ armed, c.timer.pending = some armed ∧ c.timer.firing = none ∧ c.timer.closed = false ∧
      c.takeDue? now = some (armed.callback, { c with timer := { c.timer with
        pending := none, firing := some armed.callback, rearmCancelled := false } })) := by
  rcases c.timer.takeDue?_cases now with h | ⟨armed, hp, hf, hc, h⟩
  · exact .inl (by rw [takeDue?, h, Option.map_none])
  · exact .inr ⟨armed, hp, hf, hc, by rw [takeDue?, h, Option.map_some]⟩

/-- An expiry gives up the outstanding command if that has its number, and else does nothing. -/
theorem expire_cases (sequence : Nat) :
    (∃ o, c.outstanding = some o ∧ o.sequence = sequence ∧ c.expire sequence =
      (some (.timeout o.command),
        { c with outstanding := none, verify := (c.verify.apply .timeout).2 })) ∨
    ((∀ o, c.outstanding = some o → o.sequence ≠ sequence) ∧ c.expire sequence = (none, c)) := by
  unfold expire
  split
  · next o ho =>
    split
    · next he => exact .inl ⟨o, ho, he, rfl⟩
    · next he =>
      refine .inr ⟨?_, rfl⟩
      intro p hp
      rw [ho] at hp
      cases hp
      exact he
  · next ho =>
    refine .inr ⟨?_, rfl⟩
    intro o hp
    rw [ho] at hp
    contradiction

end DetectorLink.Commander
