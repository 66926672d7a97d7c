import DetectorLink.Module.Timer

/-!
# What a step of a timer can do

One statement for each step: when it does something, and what is left of the timer. Everything about
runs of a timer is derived from these.
-/

namespace DetectorLink.Timer

variable {κ : Type} (t : Timer κ)

/-- A callback is armed if none is pending and the timer is not gone. -/
theorem schedule_cases (now delay : Nat) (callback : κ) :
    (t.pending = none ∧ t.closed = false ∧ t.schedule now delay callback =
      (true, { t with pending := some ⟨now + delay, callback⟩ })) ∨
    (¬(t.pending = none ∧ t.closed = false) ∧ t.schedule now delay callback = (false, t)) := by
  rw [schedule]
  cases t.pending with
  | none =>
    cases t.closed with
    | false => exact .inl ⟨rfl, rfl, rfl⟩
    | true => exact .inr ⟨nofun, rfl⟩
  | some armed => exact .inr ⟨nofun, rfl⟩

/-- A cancel removes the pending callback. Without one it keeps the running one from being armed
again. -/
theorem cancel_cases :
    (∃ armed, t.pending = some armed ∧ t.cancel = (true, { t with pending := none })) ∨
    (t.pending = none ∧
      t.cancel = (false, { t with rearmCancelled := t.rearmCancelled || t.firing.isSome })) := by
  rw [cancel]
  cases t.pending with
  | none => exact .inr ⟨rfl, rfl⟩
  | some armed => exact .inl ⟨armed, rfl, rfl⟩

/-- The worker takes the pending callback, if it takes one. -/
theorem takeDue?_cases (now : Nat) :
    t.takeDue? now = none ∨
    (∃ armed, t.pending = some armed ∧ t.firing = none ∧ t.closed = false ∧
      t.takeDue? now = some (armed.callback,
        { t with pending := none, firing := some armed.callback, rearmCancelled := false })) := by
  unfold takeDue?
  split
  · next armed hp hf hc =>
    split
    · exact .inr ⟨armed, hp, hf, hc, rfl⟩
    · exact .inl rfl
  · exact .inl rfl

/-- A callback that returns is armed again if it asks to be, nobody prevented it, and none is
pending in a timer that is not gone. -/
theorem finish_cases (now : Nat) (callback : κ) (rearm : Option Nat) :
    (∃ delay, rearm = some delay ∧ t.rearmCancelled = false ∧ t.pending = none ∧
      t.closed = false ∧ t.finish now callback rearm =
        { t with firing := none, pending := some ⟨now + delay, callback⟩ }) ∨
    t.finish now callback rearm = { t with firing := none } := by
  unfold finish
  cases rearm with
  | none => exact .inr rfl
  | some delay =>
    dsimp only
    split
    · exact .inr rfl
    · next hn =>
      simp only [Bool.or_eq_true, not_or, Bool.not_eq_true, Option.isSome_eq_false_iff,
        Option.isNone_iff_eq_none] at hn
      obtain ⟨⟨hr, hp⟩, hc⟩ := hn
      exact .inl ⟨delay, rfl, hr, hp, hc, rfl⟩

/-- A timer that is gone stays so, and only its end makes it go. -/
theorem closed_finish (now : Nat) (callback : κ) (rearm : Option Nat) :
    (t.finish now callback rearm).closed = t.closed := by
  rcases t.finish_cases now callback rearm with ⟨_, _, _, _, _, hf⟩ | hf <;> rw [hf]

end DetectorLink.Timer
