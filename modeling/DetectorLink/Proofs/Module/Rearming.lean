import DetectorLink.Proofs.Module.Armings

/-!
# Which callbacks are armed again

A callback that asks to be armed again is not, if it was cancelled while it ran. Whether a cancel
meant the running callback is decided by what was pending: a cancel that finds another callback
pending removes that one and leaves the running one alone.
-/

namespace DetectorLink.Armings

variable {κ : Type} {a : Armings κ}

/-- No callback returns in these events. -/
def NoneReturns (events : List (Event κ)) : Prop :=
  ∀ now callback rearm, .finish now callback rearm ∉ events

/-- Every cancel among these events, from `a` on, removes a pending callback. -/
def CancelsOthers (a : Armings κ) (events : List (Event κ)) : Prop :=
  ∀ pre post, events = pre ++ .cancel :: post → (a.run pre).timer.cancel.1 = true

theorem run_cons (event : Event κ) (events : List (Event κ)) :
    a.run (event :: events) = (a.step event).run events := rfl

theorem run_append (first second : List (Event κ)) :
    a.run (first ++ second) = (a.run first).run second := List.foldl_append

theorem cancelsOthers_nil : a.CancelsOthers [] := by
  intro pre post h
  exact absurd h.symm (List.append_ne_nil_of_right_ne_nil _ (List.cons_ne_nil _ _))

/-- The first event is a cancel that removes something, or no cancel, and the rest goes on so. -/
theorem cancelsOthers_cons (event : Event κ) (events : List (Event κ)) :
    a.CancelsOthers (event :: events) ↔
      (event = .cancel → a.timer.cancel.1 = true) ∧ (a.step event).CancelsOthers events := by
  constructor
  · intro h
    constructor
    · rintro rfl
      exact h [] events rfl
    · rintro pre post rfl
      exact h (event :: pre) post rfl
  · rintro ⟨hfirst, hrest⟩ pre post he
    cases pre with
    | nil => exact hfirst (List.cons.inj he).1
    | cons e pre =>
      obtain ⟨rfl, rfl⟩ := List.cons.inj he
      exact hrest pre post rfl

/-- A running callback runs until it returns, and is kept from being armed again by a cancel that
finds nothing pending, and by nothing else. -/
theorem step_of_firing {running : Numbered κ} (hf : a.timer.firing = some running) {event : Event κ}
    (he : ∀ now callback rearm, event ≠ .finish now callback rearm) :
    (a.step event).timer.firing = some running ∧
      ((a.step event).timer.rearmCancelled = false ↔
        a.timer.rearmCancelled = false ∧ (event = .cancel → a.timer.cancel.1 = true)) := by
  cases event with
  | schedule now delay callback =>
    rcases a.timer.schedule_cases now delay ⟨a.count, callback⟩ with ⟨_, _, h⟩ | ⟨_, h⟩ <;>
      simp [step, h, hf]
  | cancel =>
    rcases a.timer.cancel_cases with ⟨_, _, h⟩ | ⟨_, h⟩ <;> simp [step, h, hf]
  | take now =>
    rcases a.timer.takeDue?_cases now with h | ⟨_, _, hn, _⟩
    · simp [step, h, hf]
    · rw [hf] at hn
      contradiction
  | finish now callback rearm => exact absurd rfl (he now callback rearm)
  | close => simp [step, Timer.close, hf]

/-- While nothing returns the running callback stays, and may be armed again as long as every
cancel removes another one. -/
theorem run_of_firing {running : Numbered κ} (hf : a.timer.firing = some running)
    {events : List (Event κ)} (hn : NoneReturns events) :
    (a.run events).timer.firing = some running ∧
      ((a.run events).timer.rearmCancelled = false ↔
        a.timer.rearmCancelled = false ∧ a.CancelsOthers events) := by
  induction events generalizing a with
  | nil => exact ⟨hf, (and_iff_left cancelsOthers_nil).symm⟩
  | cons event rest ih =>
    have he : ∀ now callback rearm, event ≠ .finish now callback rearm := by
      rintro now callback rearm rfl
      exact hn now callback rearm List.mem_cons_self
    obtain ⟨hfirst, hcancel⟩ := step_of_firing hf he
    obtain ⟨hlast, hiff⟩ := ih hfirst fun now callback rearm h ↦
      hn now callback rearm (List.mem_cons_of_mem _ h)
    refine ⟨hlast, ?_⟩
    rw [run_cons, hiff, hcancel, cancelsOthers_cons, and_assoc]

/-- A callback that returns and asks for it is armed again, under the next number, if nobody kept it
from that and nothing is pending in a timer that is not gone; else nothing is armed. -/
theorem step_finish_of_firing {running : Numbered κ} (hf : a.timer.firing = some running)
    (now : Nat) (callback : κ) (delay : Nat) :
    let b := a.step (.finish now callback (some delay))
    (a.timer.rearmCancelled = false ∧ a.timer.pending = none ∧ a.timer.closed = false →
      b.timer.pending = some ⟨now + delay, a.count, callback⟩ ∧ b.count = a.count + 1) ∧
    (¬(a.timer.rearmCancelled = false ∧ a.timer.pending = none ∧ a.timer.closed = false) →
      b.timer.pending = a.timer.pending ∧ b.count = a.count) := by
  intro b
  have hb : b = a.step (.finish now callback (some delay)) := rfl
  simp only [step, hf, Option.isSome_some, ite_true] at hb
  constructor
  · rintro ⟨hr, hp, hc⟩
    have hfinish : a.timer.finish now ⟨a.count, callback⟩ (some delay) =
        { a.timer with firing := none, pending := some ⟨now + delay, a.count, callback⟩ } := by
      simp only [Timer.finish, hr, hp, hc, Option.isSome_none, Bool.or_self, Bool.false_eq_true,
        ite_false]
    rw [hb, hfinish, hp]
    exact ⟨rfl, rfl⟩
  · intro hn
    have hfinish : a.timer.finish now ⟨a.count, callback⟩ (some delay) =
        { a.timer with firing := none } := by
      rcases a.timer.finish_cases now ⟨a.count, callback⟩ (some delay) with
        ⟨_, _, hr, hp, hc, _⟩ | h
      · exact absurd ⟨hr, hp, hc⟩ hn
      · exact h
    rw [hb, hfinish]
    refine ⟨rfl, ?_⟩
    show a.count + (a.timer.pending.isNone && a.timer.pending.isSome).toNat = a.count
    cases a.timer.pending <;> rfl

/-- After any events the worker takes a callback, and until it returns there are any other events.
Then it still runs, and if it asks for it, it is armed again exactly when nothing is pending, the
timer was not dropped, and every cancel while it ran removed another callback that had been
scheduled meanwhile. So a cancel that found nothing pending always kept it from being armed again,
and one that found something never did. -/
theorem run_rearmed_iff (before during : List (Event κ)) (now : Nat) {running : Numbered κ}
    {rest : Timer (Numbered κ)}
    (ht : (start.run before).timer.takeDue? now = some (running, rest))
    (hd : NoneReturns during) (later : Nat) (callback : κ) (delay : Nat) :
    let taken := start.run (before ++ [.take now])
    let a := taken.run during
    let b := a.step (.finish later callback (some delay))
    let Rearms := a.timer.pending = none ∧ .close ∉ before ++ during ∧ taken.CancelsOthers during
    a.timer.firing = some running ∧
      (Rearms → b.timer.pending = some ⟨later + delay, a.count, callback⟩ ∧
        b.count = a.count + 1) ∧
      (¬Rearms → b.timer.pending = a.timer.pending ∧ b.count = a.count) := by
  intro taken a b Rearms
  have htaken : taken.timer = rest := by
    simp only [taken, run_append, run_cons, step, ht]
    rfl
  obtain ⟨hrunning, hfresh⟩ : taken.timer.firing = some running ∧
      taken.timer.rearmCancelled = false := by
    rw [htaken]
    rcases (start.run before).timer.takeDue?_cases now with h | ⟨armed, _, _, _, h⟩
    · rw [ht] at h
      contradiction
    · obtain ⟨rfl, rfl⟩ := Prod.mk.inj (Option.some.inj (ht.symm.trans h))
      exact ⟨rfl, rfl⟩
  obtain ⟨hfiring, hcancelled⟩ := run_of_firing hrunning hd
  have hclosed : a.timer.closed = false ↔ .close ∉ before ++ during := by
    have hrun : a = start.run (before ++ [.take now] ++ during) := (run_append _ _).symm
    rw [hrun, ← Bool.not_eq_true, closed_run]
    simp [start, Timer.idle]
  have hiff : Rearms ↔
      a.timer.rearmCancelled = false ∧ a.timer.pending = none ∧ a.timer.closed = false := by
    rw [hcancelled, hclosed, eq_true hfresh, true_and]
    exact and_rotate.symm
  rw [hiff]
  exact ⟨hfiring, step_finish_of_firing hfiring later callback delay⟩

/-- The callback of the first arming is cancelled while it runs, after another one was scheduled,
and is armed again all the same. -/
theorem run_rearmed_iff_scheduled_meanwhile :
    let during : List (Event String) := [.schedule 1 60000 "second", .cancel]
    let taken := start.run [.schedule 0 0 "first", .take 0]
    let a := taken.run during
    taken.timer.firing = some ⟨0, "first"⟩ ∧ NoneReturns during ∧ a.cancelled = [1] ∧
      (a.step (.finish 2 "first" (some 5))).timer.pending = some ⟨7, 2, "first"⟩ := by
  intro during taken a
  have hd : NoneReturns during := by
    intro now callback rearm h
    simp [during] at h
  have hothers : taken.CancelsOthers during := by
    rw [cancelsOthers_cons, cancelsOthers_cons]
    exact ⟨nofun, fun _ ↦ rfl, cancelsOthers_nil⟩
  obtain ⟨_, hrearmed, _⟩ := run_rearmed_iff [.schedule 0 0 "first"] during 0 rfl hd 2 "first" 5
  exact ⟨rfl, hd, rfl, (hrearmed ⟨rfl, by simp [during], hothers⟩).1⟩

end DetectorLink.Armings
