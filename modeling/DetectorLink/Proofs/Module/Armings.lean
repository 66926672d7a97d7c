import DetectorLink.Proofs.Module.Timer

/-!
# What becomes of an armed callback

A timer is used by those who schedule and cancel, by its worker, by the callback that returns, and
by whoever lets go of it, in any order. Every arming of a callback gets a number, and the numbers
are written down again when a callback is removed, run or discarded. Each number is found in one
place only, so that an arming ends once or still waits.
-/

namespace DetectorLink

/-- A callback with the number of its arming. -/
structure Numbered (κ : Type) where
  /-- Number of the arming. -/
  number : Nat
  /-- The callback. -/
  callback : κ
  deriving DecidableEq, Repr

/-- A timer with what became of the callbacks that were armed. -/
structure Armings (κ : Type) where
  /-- The timer. -/
  timer : Timer (Numbered κ)
  /-- How often a callback was armed, by a schedule or by itself. -/
  count : Nat
  /-- Armings that a cancel removed and said so. -/
  cancelled : List Nat
  /-- Armings of which the worker ran the callback. -/
  ran : List Nat
  /-- Armings that were given up with the timer. -/
  discarded : List Nat

namespace Armings

variable {κ : Type}

/-- Nothing was armed. -/
def start : Armings κ := ⟨.idle, 0, [], [], []⟩

/-- Something that happens. -/
inductive Event (κ : Type) where
  /-- Somebody schedules a callback. -/
  | schedule (now delay : Nat) (callback : κ)
  /-- Somebody cancels. -/
  | cancel
  /-- The worker takes the pending callback if it is due. -/
  | take (now : Nat)
  /-- The running callback returns, perhaps asking to be armed again. -/
  | finish (now : Nat) (callback : κ) (rearm : Option Nat)
  /-- The timer is dropped. -/
  | close

variable (a : Armings κ)

/-- The arming of which the callback is pending, if there is one. -/
def waiting : List Nat := (a.timer.pending.map (·.callback.number)).toList

/-- What happens in an event. A callback that does not run cannot return. -/
def step : Event κ → Armings κ
  | .schedule now delay callback =>
    match a.timer.schedule now delay ⟨a.count, callback⟩ with
    | (true, timer) => { a with timer, count := a.count + 1 }
    | (false, timer) => { a with timer }
  | .cancel =>
    match a.timer.cancel with
    | (true, timer) => { a with timer, cancelled := a.cancelled ++ a.waiting }
    | (false, timer) => { a with timer }
  | .take now =>
    match a.timer.takeDue? now with
    | some (callback, timer) => { a with timer, ran := a.ran ++ [callback.number] }
    | none => a
  | .finish now callback rearm =>
    let timer := a.timer.finish now ⟨a.count, callback⟩ rearm
    -- a callback was armed again if one is pending now and none was before
    let armed := a.timer.pending.isNone && timer.pending.isSome
    if a.timer.firing.isSome then { a with timer, count := a.count + armed.toNat } else a
  | .close => { a with timer := a.timer.close, discarded := a.discarded ++ a.waiting }

/-- What happens in events, one after the other. -/
def run (events : List (Event κ)) : Armings κ := events.foldl step a

/-- An arming was removed, run or discarded. -/
def Ended (n : Nat) : Prop := n ∈ a.cancelled ∨ n ∈ a.ran ∨ n ∈ a.discarded

instance (n : Nat) : Decidable (a.Ended n) := inferInstanceAs (Decidable (_ ∨ _))

/-- In how many places an arming is found. -/
def places (n : Nat) : Nat :=
  a.cancelled.count n + a.ran.count n + a.discarded.count n + a.waiting.count n

/-- Every arming is found in one place, and nothing else is found. -/
def Sound : Prop := ∀ n, a.places n = if n < a.count then 1 else 0

variable {a}

theorem sound_start : (start : Armings κ).Sound := fun _ ↦ rfl

/-- An arming waits while it has not ended. -/
theorem Sound.mem_waiting_iff (hs : a.Sound) {n : Nat} :
    n ∈ a.waiting ↔ n < a.count ∧ ¬a.Ended n := by
  have h := hs n
  rw [places] at h
  rw [Ended, ← List.count_pos_iff, ← List.count_pos_iff, ← List.count_pos_iff, ← List.count_pos_iff]
  split at h <;> omega

/-- Nothing else than an arming is found anywhere. -/
theorem Sound.lt_count (hs : a.Sound) {n : Nat} (hn : a.Ended n ∨ n ∈ a.waiting) : n < a.count := by
  have h := hs n
  rw [places] at h
  rw [Ended, ← List.count_pos_iff, ← List.count_pos_iff, ← List.count_pos_iff,
    ← List.count_pos_iff] at hn
  split at h <;> omega

theorem sound_schedule (hs : a.Sound) (now delay : Nat) (callback : κ) :
    (a.step (.schedule now delay callback)).Sound := by
  rcases a.timer.schedule_cases now delay ⟨a.count, callback⟩ with ⟨hp, _, h⟩ | ⟨_, h⟩
  · -- nothing was pending, so the new number is the only one that waits
    intro n
    have hn := hs n
    simp only [places, waiting, hp, Option.map_none, Option.toList_none, List.count_nil] at hn
    simp only [step, h, places, waiting, Option.map_some, Option.toList_some,
      List.count_singleton, beq_iff_eq]
    split at hn <;> split <;> split <;> omega
  · simp only [step, h]
    exact hs

theorem sound_cancel (hs : a.Sound) : (a.step .cancel).Sound := by
  rcases a.timer.cancel_cases with ⟨armed, hp, h⟩ | ⟨_, h⟩
  · intro n
    simp only [step, h]
    refine Eq.trans ?_ (hs n)
    simp only [places, waiting, List.count_append, Option.map_none, Option.toList_none,
      List.count_nil]
    omega
  · simp only [step, h]
    exact hs

theorem sound_take (hs : a.Sound) (now : Nat) : (a.step (.take now)).Sound := by
  rcases a.timer.takeDue?_cases now with h | ⟨armed, hp, _, _, h⟩
  · simp only [step, h]
    exact hs
  · intro n
    simp only [step, h]
    refine Eq.trans ?_ (hs n)
    simp only [places, waiting, hp, List.count_append, Option.map_none, Option.map_some,
      Option.toList_none, Option.toList_some, List.count_nil]
    omega

theorem sound_finish (hs : a.Sound) (now : Nat) (callback : κ) (rearm : Option Nat) :
    (a.step (.finish now callback rearm)).Sound := by
  by_cases hf : a.timer.firing.isSome
  · simp only [step, hf, ite_true]
    rcases a.timer.finish_cases now ⟨a.count, callback⟩ rearm with ⟨delay, _, _, hp, _, h⟩ | h
    · intro n
      have hn := hs n
      simp only [places, waiting, hp, Option.map_none, Option.toList_none, List.count_nil] at hn
      simp only [h, hp, places, waiting, Option.map_some, Option.toList_some, List.count_singleton,
        beq_iff_eq, Option.isNone_none, Option.isSome_some, Bool.and_self, Bool.toNat_true]
      split at hn <;> split <;> split <;> omega
    · -- what was pending stays so, and is not counted again
      have hcount : (a.timer.pending.isNone && a.timer.pending.isSome).toNat = 0 := by
        cases a.timer.pending <;> rfl
      simp only [h, hcount]
      exact hs
  · simp only [step, hf]
    exact hs

theorem sound_close (hs : a.Sound) : (a.step .close).Sound := by
  intro n
  refine Eq.trans ?_ (hs n)
  simp only [step, Timer.close, places, waiting, List.count_append, Option.map_none,
    Option.toList_none, List.count_nil]
  omega

/-- Every event keeps armings in one place each. -/
theorem sound_step (hs : a.Sound) (event : Event κ) : (a.step event).Sound := by
  cases event with
  | schedule now delay callback => exact sound_schedule hs now delay callback
  | cancel => exact sound_cancel hs
  | take now => exact sound_take hs now
  | finish now callback rearm => exact sound_finish hs now callback rearm
  | close => exact sound_close hs

/-- Any events keep armings in one place each. -/
theorem sound_run (hs : a.Sound) (events : List (Event κ)) : (a.run events).Sound := by
  induction events generalizing a with
  | nil => exact hs
  | cons event rest ih => exact ih (sound_step hs event)

/-- A timer goes when it is dropped, and only then. -/
theorem closed_step (event : Event κ) :
    (a.step event).timer.closed = true ↔ a.timer.closed = true ∨ event = .close := by
  cases event with
  | schedule now delay callback =>
    rcases a.timer.schedule_cases now delay ⟨a.count, callback⟩ with ⟨_, _, h⟩ | ⟨_, h⟩ <;>
      simp [step, h]
  | cancel => rcases a.timer.cancel_cases with ⟨_, _, h⟩ | ⟨_, h⟩ <;> simp [step, h]
  | take now =>
    rcases a.timer.takeDue?_cases now with h | ⟨_, _, _, _, h⟩ <;> simp [step, h]
  | finish now callback rearm =>
    by_cases hf : a.timer.firing.isSome <;> simp [step, hf, Timer.closed_finish]
  | close => simp [step, Timer.close]

theorem closed_run (events : List (Event κ)) :
    (a.run events).timer.closed = true ↔ a.timer.closed = true ∨ .close ∈ events := by
  induction events generalizing a with
  | nil => simp [run]
  | cons event rest ih =>
    show ((a.step event).run rest).timer.closed = true ↔ _
    rw [ih, closed_step, List.mem_cons, or_assoc, eq_comm (a := event)]

/-- Nothing is pending once every arming has ended. -/
theorem Sound.pending_eq_none_iff (hs : a.Sound) :
    a.timer.pending = none ↔ ∀ n < a.count, a.Ended n := by
  have hw : a.timer.pending = none ↔ a.waiting = [] := by
    rw [waiting, Option.toList_eq_nil_iff, Option.map_eq_none_iff]
  rw [hw, List.eq_nil_iff_forall_not_mem]
  constructor
  · intro h n hn
    exact Decidable.not_not.mp fun he ↦ h n (hs.mem_waiting_iff.mpr ⟨hn, he⟩)
  · intro h n hn
    obtain ⟨hlt, he⟩ := hs.mem_waiting_iff.mp hn
    exact he (h n hlt)

/-- No two armings wait. -/
theorem Sound.eq_of_not_ended (hs : a.Sound) {m n : Nat} (hm : m < a.count) (hn : n < a.count)
    (hm' : ¬a.Ended m) (hn' : ¬a.Ended n) : m = n := by
  have h := hs.mem_waiting_iff.mpr ⟨hm, hm'⟩
  have h' := hs.mem_waiting_iff.mpr ⟨hn, hn'⟩
  rw [waiting, Option.mem_toList] at h h'
  exact Option.some.inj (h.symm.trans h')

/-- After any events: each arming of a callback was removed by one cancel that said so and never
run, or was run once, or was discarded with the timer, or is pending; nothing else is found among
these; at most one is pending. A schedule is accepted exactly when none is and the timer was not
dropped. A cancel answers exactly so when it removed the pending one, and else leaves it. -/
theorem run_armings (events : List (Event κ)) :
    let a := start.run events
    (∀ n < a.count,
      a.cancelled.count n + a.ran.count n + a.discarded.count n + a.waiting.count n = 1) ∧
    (∀ n, a.Ended n ∨ n ∈ a.waiting → n < a.count) ∧
    (∀ m n, m < a.count → n < a.count → ¬a.Ended m → ¬a.Ended n → m = n) ∧
    (a.timer.pending = none ↔ ∀ n < a.count, a.Ended n) ∧
    (∀ now delay callback, (a.timer.schedule now delay callback).1 = true ↔
      a.timer.pending = none ∧ .close ∉ events) ∧
    (a.timer.cancel.1 = true ↔ a.timer.pending ≠ none ∧ a.timer.cancel.2.pending = none) ∧
    (a.timer.cancel.1 = true → ∃ n, a.waiting = [n] ∧
      (a.step .cancel).cancelled = a.cancelled ++ [n]) := by
  intro a
  have hs : a.Sound := sound_run sound_start events
  have hclosed : a.timer.closed = false ↔ .close ∉ events := by
    rw [← Bool.not_eq_true, closed_run]
    exact not_congr (or_iff_right nofun)
  refine ⟨?_, ?_, ?_, hs.pending_eq_none_iff, ?_, ?_, ?_⟩
  · intro n hn
    exact (hs n).trans (ite_cond_eq_true _ _ (eq_true hn))
  · intro n hn
    exact hs.lt_count hn
  · intro m n hm hn hm' hn'
    exact hs.eq_of_not_ended hm hn hm' hn'
  · intro now delay callback
    rw [← hclosed]
    rcases a.timer.schedule_cases now delay callback with ⟨hp, hc, h⟩ | ⟨hn, h⟩
    · rw [h]
      exact iff_of_true rfl ⟨hp, hc⟩
    · rw [h]
      exact iff_of_false Bool.false_ne_true hn
  · rcases a.timer.cancel_cases with ⟨armed, hp, h⟩ | ⟨hp, h⟩
    · rw [h, hp]
      exact iff_of_true rfl ⟨nofun, rfl⟩
    · rw [h, hp]
      exact iff_of_false Bool.false_ne_true fun hne ↦ hne.1 rfl
  · intro hc
    rcases a.timer.cancel_cases with ⟨armed, hp, h⟩ | ⟨hp, h⟩
    · refine ⟨armed.callback.number, ?_, ?_⟩
      · rw [waiting, hp]
        rfl
      · simp only [step, h, waiting, hp, Option.map_some, Option.toList_some]
    · rw [h] at hc
      contradiction

end Armings

end DetectorLink
