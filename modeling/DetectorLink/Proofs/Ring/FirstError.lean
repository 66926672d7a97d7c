import DetectorLink.Proofs.Ring.Queue
import DetectorLink.Ring.Direct

/-!
# The first error of a ring

A ring keeps the first error that is reported to it, by its producer or by a push that finds it
full, and every wait from then on returns that error, whatever is pending. A direct ring keeps the
first failure of its source's waits and asks the source no more after it. A failed release is
handed to the caller and not kept: the next wait asks the source again.
-/

namespace DetectorLink

/-! ### Rings with memory of their own -/

namespace Ring

variable {r : Ring} {data : Bytes} {e : LinkError}

/-- What an action reports to a ring: the error that the producer records, or the overflow of a push
of a unit or more into a full ring. -/
def Action.report? (r : Ring) : Action → Option LinkError
  | .push data => if alignment ≤ data.length ∧ r.isFull = true then some .overflow else none
  | .fail e => some e
  | .wait _ | .consume _ => none

/-- There are whole units just where there is one. -/
theorem alignDown_ne_zero_iff (n : Nat) : alignDown n ≠ 0 ↔ alignment ≤ n := by
  simp only [alignDown, alignment]
  omega

/-- The first error wins. -/
theorem error_setError (r : Ring) (e : LinkError) :
    (r.setError e).error = r.error.or (some e) := by
  rw [setError, Option.orElse_eq_or]

/-- A push of a unit or more into a full ring accepts nothing and moves nothing. -/
theorem push_of_full (h : r.WellFormed) (hd : alignment ≤ data.length) (hf : r.isFull = true) :
    r.push data = (0, r.setError .overflow) := by
  have hunits : alignDown data.length ≠ 0 := (alignDown_ne_zero_iff _).mpr hd
  have hfree : r.index.free = 0 := (RingIndex.isFull_iff h.offsets).mp hf
  have haccepts : r.accepts data.length = 0 := by rw [accepts, hfree, Nat.min_zero]
  simp only [push, hunits, haccepts, ite_false, ite_true]

/-- A push reports an overflow or nothing. -/
theorem error_push (h : r.WellFormed) (data : Bytes) :
    (r.push data).2.error = r.error.or (Action.report? r (.push data)) := by
  by_cases hfull : alignment ≤ data.length ∧ r.isFull = true
  · rw [push_of_full h hfull.1 hfull.2, error_setError, Action.report?,
      ite_cond_eq_true _ _ (eq_true hfull)]
  · rw [Action.report?, ite_cond_eq_false _ _ (eq_false hfull), Option.or_none]
    rcases push_cases r data with ⟨_, hp⟩ | ⟨hunits, hfree, _⟩ | ⟨haccepts, hp⟩
    · rw [hp]
    · exact absurd ⟨(alignDown_ne_zero_iff _).mp hunits,
        (RingIndex.isFull_iff h.offsets).mpr hfree⟩ hfull
    · refine error_push_of_accepted ?_
      rwa [hp]

namespace History

variable {size : Nat} {h : History}

/-- What a run of actions reports. -/
def reports (h : History) : List Action → List LinkError
  | [] => []
  | action :: rest => (action.report? h.ring).toList ++ (h.step action).reports rest

/-- An action adds its report. -/
theorem error_step (hs : h.Sound size) (action : Action) :
    (h.step action).ring.error = h.ring.error.or (action.report? h.ring) := by
  cases action with
  | push data => exact error_push hs.ring data
  | fail e => exact error_setError h.ring e
  | wait timeout => exact Option.or_none.symm
  | consume n => exact Option.or_none.symm

/-- The error after a run is that before it, or else the first one reported. -/
theorem error_run (hs : h.Sound size) (actions : List Action) :
    (h.run actions).ring.error = h.ring.error.or (h.reports actions).head? := by
  induction actions generalizing h with
  | nil => exact Option.or_none.symm
  | cons action rest ih =>
    have hrest : ((h.step action).run rest).ring.error = _ := ih (sound_step hs action)
    calc ((h.step action).run rest).ring.error
      _ = (h.ring.error.or (action.report? h.ring)).or ((h.step action).reports rest).head? := by
        rw [hrest, error_step hs]
      _ = h.ring.error.or (h.reports (action :: rest)).head? := by
        rw [Option.or_assoc, reports, List.head?_append, Option.head?_toList]

/-- A ring of a given size to which errors were reported. -/
structure KeepsFirst (size : Nat) (reported : List LinkError) (h : History) : Prop where
  /-- The first of them is recorded. -/
  error : h.ring.error = reported.head?
  /-- A push records an overflow if it has a unit or more, finds the ring full and no error is
  recorded, and otherwise changes no error. -/
  push : ∀ data, (h.ring.push data).2.error =
    if alignment ≤ data.length ∧ h.ring.isFull = true ∧ h.ring.error = none then some .overflow
    else h.ring.error
  /-- A push into a full ring accepts nothing and moves no offset. -/
  full : ∀ data, alignment ≤ data.length → h.ring.isFull = true →
    (h.ring.push data).1 = 0 ∧ (h.ring.push data).2.index = h.ring.index
  /-- Without an error a wait fails with a timeout at most. -/
  wait : h.ring.error = none → ∀ timeout e,
    ((Ring.source.wait timeout).exec h.ring).1 = .error e → e = .timeout
  /-- An error is what every wait returns, whatever is done meanwhile. -/
  later : ∀ e, h.ring.error = some e → ∀ more timeout,
    (Ring.source.wait timeout).exec (h.run more).ring = (.error e, (h.run more).ring)
  /-- The offsets lie in the ring on unit boundaries. -/
  offsets : (h.ring.index.producer < size ∧ h.ring.index.producer % alignment = 0) ∧
    h.ring.index.consumer < size ∧ h.ring.index.consumer % alignment = 0

theorem keepsFirst_run (hr : Ring.create size = .ok r) (actions : List Action) :
    ((start r).run actions).KeepsFirst size ((start r).reports actions) := by
  have hs : ((start r).run actions).Sound size := sound_run (sound_start hr) actions
  have hnone : (start r).ring.error = none := by
    obtain ⟨_, _, rfl⟩ := create_eq_ok_iff.mp hr
    rfl
  have herror := error_run (sound_start hr) actions
  rw [hnone, Option.none_or] at herror
  generalize (start r).run actions = h at hs herror ⊢
  have hsize : h.ring.index.size = size := hs.size
  have hi := hs.ring.offsets
  refine ⟨herror, fun data ↦ ?_, fun data hd hf ↦ ?_, fun hn timeout e he ↦ ?_,
    fun e he more timeout ↦ ?_, ⟨hsize ▸ hi.producer_lt, hi.producer_mod⟩,
    hsize ▸ hi.consumer_lt, hi.consumer_mod⟩
  · rw [error_push hs.ring, Action.report?]
    cases h.ring.error <;> simp
  · rw [push_of_full hs.ring hd hf]
    exact ⟨rfl, rfl⟩
  · have hwait : h.ring.wait = .error e := he
    rw [wait_eq hs.ring, hn] at hwait
    dsimp only at hwait
    split at hwait
    · exact (Except.error.inj hwait).symm
    · contradiction
  · have hlater : (h.run more).ring.error = some e := by rw [error_run hs, he, Option.some_or]
    have hwait : (h.run more).ring.wait = .error e := by
      rw [wait_eq (sound_run hs more).ring, hlater]
    exact congrArg (·, (h.run more).ring) hwait

end History

end Ring

/-! ### Rings without memory of their own -/

namespace DirectRing

variable {σ : Type}

/-- A call of a source with its answer. -/
inductive Call where
  /-- The source was asked for a window. -/
  | waited (answer : Except LinkError Bytes)
  /-- The source was asked to release bytes. -/
  | released (n : Nat) (answer : Except LinkError Unit)

/-- The error of an answer, unless it is a timeout. -/
def failure? {α : Type} : Except LinkError α → Option LinkError
  | .ok _ | .error .timeout => none
  | .error e => some e

/-- The failure of a wait. -/
def Call.waitFailure? : Call → Option LinkError
  | .waited answer => DirectRing.failure? answer
  | .released .. => none

/-- The failure of a call. -/
def Call.failure? : Call → Option LinkError
  | .waited answer => DirectRing.failure? answer
  | .released _ answer => DirectRing.failure? answer

/-- A source of which every call is written down. -/
def written (inner : Source σ) : Source (σ × List Call) where
  wait timeout := .ofFun fun (s, calls) ↦
    let (answer, s) := (inner.wait timeout).exec s
    (answer, (s, calls ++ [.waited answer]))
  release n := .ofFun fun (s, calls) ↦
    let (answer, s) := (inner.release n).exec s
    (answer, (s, calls ++ [.released n answer]))

/-- What happens to a direct ring and its source. -/
inductive Use (σ : Type) where
  /-- The reader waits for a window. -/
  | wait (timeout : Option Nat)
  /-- The reader releases bytes. -/
  | consume (n : Nat)
  /-- The source changes by itself. -/
  | outside (change : σ → σ)

/-- A direct ring, and a source of which every call is written down. -/
abbrev Overheard (σ : Type) := DirectRing × (σ × List Call)

/-- The calls written down. -/
def calls (t : Overheard σ) : List Call := t.2.2

/-- Go on with a use. -/
def step (inner : Source σ) (t : Overheard σ) : Use σ → Overheard σ
  | .wait timeout => ((wait (written inner) timeout).exec t).2
  | .consume n => ((consume (written inner) n).exec t).2
  | .outside change => (t.1, (change t.2.1, t.2.2))

/-- Go on with uses, one after the other. -/
def run (inner : Source σ) (t : Overheard σ) (uses : List (Use σ)) : Overheard σ :=
  uses.foldl (step inner) t

variable {inner : Source σ} {t : Overheard σ} {e : LinkError}

theorem error_present {d : DirectRing} (hd : d.error = none) (answer : Except LinkError Bytes) :
    (d.present answer).2.error = failure? answer := by
  rcases answer with e | data
  · cases e <;> first | exact hd | rfl
  · exact hd

/-- With an error a wait returns it and asks nothing of the source. -/
theorem exec_wait_of_error {source : Source (σ × List Call)} (h : t.1.error = some e)
    (timeout : Option Nat) : (wait source timeout).exec t = (.error e, t) := by
  simp only [wait, LinkM.exec_ofFun, h]

/-- Without an error a wait asks the source, once. -/
theorem exec_wait_of_none (h : t.1.error = none) (timeout : Option Nat) :
    let asked := (inner.wait timeout).exec t.2.1
    (wait (written inner) timeout).exec t = ((t.1.present asked.1).1,
      ((t.1.present asked.1).2, (asked.2, calls t ++ [.waited asked.1]))) := by
  simp only [wait, LinkM.exec_ofFun, h]
  rfl

/-- A consume has bytes released and changes no error. -/
theorem exec_consume (inner : Source σ) (t : Overheard σ) (n : Nat) :
    let after := ((consume (written inner) n).exec t).2
    after.1.error = t.1.error ∧ ∃ k answer, calls after = calls t ++ [.released k answer] := by
  obtain ⟨d, s, before⟩ := t
  let k := min (alignDown n) d.window
  rcases hasked : (inner.release k).exec s with ⟨e | _, s'⟩
  · have hexec : (consume (written inner) n).exec (d, (s, before)) =
        (.error e, (d, (s', before ++ [.released k (.error e)]))) := by
      simp only [consume, written, LinkM.exec_ofFun, k] at hasked ⊢
      rw [hasked]
    rw [hexec]
    exact ⟨rfl, k, .error e, rfl⟩
  · have hexec : (consume (written inner) n).exec (d, (s, before)) = (.ok (),
        ({ d with window := d.window - k }, (s', before ++ [.released k (.ok ())]))) := by
      simp only [consume, written, LinkM.exec_ofFun, k] at hasked ⊢
      rw [hasked]
    rw [hexec]
    exact ⟨rfl, k, .ok (), rfl⟩

/-- What a use does to the error and to the calls: nothing, a release, or a wait, which is asked of
the source only if there is no error and of which the failure is kept. -/
theorem step_cases (inner : Source σ) (t : Overheard σ) (use : Use σ) :
    let after := step inner t use
    (after.1.error = t.1.error ∧
      (calls after = calls t ∨ ∃ k answer, calls after = calls t ++ [.released k answer])) ∨
    (t.1.error = none ∧
      ∃ answer, after.1.error = failure? answer ∧ calls after = calls t ++ [.waited answer]) := by
  cases use with
  | wait timeout =>
    cases he : t.1.error with
    | some e =>
      refine .inl ?_
      rw [step, exec_wait_of_error he]
      exact ⟨he, .inl rfl⟩
    | none =>
      refine .inr ⟨rfl, ((inner.wait timeout).exec t.2.1).1, ?_⟩
      rw [step, exec_wait_of_none he]
      exact ⟨error_present he _, rfl⟩
  | consume n =>
    obtain ⟨herror, hcalls⟩ := exec_consume inner t n
    exact .inl ⟨herror, .inr hcalls⟩
  | outside change => exact .inl ⟨rfl, .inl rfl⟩

/-- The recorded error is that of the first wait that failed. -/
theorem error_run_eq (h : t.1.error = (calls t).findSome? Call.waitFailure?) (uses : List (Use σ)) :
    (run inner t uses).1.error = (calls (run inner t uses)).findSome? Call.waitFailure? := by
  induction uses generalizing t with
  | nil => exact h
  | cons use rest ih =>
    refine ih ?_
    rcases step_cases inner t use with ⟨herror, hcalls | ⟨k, answer, hcalls⟩⟩ |
      ⟨hnone, answer, herror, hcalls⟩
    · rw [herror, hcalls, h]
    · rw [herror, hcalls, h, List.findSome?_append, List.findSome?_singleton, Call.waitFailure?,
        Option.or_none]
    · rw [herror, hcalls, List.findSome?_append, List.findSome?_singleton, ← h, hnone]
      rfl

/-- A recorded error stays. -/
theorem error_run_of_some (h : t.1.error = some e) (uses : List (Use σ)) :
    (run inner t uses).1.error = some e := by
  induction uses generalizing t with
  | nil => exact h
  | cons use rest ih =>
    refine ih ?_
    rcases step_cases inner t use with ⟨herror, -⟩ | ⟨hnone, -⟩
    · rw [herror, h]
    · rw [h] at hnone
      contradiction

/-- From now on every wait returns an error and asks nothing of the source, whatever happens. -/
def Stuck (inner : Source σ) (e : LinkError) (t : Overheard σ) : Prop :=
  ∀ uses timeout,
    (wait (written inner) timeout).exec (run inner t uses) = (.error e, run inner t uses)

/-- Just a recorded error makes a ring stuck. -/
theorem stuck_iff : Stuck inner e t ↔ t.1.error = some e := by
  constructor
  · intro h
    have hnow := h [] none
    change (wait (written inner) none).exec t = (.error e, t) at hnow
    cases he : t.1.error with
    | none =>
      rw [exec_wait_of_none he] at hnow
      have hcalls := congrArg (·.2.2.2.length) hnow
      simp [calls] at hcalls
    | some kept =>
      rw [exec_wait_of_error he] at hnow
      exact congrArg some (Except.error.inj (congrArg Prod.fst hnow))
  · exact fun h uses timeout ↦ exec_wait_of_error (error_run_of_some h uses) timeout

/-- A direct ring whose source was called. -/
structure KeepsFirst (inner : Source σ) (t : Overheard σ) : Prop where
  /-- The recorded error is that of the first wait that failed. -/
  error : t.1.error = (calls t).findSome? Call.waitFailure?
  /-- Without an error a wait asks the source, once. -/
  asks : t.1.error = none → ∀ timeout, calls ((wait (written inner) timeout).exec t).2 =
    calls t ++ [.waited ((inner.wait timeout).exec t.2.1).1]
  /-- The first wait that failed is what every later wait returns. -/
  later : ∀ e, (calls t).findSome? Call.waitFailure? = some e → Stuck inner e t
  /-- The first call that failed is what every later wait returns only if its error is that of the
  first wait that failed too: no release failed with another error before. -/
  first : ∀ e, (calls t).findSome? Call.failure? = some e →
    (Stuck inner e t ↔ (calls t).findSome? Call.waitFailure? = some e)

theorem keepsFirst_run (inner : Source σ) (capacity : Nat) (s : σ) (uses : List (Use σ)) :
    KeepsFirst inner (run inner (ofSize capacity, (s, [])) uses) := by
  have hstart : (ofSize capacity).error = [].findSome? Call.waitFailure? := rfl
  have herror : (run inner (ofSize capacity, (s, [])) uses).1.error = _ :=
    error_run_eq hstart uses
  generalize run inner (ofSize capacity, (s, [])) uses = t at herror ⊢
  refine ⟨herror, fun hnone timeout ↦ ?_, fun e h ↦ ?_, fun e _ ↦ ?_⟩
  · rw [exec_wait_of_none hnone]
    rfl
  · rw [stuck_iff, herror, h]
  · rw [stuck_iff, herror]

end DirectRing

/-- The first errors of rings. A ring with memory of its own keeps the first error reported to it,
and a direct ring the first failure of its source's waits; every later wait returns it, and a
direct ring does not call its source for that. -/
theorem firstError_stays {size : Nat} {r : Ring} (hr : Ring.create size = .ok r)
    (actions : List Ring.Action) {σ : Type} (inner : Source σ) (capacity : Nat) (s : σ)
    (uses : List (DirectRing.Use σ)) :
    ((Ring.History.start r).run actions).KeepsFirst size
      ((Ring.History.start r).reports actions) ∧
    DirectRing.KeepsFirst inner
      (DirectRing.run inner (DirectRing.ofSize capacity, (s, [])) uses) :=
  ⟨Ring.History.keepsFirst_run hr actions, DirectRing.keepsFirst_run inner capacity s uses⟩

/-- A ring that was full before its producer was gone keeps the overflow. A direct ring of which a
release failed goes on asking its source. -/
theorem firstError_stays_failed_release :
    let r : Ring := ⟨.empty 8, .empty, none⟩
    let h := (Ring.History.start r).run
      [.push [1, 2, 3, 4], .push [5, 6, 7, 8], .fail .shutdown, .consume 4]
    let inner : Source Bytes := ⟨fun _ ↦ .read, fun _ ↦ .fail .stall⟩
    let t := DirectRing.run inner (.ofSize 8, ([1, 2, 3, 4], [])) [.wait none, .consume 4]
    Ring.create 8 = .ok r ∧ h.ring.used = 0 ∧
      (∀ more timeout, (Ring.source.wait timeout).exec (h.run more).ring =
        (.error .overflow, (h.run more).ring)) ∧
      (DirectRing.calls t).findSome? DirectRing.Call.failure? = some .stall ∧
      ¬ DirectRing.Stuck inner .stall t := by
  intro r h inner t
  have hr : Ring.create 8 = .ok r := Ring.create_eq_ok_iff.mpr ⟨by decide, by decide, rfl⟩
  obtain ⟨hring, hdirect⟩ := firstError_stays hr
    [.push [1, 2, 3, 4], .push [5, 6, 7, 8], .fail .shutdown, .consume 4] inner 8 [1, 2, 3, 4]
    [.wait none, .consume 4]
  have herror : h.ring.error = some .overflow := by decide +kernel
  have hfirst : (DirectRing.calls t).findSome? DirectRing.Call.failure? = some .stall := by
    decide +kernel
  refine ⟨hr, by decide +kernel, hring.later _ herror, hfirst, ?_⟩
  rw [hdirect.first _ hfirst]
  decide +kernel

end DetectorLink
