import DetectorLink.Proofs.Dispatch.Accounts
import DetectorLink.Proofs.SharedWindow.Holders

/-!
# Handlers side by side

The handlers of a dispatch take their steps in any order, and may look at each other's work at every
step, while the producer of the ring goes on. A schedule says who is next. What it leaves is done in
the order of the handlers, so that a dispatch ends under every schedule; under the empty one it is a
dispatch of one handler after the other.

Whoever is next, as many reservations are counted as handlers are at work, and the furthest end of
what they marked is kept. So all handlers together are like a single one that marks what they mark.
-/

namespace DetectorLink.Dispatch

variable {σ τ : Type}

/-! ### Handlers in steps -/

/-- What a handler still does with its reservation, and with a state that all handlers share. -/
inductive Task (τ : Type) where
  /-- It gives the reservation back. -/
  | done
  /-- It changes the state, and goes on as the state tells it to. -/
  | work (act : τ → τ) (next : τ → Task τ)
  /-- It marks everything up to and including a packet. -/
  | mark (last : Placed) (rest : Task τ)

/-- A handler in steps. -/
abbrev Routine (τ : Type) := Reservation → Task τ

namespace Task

/-- What is marked and what becomes of the state if nobody else takes a step. -/
def alone : Task τ → τ → List Placed × τ
  | done, t => ([], t)
  | work act next, t => (next t).alone (act t)
  | mark last rest, t => (last :: (rest.alone t).1, (rest.alone t).2)

/-- Only packets of `P` are marked, whatever others do to the state. -/
def Only (P : Placed → Prop) : Task τ → Prop
  | done => True
  | work _ next => ∀ t, (next t).Only P
  | mark last rest => P last ∧ rest.Only P

/-- The packet is marked, whatever others do to the state. -/
def Surely (p : Placed) : Task τ → Prop
  | done => False
  | work _ next => ∀ t, (next t).Surely p
  | mark last rest => last = p ∨ rest.Surely p

theorem only_true (task : Task τ) : task.Only fun _ ↦ True := by
  induction task with
  | done => trivial
  | work act next ih => exact ih
  | mark last rest ih => exact ⟨trivial, ih⟩

end Task

/-- The handler that takes all its steps at once. -/
def Routine.handler (routine : Routine τ) : Handler τ := fun reservation ↦
  modifyGet (routine reservation).alone

/-! ### Handlers at work -/

/-- A window that handlers walk. -/
structure Visit (τ : Type) where
  /-- The ring that shows the window. -/
  ring : Ring
  /-- The window, with the count of those who hold it. -/
  shared : SharedWindow
  /-- The reservations that were given to handlers. -/
  given : List Reservation
  /-- The handlers that have no reservation yet. -/
  waiting : List (Routine τ)
  /-- The handlers at work, with their reservations. -/
  running : List (Reservation × Task τ)
  /-- The packets that were marked, in this order. -/
  marked : List Placed
  /-- What the handlers share. -/
  state : τ

/-- Who is next. -/
inductive Turn where
  /-- The next handler that waits gets a reservation. -/
  | start
  /-- A handler at work takes a step. -/
  | go (i : Nat)
  /-- The producer of the ring pushes bytes. -/
  | push (data : Bytes)
  /-- The producer of the ring records an error. -/
  | fail (e : LinkError)
  deriving DecidableEq, Repr

/-- What a turn does to the ring. -/
def Turn.action? : Turn → Option Ring.Action
  | push data => some (.push data)
  | fail e => some (.fail e)
  | _ => none

namespace Visit

/-- Nobody has a reservation yet. -/
def start (routines : List (Routine τ)) (window : Bytes) (s : Ring × τ) : Visit τ :=
  ⟨s.1, ⟨some window, true, 0, 0⟩, [], routines, [], [], s.2⟩

variable (v : Visit τ)

/-- Give the next handler a reservation. -/
def startNext : Visit τ :=
  match v.waiting with
  | [] => v
  | routine :: waiting =>
    match v.shared.reserve? with
    | none => { v with waiting }
    | some (reservation, shared) =>
      { v with
        shared
        given := v.given ++ [reservation]
        waiting
        running := v.running ++ [(reservation, routine reservation)] }

/-- Let a handler at work take a step. -/
def go (i : Nat) : Visit τ :=
  match v.running[i]? with
  | none => v
  | some (_, .done) =>
    { v with shared := v.shared.dropReservation, running := v.running.eraseIdx i }
  | some (reservation, .work act next) =>
    { v with state := act v.state, running := v.running.set i (reservation, next v.state) }
  | some (reservation, .mark last rest) =>
    { v with
      shared := v.shared.mark reservation last
      marked := v.marked ++ [last]
      running := v.running.set i (reservation, rest) }

/-- Go on with a turn. -/
def step : Turn → Visit τ
  | .start => v.startNext
  | .go i => v.go i
  | .push data => { v with ring := (v.ring.push data).2 }
  | .fail e => { v with ring := v.ring.setError e }

/-- Go on with turns, one after the other. -/
def run (schedule : List Turn) : Visit τ := schedule.foldl step v

/-- Let the first handler at work, which still has this task, go on to its end. -/
def endFirst : Task τ → Visit τ → Visit τ
  | .done, v => v.go 0
  | .work _ next, v => endFirst (next v.state) (v.go 0)
  | .mark _ rest, v => endFirst rest (v.go 0)

/-- Let the handlers at work go on to their end, one after the other. -/
def endRunning : Visit τ := v.running.foldl (fun v x ↦ endFirst x.2 v) v

/-- Let all handlers go on to their end, one after the other. -/
def finish : Visit τ := v.waiting.foldl (fun v _ ↦ v.startNext.endRunning) v.endRunning

end Visit

/-- Handlers that walk a window under a schedule, to their end. -/
def visited (schedule : List Turn) (routines : List (Routine τ)) (window : Bytes) (s : Ring × τ) :
    Visit τ := ((Visit.start routines window s).run schedule).finish

/-- A dispatch that lets handlers walk the window in any way. A walk answers how far the window was
marked. -/
def onceBy (source : Source σ) (walk : Bytes → σ → Nat × σ) (timeout : Option Nat) :
    LinkM (DispatchStats × σ) Nat :=
  .ofFun fun (stats, s) ↦
    match (source.wait timeout).exec s with
    | (.error e, s) => (.error e, (stats, s))
    | (.ok window, s) =>
      let (marked, s) := walk window s
      let progress := Progress.ofWindow window marked
      let stats := stats.count window progress
      if progress.bytes = 0 then (.ok 0, (stats, s))
      else match (source.release progress.bytes).exec s with
        | (.error e, s) => (.error e, (stats, s))
        | (.ok (), s) => (.ok progress.bytes, (stats, s))

theorem once_eq_onceBy (source : Source σ) (handlers : List (Handler σ)) (timeout : Option Nat) :
    once source handlers timeout = onceBy source (visitAll handlers) timeout := rfl

/-- A dispatch of a ring whose handlers take their steps under a schedule. -/
def onceUnder (schedule : List Turn) (routines : List (Routine τ)) (timeout : Option Nat) :
    LinkM (DispatchStats × (Ring × τ)) Nat :=
  onceBy (Ring.source.within .first) (fun window s ↦
    let v := visited schedule routines window s
    (v.shared.release.consumed, (v.ring, v.state))) timeout

/-! ### One handler after the other -/

namespace Visit

variable {v : Visit τ} {r : Reservation} {task : Task τ}

theorem startNext_of_none {routine : Routine τ} {waiting : List (Routine τ)}
    (hw : v.waiting = routine :: waiting) (h : v.shared.reserve? = none) :
    v.startNext = { v with waiting } := by
  rw [startNext, hw, h]

theorem startNext_of_some {routine : Routine τ} {waiting : List (Routine τ)}
    {shared : SharedWindow} (hw : v.waiting = routine :: waiting)
    (h : v.shared.reserve? = some (r, shared)) :
    v.startNext = { v with
      shared
      given := v.given ++ [r]
      waiting
      running := v.running ++ [(r, routine r)] } := by
  rw [startNext, hw, h]

theorem go_done {i : Nat} (h : v.running[i]? = some (r, .done)) :
    v.go i = { v with
      shared := v.shared.dropReservation
      running := v.running.eraseIdx i } := by
  rw [go, h]

theorem go_work {i : Nat} {act : τ → τ} {next : τ → Task τ}
    (h : v.running[i]? = some (r, .work act next)) :
    v.go i = { v with
      state := act v.state
      running := v.running.set i (r, next v.state) } := by
  rw [go, h]

theorem go_mark {i : Nat} {last : Placed} (h : v.running[i]? = some (r, .mark last task)) :
    v.go i = { v with
      shared := v.shared.mark r last
      marked := v.marked ++ [last]
      running := v.running.set i (r, task) } := by
  rw [go, h]

/-- The first handler marks what it marks alone, and gives its reservation back. -/
theorem endFirst_eq {rest : List (Reservation × Task τ)} (h : v.running = (r, task) :: rest) :
    endFirst task v = { v with
      shared := ((task.alone v.state).1.foldl (fun w p ↦ w.mark r p) v.shared).dropReservation
      marked := v.marked ++ (task.alone v.state).1
      running := rest
      state := (task.alone v.state).2 } := by
  induction task generalizing v with
  | done =>
    rw [endFirst, go_done (congrArg (·[0]?) h), h, Task.alone, List.append_nil]
    rfl
  | work act next ih =>
    rw [endFirst, go_work (congrArg (·[0]?) h), ih v.state (congrArg (·.set 0 (r, next v.state)) h)]
    rfl
  | mark last task ih =>
    rw [endFirst, go_mark (congrArg (·[0]?) h), ih (congrArg (·.set 0 (r, task)) h)]
    simp only [Task.alone, List.append_assoc, List.foldl_cons, List.singleton_append]

/-- The handlers at work come to their end, and those that wait go on waiting. -/
theorem endRunning_idle (v : Visit τ) :
    v.endRunning.running = [] ∧ v.endRunning.waiting = v.waiting := by
  have hfold (xs : List (Reservation × Task τ)) (v : Visit τ) (h : v.running = xs) :
      (xs.foldl (fun v x ↦ endFirst x.2 v) v).running = [] ∧
        (xs.foldl (fun v x ↦ endFirst x.2 v) v).waiting = v.waiting := by
    induction xs generalizing v with
    | nil => exact ⟨h, rfl⟩
    | cons x xs ih =>
      obtain ⟨r, task⟩ := x
      have hx := endFirst_eq h
      have hrest := ih (endFirst task v) (by rw [hx])
      rw [List.foldl_cons, hrest.1, hrest.2, hx]
      exact ⟨rfl, rfl⟩
  exact hfold v.running v rfl

/-- All handlers come to their end. -/
theorem finish_idle (v : Visit τ) : v.finish.running = [] ∧ v.finish.waiting = [] := by
  have hfold (waiting : List (Routine τ)) (v : Visit τ) (h : v.running = [] ∧ v.waiting = waiting) :
      (waiting.foldl (fun v _ ↦ v.startNext.endRunning) v).running = [] ∧
        (waiting.foldl (fun v _ ↦ v.startNext.endRunning) v).waiting = [] := by
    induction waiting generalizing v with
    | nil => exact h
    | cons routine waiting ih =>
      obtain ⟨hrunning, hwaiting⟩ := v.startNext.endRunning_idle
      refine ih _ ⟨hrunning, hwaiting.trans ?_⟩
      cases hreserve : v.shared.reserve? with
      | none => rw [startNext_of_none h.2 hreserve]
      | some taken => rw [startNext_of_some h.2 hreserve]
  exact hfold v.waiting v.endRunning v.endRunning_idle

/-- The next handler walks the window from its first step to its last. -/
theorem endRunning_startNext {routine : Routine τ} {waiting : List (Routine τ)}
    (hr : v.running = []) (hw : v.waiting = routine :: waiting) :
    let v' := v.startNext.endRunning
    (v'.shared, (v'.ring, v'.state)) =
        visit (routine.handler.within .second) v.shared (v.ring, v.state) ∧
      v'.running = [] ∧ v'.waiting = waiting := by
  intro v'
  cases hreserve : v.shared.reserve? with
  | none =>
    have hv' : v' = { v with waiting } := by
      dsimp only [v']
      rw [startNext_of_none hw hreserve, endRunning, hr]
      rfl
    rw [hv', visit, hreserve]
    exact ⟨rfl, hr, rfl⟩
  | some taken =>
    obtain ⟨r, shared⟩ := taken
    have hnext := startNext_of_some hw hreserve
    rw [hr, List.nil_append] at hnext
    have hv' : v' = endFirst (routine r) v.startNext := by
      dsimp only [v', endRunning]
      rw [hnext]
      rfl
    have hrunning : v.startNext.running = [(r, routine r)] := by rw [hnext]
    rw [hv', endFirst_eq hrunning, hnext, visit, hreserve]
    exact ⟨rfl, rfl, rfl⟩

end Visit

/-- Under the empty schedule a dispatch lets one handler walk the window after the other. -/
theorem onceUnder_nil (routines : List (Routine τ)) (timeout : Option Nat) :
    onceUnder [] routines timeout =
      once (Ring.source.within .first) (routines.map (·.handler.within .second)) timeout := by
  have hfold (routines : List (Routine τ)) (v : Visit τ) (hr : v.running = [])
      (hw : v.waiting = routines) :
      let v' := routines.foldl (fun v _ ↦ v.startNext.endRunning) v
      (v'.shared, (v'.ring, v'.state)) =
        (routines.map (·.handler.within .second)).foldl (fun p h ↦ visit h p.1 p.2)
          (v.shared, (v.ring, v.state)) := by
    induction routines generalizing v with
    | nil => rfl
    | cons routine routines ih =>
      obtain ⟨hvisit, hr, hw⟩ := Visit.endRunning_startNext hr hw
      rw [List.map_cons, List.foldl_cons, List.foldl_cons, ← hvisit]
      exact ih _ hr hw
  rw [once_eq_onceBy, onceUnder]
  congr
  funext window s
  have hstart := hfold routines (.start routines window s) rfl rfl
  exact congrArg (fun p : SharedWindow × (Ring × τ) ↦ (p.1.release.consumed, p.2)) hstart

/-! ### Whoever is next -/

namespace Visit

variable {v : Visit τ} {window : Bytes} {P : Placed → Prop} {count : Nat} {p : Placed}

/-- What every step of a handler keeps, all of them keep to their end. -/
theorem finish_induction {Q : Visit τ → Prop} (hstart : ∀ v, Q v → Q v.startNext)
    (hgo : ∀ v i, Q v → Q (v.go i)) (h : Q v) : Q v.finish := by
  have hfirst (task : Task τ) (v : Visit τ) (h : Q v) : Q (endFirst task v) := by
    induction task generalizing v with
    | done => exact hgo v 0 h
    | work act next ih => exact ih v.state _ (hgo v 0 h)
    | mark last task ih => exact ih _ (hgo v 0 h)
  have hrunning (v : Visit τ) (h : Q v) : Q v.endRunning := by
    unfold endRunning
    generalize v.running = xs
    induction xs generalizing v with
    | nil => exact h
    | cons x xs ih => exact ih _ (hfirst x.2 v h)
  have hend : Q v.endRunning := hrunning v h
  unfold finish
  generalize v.endRunning = u at hend ⊢
  generalize v.waiting = waiting
  induction waiting generalizing u with
  | nil => exact hend
  | cons routine waiting ih => exact ih _ (hrunning _ (hstart u hend))

/-- What every turn keeps holds when all handlers came to their end. -/
theorem visited_induction {Q : Visit τ → Prop} (hstep : ∀ v turn, Q v → Q (v.step turn))
    {routines : List (Routine τ)} {s : Ring × τ} (h : Q (start routines window s))
    (schedule : List Turn) : Q (visited schedule routines window s) := by
  refine finish_induction (fun v ↦ hstep v .start) (fun v i ↦ hstep v (.go i)) ?_
  generalize start routines window s = v at h ⊢
  induction schedule generalizing v with
  | nil => exact h
  | cons turn schedule ih => exact ih _ (hstep v turn h)

/-- Every handler at work holds the window and is counted, the furthest end of what was marked is
kept, and only packets of `P` were or will be marked. -/
structure Sound (window : Bytes) (P : Placed → Prop) (count : Nat) (v : Visit τ) : Prop where
  shared : v.shared = ⟨some window, true, v.running.length, furthestEnd window v.marked⟩
  running : ∀ x ∈ v.running, x.1 = ⟨window⟩ ∧ x.2.Only P
  waiting : ∀ routine ∈ v.waiting, (routine ⟨window⟩).Only P
  marked : ∀ p ∈ v.marked, P p
  given : v.given ++ List.replicate v.waiting.length ⟨window⟩ = List.replicate count ⟨window⟩

/-- Nobody holds the window any more, each of so many handlers had it, the furthest end of what was
marked is kept, and only packets of `P` were marked. -/
structure Ended (window : Bytes) (P : Placed → Prop) (count : Nat) (v : Visit τ) : Prop where
  shared : v.shared = ⟨some window, true, 0, furthestEnd window v.marked⟩
  released : v.shared.release.released? = some v.shared.consumed
  given : v.given = List.replicate count ⟨window⟩
  marked : ∀ p ∈ v.marked, P p

theorem Sound.ended (hs : v.Sound window P count) (hidle : v.running = [] ∧ v.waiting = []) :
    v.Ended window P count := by
  have hshared := hs.shared
  have hgiven := hs.given
  rw [hidle.1] at hshared
  rw [hidle.2, List.length_nil, List.replicate_zero, List.append_nil] at hgiven
  exact ⟨hshared, hshared ▸ rfl, hgiven, hs.marked⟩

theorem sound_start {routines : List (Routine τ)}
    (h : ∀ routine ∈ routines, (routine ⟨window⟩).Only P) (s : Ring × τ) :
    (start routines window s).Sound window P routines.length :=
  ⟨rfl, nofun, h, nofun, rfl⟩

/-- A handler that starts gets the window. -/
theorem Sound.startNext_eq (hs : v.Sound window P count) {routine : Routine τ}
    {waiting : List (Routine τ)} (hw : v.waiting = routine :: waiting) :
    v.startNext = { v with
      shared := ⟨some window, true, v.running.length + 1, furthestEnd window v.marked⟩
      given := v.given ++ [⟨window⟩]
      waiting
      running := v.running ++ [(⟨window⟩, routine ⟨window⟩)] } := by
  refine startNext_of_some hw (SharedWindow.reserve?_eq_some_iff.mpr ?_)
  rw [hs.shared]
  exact ⟨Nat.succ_pos _, rfl, rfl⟩

theorem sound_startNext (hs : v.Sound window P count) : v.startNext.Sound window P count := by
  cases hw : v.waiting with
  | nil =>
    rw [startNext, hw]
    exact hs
  | cons routine waiting =>
    have hwaiting := hs.waiting
    have hgiven := hs.given
    rw [hw, List.forall_mem_cons] at hwaiting
    rw [hs.startNext_eq hw]
    refine ⟨?_, ?_, hwaiting.2, hs.marked, ?_⟩
    · rw [List.length_append]
      rfl
    · rw [List.forall_mem_append, List.forall_mem_singleton]
      exact ⟨hs.running, rfl, hwaiting.1⟩
    · rwa [hw, List.length_cons, List.replicate_succ, List.append_cons] at hgiven

/-- Another mark moves the furthest end if it is behind it. -/
theorem mark_furthestEnd (window : Bytes) (n : Nat) (ms : List Placed) (last : Placed) :
    SharedWindow.mark ⟨some window, true, n, furthestEnd window ms⟩ ⟨window⟩ last =
      ⟨some window, true, n, furthestEnd window (ms ++ [last])⟩ := by
  have hend : furthestEnd window (ms ++ [last]) =
      ([last].filterMap (Reservation.endOf? ⟨window⟩)).foldl max (furthestEnd window ms) := by
    rw [furthestEnd, List.filterMap_append, List.foldl_append]
    rfl
  rw [hend]
  exact foldl_mark ⟨window⟩ [last] ⟨some window, true, n, furthestEnd window ms⟩

theorem sound_go (hs : v.Sound window P count) (i : Nat) : (v.go i).Sound window P count := by
  cases hi : v.running[i]? with
  | none =>
    rw [go, hi]
    exact hs
  | some x =>
    obtain ⟨r, task⟩ := x
    obtain ⟨rfl, hP⟩ := hs.running _ (List.mem_of_getElem? hi)
    have hlt : i < v.running.length := (List.getElem?_eq_some_iff.mp hi).1
    have hset (task : Task τ) (htask : task.Only P) :
        ∀ x ∈ v.running.set i (⟨window⟩, task), x.1 = ⟨window⟩ ∧ x.2.Only P := by
      intro x hx
      rcases List.mem_or_eq_of_mem_set hx with hx | rfl
      · exact hs.running x hx
      · exact ⟨rfl, htask⟩
    cases task with
    | done =>
      rw [go_done hi]
      refine ⟨?_, fun x hx ↦ hs.running x (List.mem_of_mem_eraseIdx hx), hs.waiting, hs.marked,
        hs.given⟩
      rw [hs.shared, List.length_eraseIdx_of_lt hlt]
      rfl
    | work act next =>
      rw [go_work hi]
      refine ⟨?_, hset _ (hP v.state), hs.waiting, hs.marked, hs.given⟩
      rw [List.length_set]
      exact hs.shared
    | mark last rest =>
      rw [go_mark hi]
      refine ⟨?_, hset _ hP.2, hs.waiting, ?_, hs.given⟩
      · rw [hs.shared, mark_furthestEnd, List.length_set]
      · rw [List.forall_mem_append, List.forall_mem_singleton]
        exact ⟨hs.marked, hP.1⟩

theorem sound_step (hs : v.Sound window P count) (turn : Turn) :
    (v.step turn).Sound window P count := by
  cases turn with
  | start => exact sound_startNext hs
  | go i => exact sound_go hs i
  | push data => exact ⟨hs.shared, hs.running, hs.waiting, hs.marked, hs.given⟩
  | fail e => exact ⟨hs.shared, hs.running, hs.waiting, hs.marked, hs.given⟩

/-- A packet was marked, or a handler goes on to mark it. -/
def Owes (window : Bytes) (p : Placed) (v : Visit τ) : Prop :=
  p ∈ v.marked ∨ (∃ x ∈ v.running, x.2.Surely p) ∨
    ∃ routine ∈ v.waiting, (routine ⟨window⟩).Surely p

/-- A member of a list stays if another one is erased or replaced. -/
theorem eq_or_mem_of_mem {α : Type} {xs : List α} {x y : α} {i : Nat} (hx : x ∈ xs)
    (hi : xs[i]? = some y) : x = y ∨ x ∈ xs.eraseIdx i ∧ ∀ z, x ∈ xs.set i z := by
  obtain ⟨j, hj⟩ := List.mem_iff_getElem?.mp hx
  by_cases hij : i = j
  · subst hij
    exact .inl (Option.some.inj (hj.symm.trans hi))
  · refine .inr ⟨List.mem_eraseIdx_iff_getElem?.mpr ⟨j, Ne.symm hij, hj⟩, fun z ↦ ?_⟩
    exact List.mem_iff_getElem?.mpr ⟨j, (List.getElem?_set_ne hij).trans hj⟩

theorem owes_startNext (hs : v.Sound window P count) (ho : v.Owes window p) :
    v.startNext.Owes window p := by
  cases hw : v.waiting with
  | nil =>
    rw [startNext, hw]
    exact ho
  | cons routine waiting =>
    rw [hs.startNext_eq hw]
    rcases ho with hm | ⟨x, hx, hp⟩ | ⟨next, hn, hp⟩
    · exact .inl hm
    · exact .inr (.inl ⟨x, List.mem_append_left _ hx, hp⟩)
    · rw [hw] at hn
      rcases List.mem_cons.mp hn with rfl | hn
      · exact .inr (.inl ⟨_, List.mem_append_right _ List.mem_cons_self, hp⟩)
      · exact .inr (.inr ⟨next, hn, hp⟩)

theorem owes_go (ho : v.Owes window p) (i : Nat) : (v.go i).Owes window p := by
  cases hi : v.running[i]? with
  | none =>
    rw [go, hi]
    exact ho
  | some y =>
    have hlt : i < v.running.length := (List.getElem?_eq_some_iff.mp hi).1
    obtain ⟨r, task⟩ := y
    cases task with
    | done =>
      rw [go_done hi]
      rcases ho with hm | ⟨x, hx, hp⟩ | hw
      · exact .inl hm
      · -- a handler that is done marks nothing more, so it is another one that goes on to
        rcases eq_or_mem_of_mem hx hi with rfl | ⟨hx, _⟩
        · exact absurd hp id
        · exact .inr (.inl ⟨x, hx, hp⟩)
      · exact .inr (.inr hw)
    | work act next =>
      rw [go_work hi]
      rcases ho with hm | ⟨x, hx, hp⟩ | hw
      · exact .inl hm
      · rcases eq_or_mem_of_mem hx hi with rfl | ⟨_, hx⟩
        · exact .inr (.inl ⟨_, List.mem_set hlt _, hp v.state⟩)
        · exact .inr (.inl ⟨x, hx _, hp⟩)
      · exact .inr (.inr hw)
    | mark last rest =>
      rw [go_mark hi]
      rcases ho with hm | ⟨x, hx, hp⟩ | hw
      · exact .inl (List.mem_append_left _ hm)
      · rcases eq_or_mem_of_mem hx hi with rfl | ⟨_, hx⟩
        · rcases hp with rfl | hp
          · exact .inl (List.mem_append_right _ List.mem_cons_self)
          · exact .inr (.inl ⟨_, List.mem_set hlt _, hp⟩)
        · exact .inr (.inl ⟨x, hx _, hp⟩)
      · exact .inr (.inr hw)

theorem owes_step (hs : v.Sound window P count) (ho : v.Owes window p) (turn : Turn) :
    (v.step turn).Owes window p := by
  cases turn with
  | start => exact owes_startNext hs ho
  | go i => exact owes_go ho i
  | push data => exact ho
  | fail e => exact ho

theorem ring_startNext (v : Visit τ) : v.startNext.ring = v.ring := by
  unfold startNext
  split
  · rfl
  · split <;> rfl

theorem ring_go (v : Visit τ) (i : Nat) : (v.go i).ring = v.ring := by
  unfold go
  split <;> rfl

end Visit

section Visited

open Visit

variable {window : Bytes} {P : Placed → Prop} {routines : List (Routine τ)} (schedule : List Turn)
  (s : Ring × τ)

/-- Handlers that mark only packets of `P` come to their end with no other packet marked. -/
theorem ended_visited (h : ∀ routine ∈ routines, (routine ⟨window⟩).Only P) :
    (visited schedule routines window s).Ended window P routines.length :=
  Sound.ended (visited_induction (Q := Sound window P routines.length)
    (fun _ turn h ↦ sound_step h turn) (sound_start h s) schedule) (finish_idle _)

/-- What a handler marks whatever the others do is marked under every schedule. -/
theorem mem_marked_visited {p : Placed} (h : ∃ routine ∈ routines, (routine ⟨window⟩).Surely p) :
    p ∈ (visited schedule routines window s).marked := by
  have hs : (start routines window s).Sound window (fun _ ↦ True) routines.length :=
    sound_start (fun routine _ ↦ (routine ⟨window⟩).only_true) s
  have howes : (start routines window s).Owes window p := .inr (.inr h)
  obtain ⟨_, hend⟩ := visited_induction (Q := fun v ↦ v.Sound window _ routines.length ∧
      v.Owes window p)
    (fun v turn h ↦ ⟨sound_step h.1 turn, owes_step h.1 h.2 turn⟩) ⟨hs, howes⟩ schedule
  obtain ⟨hrunning, hwaiting⟩ := finish_idle ((start routines window s).run schedule)
  rcases hend with hm | ⟨x, hx, _⟩ | ⟨routine, hr, _⟩
  · exact hm
  · rw [visited, hrunning] at hx
    contradiction
  · rw [visited, hwaiting] at hr
    contradiction

/-- While handlers walk a window, the ring is what its producer makes of it. -/
theorem ring_visited (h : Ring.History) (routines : List (Routine τ)) (window : Bytes) (t : τ) :
    (visited schedule routines window (h.ring, t)).ring =
      (h.run (schedule.filterMap Turn.action?)).ring := by
  have hrun (v : Visit τ) (hv : v.ring = h.ring) :
      (v.run schedule).ring = (h.run (schedule.filterMap Turn.action?)).ring := by
    induction schedule generalizing v h with
    | nil => exact hv
    | cons turn schedule ih =>
      cases turn with
      | start => exact ih h _ (v.ring_startNext.trans hv)
      | go i => exact ih h _ ((v.ring_go i).trans hv)
      | push data => exact ih (h.step (.push data)) _ (by rw [step, hv]; rfl)
      | fail e => exact ih (h.step (.fail e)) _ (by rw [step, hv]; rfl)
  rw [← hrun (start routines window (h.ring, t)) rfl]
  exact finish_induction (Q := fun v ↦ v.ring = _) (fun v h ↦ v.ring_startNext.trans h)
    (fun v i h ↦ (v.ring_go i).trans h) rfl

end Visited

/-- All handlers as a single one. -/
def together (schedule : List Turn) (routines : List (Routine τ)) : Handler (Ring × τ) :=
  fun reservation ↦ modifyGet fun s ↦
    let v := visited schedule routines reservation.bytes s
    (v.marked, (v.ring, v.state))

/-- Under every schedule handlers are like a single one that marks what they mark. -/
theorem onceUnder_eq_once (schedule : List Turn) (routines : List (Routine τ))
    (timeout : Option Nat) :
    onceUnder schedule routines timeout =
      once (Ring.source.within .first) [together schedule routines] timeout := by
  rw [once_eq_onceBy, onceUnder]
  congr
  funext window s
  have honly : ∀ routine ∈ routines, (routine ⟨window⟩).Only fun _ ↦ True := fun routine _ ↦
    (routine ⟨window⟩).only_true
  rw [visitAll_eq, marks_cons, effects_cons]
  dsimp only
  rw [(ended_visited schedule s honly).shared, marks, List.append_nil]
  rfl

/-- A dispatch under a schedule asks for what the marks and the window say, and gets it. -/
theorem exec_onceUnder {schedule : List Turn} {routines : List (Routine τ)} {timeout : Option Nat}
    {stats : DispatchStats} {ring : Ring} {t : τ} {window : Bytes} (hw : ring.wait = .ok window) :
    let v := visited schedule routines window (ring, t)
    let progress := Progress.ofWindow window (furthestEnd window v.marked)
    (onceUnder schedule routines timeout).exec (stats, (ring, t)) =
      (.ok progress.bytes, (stats.count window progress,
        (if progress.bytes = 0 then v.ring else v.ring.consume progress.bytes, v.state))) := by
  intro v progress
  have hwait : ((Ring.source.within (Part.first : Part (Ring × τ) Ring)).wait timeout).exec
      (ring, t) = (.ok window, (ring, t)) := congrArg (·, (ring, t)) hw
  have hmarks : marks [together schedule routines] window (ring, t) = v.marked :=
    List.append_nil _
  have heffects : effects [together schedule routines] window (ring, t) = (v.ring, v.state) := rfl
  rw [onceUnder_eq_once, exec_once_of_wait_ok hwait, hmarks, heffects]
  by_cases hz : progress.bytes = 0
  · rw [ite_cond_eq_true _ _ (eq_true hz), ite_cond_eq_true _ _ (eq_true hz)]
    rfl
  · rw [ite_cond_eq_false _ _ (eq_false hz), ite_cond_eq_false _ _ (eq_false hz)]
    rfl

end DetectorLink.Dispatch
