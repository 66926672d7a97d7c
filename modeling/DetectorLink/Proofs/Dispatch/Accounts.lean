import DetectorLink.Proofs.Dispatch.Progress
import DetectorLink.Proofs.Link.Effect
import DetectorLink.Proofs.Ring.Releases

/-!
# Accounts of a dispatch

A dispatch counts and answers what it asks its ring to release, read off the marks of its handlers.
A packet that is marked may declare to end behind what waits in the ring, and the ring may fail to
release anything; neither is taken back from the counters. So a dispatch tells the truth just if the
release succeeds and no packet is marked that ends, in whole units, behind what the ring can release.
-/

namespace DetectorLink

/-- A source with a meter: it counts by how much less is in use after each release. -/
def Source.metered {σ : Type} (used : σ → Nat) (source : Source σ) : Source (σ × Nat) where
  wait timeout := (source.wait timeout).within .first
  release n := .ofFun fun (s, meter) ↦
    let (r, t) := (source.release n).exec s
    (r, (t, meter + (used s - used t)))

/-- A handler that works on a part of the state. -/
def Handler.within {σ τ : Type} (p : Part τ σ) (h : Handler σ) : Handler τ := fun reservation ↦
  modifyGet fun t ↦
    let (marks, s) := (h reservation).run (p.get t)
    (marks, p.set s t)

theorem Handler.run_within {σ τ : Type} (p : Part τ σ) (h : Handler σ) (r : Reservation) (t : τ) :
    ((h.within p) r).run t = (((h r).run (p.get t)).1, p.set ((h r).run (p.get t)).2 t) := rfl

namespace Dispatch

variable {σ τ : Type}

/-! ### What handlers mark -/

/-- The packets that handlers mark in a window, one handler after the other. -/
def marks : List (Handler σ) → Bytes → σ → List Placed
  | [], _, _ => []
  | h :: rest, window, s =>
    let (ms, s) := (h ⟨window⟩).run s
    ms ++ marks rest window s

theorem marks_cons (h : Handler σ) (rest : List (Handler σ)) (window : Bytes) (s : σ) :
    marks (h :: rest) window s =
      ((h ⟨window⟩).run s).1 ++ marks rest window ((h ⟨window⟩).run s).2 := rfl

theorem effects_cons (h : Handler σ) (rest : List (Handler σ)) (window : Bytes) (s : σ) :
    effects (h :: rest) window s = effects rest window ((h ⟨window⟩).run s).2 := rfl

/-- The furthest end of a marked packet, zero if none is marked. -/
def furthestEnd (window : Bytes) (ms : List Placed) : Nat :=
  (ms.filterMap (Reservation.endOf? ⟨window⟩)).foldl max 0

/-- No marked packet ends behind `n`, in whole units. -/
def MarkedUpTo (window : Bytes) (ms : List Placed) (n : Nat) : Prop :=
  ∀ p ∈ ms, ∀ stop, Reservation.endOf? ⟨window⟩ p = some stop → alignDown stop ≤ n

/-- Marks move the end of what was processed to the furthest of them. -/
theorem foldl_mark (r : Reservation) (ms : List Placed) (w : SharedWindow) :
    ms.foldl (fun w p ↦ w.mark r p) w =
      { w with consumed := (ms.filterMap r.endOf?).foldl max w.consumed } := by
  induction ms generalizing w with
  | nil => rfl
  | cons p ms ih =>
    rw [List.foldl_cons, ih]
    cases he : r.endOf? p with
    | none => rw [List.filterMap_cons_none he, SharedWindow.mark, he]
    | some stop => rw [List.filterMap_cons_some he, SharedWindow.mark, he, List.foldl_cons]

/-- Every handler walks the window as the one before it left the state, and the furthest mark of all
counts. -/
theorem visitAll_eq (handlers : List (Handler σ)) (window : Bytes) (s : σ) :
    visitAll handlers window s =
      (furthestEnd window (marks handlers window s), effects handlers window s) := by
  have hfold (c : Nat) : handlers.foldl (fun p h ↦ visit h p.1 p.2)
      ((⟨some window, true, 0, c⟩ : SharedWindow), s) =
        (⟨some window, true, 0,
          ((marks handlers window s).filterMap (Reservation.endOf? ⟨window⟩)).foldl max c⟩,
            effects handlers window s) := by
    induction handlers generalizing c s with
    | nil => rfl
    | cons h rest ih =>
      have hvisit : visit h ⟨some window, true, 0, c⟩ s =
          (⟨some window, true, 0,
            (((h ⟨window⟩).run s).1.filterMap (Reservation.endOf? ⟨window⟩)).foldl max c⟩,
              ((h ⟨window⟩).run s).2) := by
        have hr : SharedWindow.reserve? ⟨some window, true, 0, c⟩ =
            some (⟨window⟩, ⟨some window, true, 1, c⟩) := rfl
        simp only [visit, hr, foldl_mark]
        rfl
      rw [marks_cons, effects_cons, List.filterMap_append, List.foldl_append, ← ih, ← hvisit]
      rfl
  unfold visitAll
  exact congrArg (fun p : SharedWindow × σ ↦ (p.1.release.consumed, p.2)) (hfold 0)

theorem foldl_max_le_iff (stops : List Nat) (start n : Nat) :
    alignDown (stops.foldl max start) ≤ n ↔
      alignDown start ≤ n ∧ ∀ stop ∈ stops, alignDown stop ≤ n := by
  induction stops generalizing start with
  | nil => simp
  | cons stop rest ih =>
    have hmax : alignDown (max start stop) ≤ n ↔ alignDown start ≤ n ∧ alignDown stop ≤ n := by
      simp only [alignDown, alignment]
      omega
    rw [List.foldl_cons, ih, hmax, List.forall_mem_cons, and_assoc]

theorem alignDown_furthestEnd_le_iff {window : Bytes} {ms : List Placed} {n : Nat} :
    alignDown (furthestEnd window ms) ≤ n ↔ MarkedUpTo window ms n := by
  rw [furthestEnd, foldl_max_le_iff]
  constructor
  · exact fun h p hp stop hs ↦ h.2 stop (List.mem_filterMap.mpr ⟨p, hp, hs⟩)
  · refine fun h ↦ ⟨Nat.zero_le n, fun stop hs ↦ ?_⟩
    obtain ⟨p, hp, he⟩ := List.mem_filterMap.mp hs
    exact h p hp stop he

/-- Where the whole window can be released, what a dispatch asks for can be unless a mark is behind
it. -/
theorem bytes_ofWindow_le_iff {window : Bytes} {ms : List Placed} {n : Nat}
    (h : window.length ≤ n) :
    (Progress.ofWindow window (furthestEnd window ms)).bytes ≤ n ↔ MarkedUpTo window ms n := by
  rw [← alignDown_furthestEnd_le_iff]
  rcases Nat.eq_zero_or_pos (furthestEnd window ms) with hz | hp
  · rw [hz]
    exact iff_of_true (Nat.le_trans (Progress.bytes_ofWindow_zero_le window) h) (Nat.zero_le n)
  · rw [Progress.ofWindow, ite_cond_eq_true _ _ (eq_true hp)]
    rfl

/-- Handlers on a part of the state mark what they mark on it alone. -/
theorem marks_within {p : Part τ σ} (hp : p.Lawful) (handlers : List (Handler σ)) (window : Bytes)
    (t : τ) : marks (handlers.map (Handler.within p)) window t = marks handlers window (p.get t) := by
  induction handlers generalizing t with
  | nil => rfl
  | cons h rest ih =>
    rw [List.map_cons, marks_cons, marks_cons, Handler.run_within, ih, hp.get_set]

/-- Handlers on a part of the state leave the rest of it alone. -/
theorem effects_within {p : Part τ σ} (hp : p.Lawful) (handlers : List (Handler σ))
    (window : Bytes) (t : τ) :
    effects (handlers.map (Handler.within p)) window t =
      p.set (effects handlers window (p.get t)) t := by
  induction handlers generalizing t with
  | nil => exact (hp.set_get t).symm
  | cons h rest ih =>
    rw [List.map_cons, effects_cons, effects_cons, Handler.run_within, ih, hp.get_set, hp.set_set]

/-! ### Any source -/

/-- A dispatch asks for what the marks and the window say, and answers it if it is released. -/
theorem exec_once_of_wait_ok {source : Source σ} {handlers : List (Handler σ)}
    {timeout : Option Nat} {stats : DispatchStats} {s t : σ} {window : Bytes}
    (hw : (source.wait timeout).exec s = (.ok window, t)) :
    let progress := Progress.ofWindow window (furthestEnd window (marks handlers window t))
    let shown := effects handlers window t
    let done := if progress.bytes = 0 then (.ok (), shown)
      else (source.release progress.bytes).exec shown
    (once source handlers timeout).exec (stats, s) =
      (done.1.map fun _ ↦ progress.bytes, (stats.count window progress, done.2)) := by
  intro progress shown done
  simp only [once, LinkM.exec_ofFun, hw, visitAll_eq]
  by_cases hz : progress.bytes = 0
  · have hd : done = (.ok (), shown) := ite_cond_eq_true _ _ (eq_true hz)
    rw [ite_cond_eq_true _ _ (eq_true hz), hd, Except.map, hz]
  · have hd : done = (source.release progress.bytes).exec shown :=
      ite_cond_eq_false _ _ (eq_false hz)
    rw [ite_cond_eq_false _ _ (eq_false hz), hd]
    rcases hr : (source.release progress.bytes).exec shown with ⟨e | u, v⟩ <;> rfl

/-- What a dispatch answers, by how much it raises its counter of bytes, and how much is released. -/
structure Account where
  /-- The answer. -/
  answer : Except LinkError Nat
  /-- What is counted. -/
  counted : Nat
  /-- What is released. -/
  released : Nat
  deriving Repr

/-- The account of a dispatch. What it releases is metered. -/
def account (source : Source σ) (used : σ → Nat) (handlers : List (Handler σ))
    (timeout : Option Nat) (stats : DispatchStats) (s : σ) : Account :=
  let done := (once source handlers timeout).exec (stats, s)
  let metered := (once (source.metered used) (handlers.map (Handler.within .first)) timeout).exec
    (stats, (s, 0))
  ⟨done.1, done.2.1.bytes - stats.bytes, metered.2.2.2⟩

variable {source : Source σ} {used : σ → Nat} {handlers : List (Handler σ)} {timeout : Option Nat}
  {stats : DispatchStats} {s t : σ}

/-- A dispatch whose wait fails counts and releases nothing. -/
theorem account_of_wait_error {e : LinkError}
    (hw : (source.wait timeout).exec s = (.error e, t)) :
    account source used handlers timeout stats s = ⟨.error e, 0, 0⟩ := by
  have hmetered : ((source.metered used).wait timeout).exec (s, 0) = (.error e, (t, 0)) := by
    show (((source.wait timeout).exec s).1, (((source.wait timeout).exec s).2, 0)) = _
    rw [hw]
  rw [account, once_of_wait_error hw, once_of_wait_error hmetered]
  simp only [Nat.sub_self]

/-- A dispatch counts what it asks for, and answers it if that is released. -/
theorem account_of_wait_ok {window : Bytes} (hw : (source.wait timeout).exec s = (.ok window, t)) :
    let n := (Progress.ofWindow window (furthestEnd window (marks handlers window t))).bytes
    let shown := effects handlers window t
    let done := if n = 0 then (.ok (), shown) else (source.release n).exec shown
    account source used handlers timeout stats s =
      ⟨done.1.map fun _ ↦ n, n, used shown - used done.2⟩ := by
  intro n shown done
  have hmetered : ((source.metered used).wait timeout).exec (s, 0) = (.ok window, (t, 0)) := by
    show (((source.wait timeout).exec s).1, (((source.wait timeout).exec s).2, 0)) = _
    rw [hw]
  rw [account, exec_once_of_wait_ok hw, exec_once_of_wait_ok hmetered,
    marks_within Part.lawful_first, effects_within Part.lawful_first]
  have hcounted : stats.bytes + n - stats.bytes = n := Nat.add_sub_cancel_left _ _
  have hreleased : (if n = 0 then ((Except.ok () : Except LinkError Unit), (shown, 0))
      else ((source.metered used).release n).exec (shown, 0)).2.2 = used shown - used done.2 := by
    by_cases hz : n = 0
    · have hd : done = (.ok (), shown) := ite_cond_eq_true _ _ (eq_true hz)
      rw [ite_cond_eq_true _ _ (eq_true hz), hd, Nat.sub_self]
    · have hd : done = (source.release n).exec shown := ite_cond_eq_false _ _ (eq_false hz)
      rw [ite_cond_eq_false _ _ (eq_false hz), hd]
      exact Nat.zero_add _
  exact congr (congrArg _ hcounted) hreleased

/-! ### What an account tells -/

namespace Account

/-- The account of a dispatch that asks for `n` bytes of a ring that can release up to `room`, unless
the release fails. -/
def asking (n room : Nat) (failure? : Option LinkError) : Account where
  answer := match failure? with
    | none => .ok n
    | some e => .error e
  counted := n
  released := if failure? = none then min n room else 0

/-- An account of a dispatch of a window with marks. -/
structure Tells (a : Account) (window : Bytes) (marked : List Placed) (room : Nat)
    (failure? : Option LinkError) : Prop where
  /-- What is asked for is read off the marks and the window. -/
  asks : a = asking (Progress.ofWindow window (furthestEnd window marked)).bytes room failure?
  /-- A dispatch that fails has counted something. -/
  failed : failure? ≠ none → 0 < a.counted
  /-- The three numbers are one just if the release succeeds and no mark is behind the room. -/
  agrees : a.answer = .ok a.counted ∧ a.counted = a.released ↔
    failure? = none ∧ MarkedUpTo window marked room
  counted_le : a.counted ≤ window.length ↔ MarkedUpTo window marked window.length
  released_le : a.released ≤ window.length ↔
    failure? ≠ none ∨ MarkedUpTo window marked window.length ∨ room = window.length

theorem tells_asking {window : Bytes} {marked : List Placed} {room : Nat}
    {failure? : Option LinkError} (hroom : window.length ≤ room)
    (hfail : failure? ≠ none →
      0 < (Progress.ofWindow window (furthestEnd window marked)).bytes) :
    (asking (Progress.ofWindow window (furthestEnd window marked)).bytes room failure?).Tells
      window marked room failure? := by
  have hall : _ ↔ MarkedUpTo window marked room := bytes_ofWindow_le_iff hroom
  have hwindow : _ ↔ MarkedUpTo window marked window.length :=
    bytes_ofWindow_le_iff (Nat.le_refl window.length)
  refine ⟨rfl, hfail, ?_, hwindow, ?_⟩
  · rw [← hall]
    cases failure? with
    | none =>
      have hmin (n : Nat) : n = min n room ↔ n ≤ room := by omega
      exact ⟨fun h ↦ ⟨rfl, (hmin _).mp h.2⟩, fun h ↦ ⟨rfl, (hmin _).mpr h.2⟩⟩
    | some e => exact iff_of_false (fun h ↦ nomatch h.1) fun h ↦ nomatch h.1
  · rw [← hwindow]
    cases failure? with
    | none =>
      show min _ room ≤ window.length ↔ _
      rw [or_iff_right (not_not_intro rfl)]
      omega
    | some e => exact iff_of_true (Nat.zero_le _) (.inl (Option.some_ne_none e))

end Account

/-- What a dispatch asks for is released up to a limit, or not at all if the release fails. -/
theorem account_eq_asking {window : Bytes} (hw : (source.wait timeout).exec s = (.ok window, t))
    {n room : Nat} {failure? : Option LinkError}
    (hn : (Progress.ofWindow window (furthestEnd window (marks handlers window t))).bytes = n)
    (hnone : n = 0 → failure? = none)
    (hsome : n ≠ 0 →
      let shown := effects handlers window t
      let done := (source.release n).exec shown
      (⟨done.1.map fun _ ↦ n, n, used shown - used done.2⟩ : Account) =
        .asking n room failure?) :
    account source used handlers timeout stats s = .asking n room failure? := by
  rw [account_of_wait_ok hw, hn]
  by_cases hz : n = 0
  · rw [ite_cond_eq_true _ _ (eq_true hz), Nat.sub_self, hnone hz, hz]
    exact congrArg (Account.mk _ _) (Nat.zero_min room).symm
  · rw [ite_cond_eq_false _ _ (eq_false hz)]
    exact hsome hz

/-! ### The two rings -/

/-- Looks at windows on `τ` and marks packets, while the producer of the ring goes on. -/
abbrev Visitor (τ : Type) := Reservation → τ → List Placed × List Ledger.Production × τ

/-- What its producer makes of a ring. -/
def produced (r : Ring) (productions : List Ledger.Production) : Ring :=
  productions.foldl (fun r what ↦ Ledger.owned.outside what r) r

/-- A visitor as a handler. -/
def visitor (v : Visitor τ) : Handler (Ring × τ) := fun reservation ↦
  modifyGet fun (r, t) ↦
    let (ms, productions, t) := v reservation t
    (ms, (produced r productions, t))

/-- A ring in order in which at least as much waits as in another. -/
def Grown (r r' : Ring) : Prop := r'.WellFormed ∧ r.pending <+: r'.pending

theorem Grown.outside {r r' : Ring} (h : Grown r r') (what : Ledger.Production) :
    Grown r (Ledger.owned.outside what r') := by
  cases what with
  | push data =>
    refine ⟨Ring.wellFormed_push h.1 data, ?_⟩
    show r.pending <+: (r'.push data).2.pending
    rw [Ring.pending_push h.1]
    exact h.2.trans (List.prefix_append _ _)
  | fail e => exact ⟨Ring.wellFormed_setError h.1 e, h.2⟩

theorem Grown.produced {r r' : Ring} (h : Grown r r') (productions : List Ledger.Production) :
    Grown r (Dispatch.produced r' productions) := by
  induction productions generalizing r' with
  | nil => exact h
  | cons what rest ih => exact ih (h.outside what)

/-- While visitors look at a window of it, a ring only grows. -/
theorem Grown.effects {r r' : Ring} (h : Grown r r') (visitors : List (Visitor τ))
    (window : Bytes) (t : τ) :
    Grown r (Dispatch.effects (visitors.map visitor) window (r', t)).1 := by
  induction visitors generalizing r' t with
  | nil => exact h
  | cons v rest ih =>
    rw [List.map_cons, effects_cons]
    exact ih (h.produced _) _

/-- A ring with memory of its own releases what is asked for, as far as it waits. -/
theorem account_ring {r : Ring} (h : r.WellFormed) {window : Bytes} (hw : r.wait = .ok window)
    (visitors : List (Visitor τ)) (timeout : Option Nat) (stats : DispatchStats) (t : τ) :
    let waiting := (effects (visitors.map visitor) window (r, t)).1.used
    window.length ≤ waiting ∧
      (account (Ring.source.within .first) (·.1.used) (visitors.map visitor) timeout stats
        (r, t)).Tells window (marks (visitors.map visitor) window (r, t)) waiting none := by
  intro waiting
  have hwait : ((Ring.source.within (Part.first : Part (Ring × τ) Ring)).wait timeout).exec (r, t) =
      (.ok window, (r, t)) := congrArg (·, (r, t)) hw
  obtain ⟨hgrown, hprefix⟩ := Grown.effects (r := r) ⟨h, List.prefix_rfl⟩ visitors window t
  have hroom : window.length ≤ waiting := by
    have hwindow : window = r.window := ((Ring.wait_eq_ok_iff h).mp hw).2.2
    have hlength := ((Ring.isPrefix_window h).trans hprefix).length_le
    rwa [← hwindow, Ring.length_pending hgrown] at hlength
  have hasks : account (Ring.source.within .first) (·.1.used) (visitors.map visitor) timeout stats
      (r, t) = .asking (Progress.ofWindow window
        (furthestEnd window (marks (visitors.map visitor) window (r, t)))).bytes waiting none := by
    refine account_eq_asking hwait rfl (fun _ ↦ rfl) fun _ ↦ congrArg (Account.mk _ _) ?_
    show waiting - ((effects (visitors.map visitor) window (r, t)).1.consume _).used = min _ waiting
    rw [Ring.used_consume hgrown, alignDown_of_mod_eq_zero (Progress.bytes_mod _)]
    exact Nat.sub_sub_self (Nat.min_le_right _ waiting)
  exact ⟨hroom, hasks ▸ Account.tells_asking hroom (absurd rfl)⟩

/-- Why a source does not release: nothing, if nothing is asked for. -/
def refusal? (source : Source σ) (n room : Nat) (s : σ) : Option LinkError :=
  if n = 0 then none
  else match ((source.release (min n room)).exec s).1 with
    | .ok _ => none
    | .error e => some e

/-- A direct ring remembers how long the window is that it shows. -/
theorem window_of_exec_wait {inner : Source σ} {d d' : DirectRing} {s s' : σ}
    {timeout : Option Nat} {window : Bytes}
    (hw : ((DirectRing.source inner).wait timeout).exec (d, s) = (.ok window, (d', s'))) :
    d'.window = window.length := by
  rcases hi : (inner.wait timeout).exec s with ⟨answer, u⟩
  simp only [DirectRing.source, DirectRing.wait, LinkM.exec_ofFun, hi] at hw
  split at hw
  · cases hw
  · cases answer with
    | error e => cases e <;> cases hw
    | ok data =>
      cases hw
      exact (List.length_take_of_le (alignDown_le _)).symm

/-- A direct ring asks its source for no more than its window, and keeps the window if the source
fails. -/
theorem exec_release_direct (inner : Source σ) {n : Nat} (hn : n % 4 = 0) (d : DirectRing) (s : σ) :
    let answer := ((inner.release (min n d.window)).exec s).1
    let done := ((DirectRing.source inner).release n).exec (d, s)
    done.1 = answer ∧ d.used - done.2.1.used = match answer with
      | .ok _ => min n d.window
      | .error _ => 0 := by
  intro answer done
  have hdone : done = (DirectRing.consume inner n).exec (d, s) := rfl
  simp only [DirectRing.consume, LinkM.exec_ofFun, alignDown_of_mod_eq_zero hn] at hdone
  rw [hdone]
  dsimp only [answer]
  rcases (inner.release (min n d.window)).exec s with ⟨e | u, v⟩
  · exact ⟨rfl, Nat.sub_self _⟩
  · exact ⟨rfl, Nat.sub_sub_self (Nat.min_le_right n d.window)⟩

/-- A direct ring releases what is asked for, as far as its window goes, if its source does. -/
theorem account_direct {inner : Source σ} {d d' : DirectRing} {s s' : σ} {timeout : Option Nat}
    {window : Bytes}
    (hw : ((DirectRing.source inner).wait timeout).exec (d, s) = (.ok window, (d', s')))
    (handlers : List (Handler σ)) (stats : DispatchStats) :
    let n := (Progress.ofWindow window (furthestEnd window (marks handlers window s'))).bytes
    (account (DirectRing.source inner) (·.1.used) (handlers.map (Handler.within .second)) timeout
      stats (d, s)).Tells window (marks handlers window s') window.length
        (refusal? inner n window.length (effects handlers window s')) := by
  intro n
  have hmod : n % 4 = 0 := Progress.bytes_mod _
  have hasks : account (DirectRing.source inner) (·.1.used)
      (handlers.map (Handler.within .second)) timeout stats (d, s) =
        .asking n window.length
          (refusal? inner n window.length (effects handlers window s')) := by
    have hmarks : marks (handlers.map (Handler.within .second)) window (d', s') =
      marks handlers window s' := marks_within Part.lawful_second handlers window (d', s')
    have hn : (Progress.ofWindow window (furthestEnd window
        (marks (handlers.map (Handler.within .second)) window (d', s')))).bytes = n := by
      rw [hmarks]
    refine account_eq_asking hw hn (fun hz ↦ ite_cond_eq_true _ _ (eq_true hz)) fun hz ↦ ?_
    rw [effects_within Part.lawful_second, refusal?, ite_cond_eq_false _ _ (eq_false hz)]
    obtain ⟨hanswer, hused⟩ := exec_release_direct inner hmod d' (effects handlers window s')
    rw [window_of_exec_wait hw] at hanswer hused
    show Account.mk ((((DirectRing.source inner).release n).exec
      (d', effects handlers window s')).1.map fun _ ↦ n) n (d'.used - (((DirectRing.source
        inner).release n).exec (d', effects handlers window s')).2.1.used) = _
    rw [hanswer, hused]
    cases ((inner.release (min n window.length)).exec (effects handlers window s')).1 <;> rfl
  rw [hasks]
  refine Account.tells_asking (Nat.le_refl _) fun hfail ↦ Nat.pos_of_ne_zero fun hz ↦ hfail ?_
  exact ite_cond_eq_true _ _ (eq_true hz)

/-- A dispatch of any ring, with memory of its own or direct, whatever its handlers mark and whatever
happens meanwhile: if the wait fails, nothing is counted or released. Else what is asked for is
counted and answered unless the release fails, and released as far as the ring goes. It is all three
of counted, answered and released just if the release succeeds and no marked packet ends behind what
the ring can release: what is waiting by then, or the window of a direct ring. -/
theorem account_tells {size : Nat} {r : Ring} (hr : Ring.create size = .ok r)
    (actions : List Ring.Action) (visitors : List (Visitor τ)) (t : τ) (inner : Source σ)
    (d : DirectRing) (s : σ) (handlers : List (Handler σ)) (timeout : Option Nat)
    (stats : DispatchStats) :
    let ring := ((Ring.History.start r).run actions).ring
    let a := account (Ring.source.within .first) (·.1.used) (visitors.map visitor) timeout stats
      (ring, t)
    let b := account (DirectRing.source inner) (·.1.used) (handlers.map (Handler.within .second))
      timeout stats (d, s)
    (match ring.wait with
      | .error e => a = ⟨.error e, 0, 0⟩
      | .ok window =>
        let marked := marks (visitors.map visitor) window (ring, t)
        let waiting := (effects (visitors.map visitor) window (ring, t)).1.used
        window.length ≤ waiting ∧ a.Tells window marked waiting none) ∧
    match ((DirectRing.source inner).wait timeout).exec (d, s) with
      | (.error e, _) => b = ⟨.error e, 0, 0⟩
      | (.ok window, (_, s')) =>
        let marked := marks handlers window s'
        let n := (Progress.ofWindow window (furthestEnd window marked)).bytes
        b.Tells window marked window.length
          (refusal? inner n window.length (effects handlers window s')) := by
  intro ring a b
  have hring : ring.WellFormed :=
    (Ring.History.sound_run (Ring.History.sound_start hr) actions).ring
  constructor
  · cases hw : ring.wait with
    | error e => exact account_of_wait_error (t := (ring, t)) (congrArg (·, (ring, t)) hw)
    | ok window => exact account_ring hring hw visitors timeout stats t
  · rcases hw : ((DirectRing.source inner).wait timeout).exec (d, s) with ⟨e | window, d', s'⟩
    · exact account_of_wait_error hw
    · exact account_direct hw handlers stats

/-- A header that declares 16 bytes of payload is all of a ring and is marked: 40 bytes are counted
and 24 are released. A source that shows a packet and releases nothing has its 24 bytes counted. -/
theorem account_tells_behind_window :
    let r : Ring := ⟨.empty 64, .empty, none⟩
    let header : Bytes := List.replicate 12 0 ++ 16 :: List.replicate 11 0
    let packet : Bytes := List.replicate 24 0
    let ring := ((Ring.History.start r).run [.push header]).ring
    let mark : Visitor Unit := fun reservation t ↦ ((reservation.parseAt? 0).toList, [], t)
    let inner : Source Bytes := ⟨fun _ ↦ .read, fun _ ↦ .fail .stall⟩
    let a := account (Ring.source.within .first) (·.1.used) ([mark].map visitor) none .zero
      (ring, ())
    let b := account (DirectRing.source inner) (·.1.used) ([].map (Handler.within .second))
      none .zero (.ofSize 64, packet)
    Ring.create 64 = .ok r ∧
      a = .asking 40 24 none ∧ ¬(a.answer = .ok a.counted ∧ a.counted = a.released) ∧
      b = .asking 24 24 (some .stall) ∧ ¬(b.answer = .ok b.counted ∧ b.counted = b.released) := by
  intro r header packet ring mark inner a b
  have hr : Ring.create 64 = .ok r := by rfl
  obtain ⟨ha, hb⟩ := account_tells hr [.push header] [mark] () inner (.ofSize 64) packet [] none
    .zero
  have hw : ((Ring.History.start r).run [.push header]).ring.wait = .ok header := by
    have hsome : ((Ring.History.start r).run [.push header]).ring.wait.toOption = some header := by
      decide +kernel
    generalize ((Ring.History.start r).run [.push header]).ring.wait = shown at hsome ⊢
    cases shown with
    | error e => cases hsome
    | ok bytes => exact congrArg Except.ok (Option.some.inj hsome)
  have hused : (effects ([mark].map visitor) header (ring, ())).1.used = 24 := by decide +kernel
  rw [hw] at ha
  have ha : a.Tells header (marks ([mark].map visitor) header (ring, ())) 24 none := hused ▸ ha.2
  have hshown : ((DirectRing.source inner).wait none).exec (.ofSize 64, packet) =
      (.ok packet, (⟨64, 24, none⟩, packet)) := by
    cbv
  rw [hshown] at hb
  have hb : b.Tells packet [] packet.length (refusal? inner
    (Progress.ofWindow packet (furthestEnd packet [])).bytes packet.length packet) := hb
  have hcounted : (Progress.ofWindow header (furthestEnd header
      (marks ([mark].map visitor) header (ring, ())))).bytes = 40 := by
    decide +kernel
  have hcounted' : (Progress.ofWindow packet (furthestEnd packet [])).bytes = 24 := by
    decide +kernel
  have hrefusal : refusal? inner 24 packet.length packet = some .stall := rfl
  have ha := ha.asks
  have hb := hb.asks
  rw [hcounted] at ha
  rw [hcounted', hrefusal] at hb
  rw [ha, hb]
  exact ⟨hr, rfl, fun h ↦ absurd h.2 (by decide), rfl, fun h ↦ absurd h.2 (by decide)⟩

end Dispatch

end DetectorLink
