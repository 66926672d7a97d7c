import DetectorLink.Proofs.Dispatch.Interleaved
import DetectorLink.Proofs.Ring.Rollover

/-!
# The furthest mark

Handlers find packets by walking their reservation, each in its own way, and mark some of them. The
end of the furthest one is released, the whole valid prefix if none was marked, whoever marked it
and in whatever order. The next window starts there: what was released is never shown again, and the
packets behind it are shown once more.
-/

namespace DetectorLink

namespace Dispatch

variable {τ : Type} {window : Bytes} {ms : List Placed} {p : Placed} {n stop : Nat}

/-! ### What is marked -/

theorem furthestEnd_eq (window : Bytes) (ms : List Placed) :
    furthestEnd window ms = (ms.filterMap (Reservation.endOf? ⟨window⟩)).max?.getD 0 := by
  rw [furthestEnd, List.foldl_max, Nat.zero_max]

theorem le_furthestEnd (hp : p ∈ ms) (h : Reservation.endOf? ⟨window⟩ p = some stop) :
    stop ≤ furthestEnd window ms := by
  have hm : stop ∈ ms.filterMap (Reservation.endOf? ⟨window⟩) :=
    List.mem_filterMap.mpr ⟨p, hp, h⟩
  rw [furthestEnd_eq]
  cases hmax : (ms.filterMap (Reservation.endOf? ⟨window⟩)).max? with
  | none =>
    rw [List.max?_eq_none_iff.mp hmax] at hm
    contradiction
  | some m => exact (List.max?_eq_some_iff.mp hmax).2 stop hm

theorem exists_endOf?_eq_furthestEnd (h : furthestEnd window ms ≠ 0) :
    ∃ p ∈ ms, Reservation.endOf? ⟨window⟩ p = some (furthestEnd window ms) := by
  rw [furthestEnd_eq] at h ⊢
  cases hmax : (ms.filterMap (Reservation.endOf? ⟨window⟩)).max? with
  | none =>
    rw [hmax] at h
    exact absurd rfl h
  | some m => exact List.mem_filterMap.mp (List.max?_eq_some_iff.mp hmax).1

/-- The end of the furthest packet that was marked, or of the valid prefix if none was. -/
structure Reaches (window : Bytes) (ms : List Placed) (n : Nat) : Prop where
  unmarked : ms = [] → n = (Packet.validPrefix window).1
  marked : ms ≠ [] → ∃ p ∈ ms, Reservation.endOf? ⟨window⟩ p = some n
  furthest : ∀ p ∈ ms, ∃ stop ≤ n, Reservation.endOf? ⟨window⟩ p = some stop

theorem Reaches.le {ms' : List Placed} {n' : Nat} (h : Reaches window ms n)
    (h' : Reaches window ms' n') (hm : ∀ p ∈ ms, p ∈ ms') (hne : ms ≠ []) : n ≤ n' := by
  obtain ⟨p, hp, hn⟩ := h.marked hne
  obtain ⟨stop, hstop, hend⟩ := h'.furthest p (hm p hp)
  rw [hn] at hend
  exact Option.some.inj hend ▸ hstop

/-- Only which packets were marked tells how far it goes, not who marked them and in which order. -/
theorem Reaches.unique {ms' : List Placed} {n' : Nat} (h : Reaches window ms n)
    (h' : Reaches window ms' n') (hm : ∀ p, p ∈ ms ↔ p ∈ ms') : n = n' := by
  have hnil : ms = [] ↔ ms' = [] := by
    simp only [List.eq_nil_iff_forall_not_mem, hm]
  by_cases hz : ms = []
  · rw [h.unmarked hz, h'.unmarked (hnil.mp hz)]
  · exact Nat.le_antisymm (h.le h' (fun p ↦ (hm p).mp) hz)
      (h'.le h (fun p ↦ (hm p).mpr) (mt hnil.mpr hz))

/-- Of a window with marks just the first `j` packets are released, and its marks go that far. -/
structure Releases (window : Bytes) (ms : List Placed) (j : Nat) : Prop where
  le : j ≤ (Reservation.mk window).packets.length
  pos : 0 < Placed.byteCount ((Reservation.mk window).packets.take j)
  progress : Progress.ofWindow window (furthestEnd window ms) =
    .packets (Placed.byteCount ((Reservation.mk window).packets.take j))
  reaches : Reaches window ms (Placed.byteCount ((Reservation.mk window).packets.take j))

/-- All packets of a window that starts with one are released if none is marked. -/
theorem releases_of_unmarked (hv : Packet.validLength? window ≠ none) :
    Releases window [] (Reservation.mk window).packets.length := by
  let r : Reservation := ⟨window⟩
  have hall : Placed.byteCount (r.packets.take r.packets.length) =
      (Packet.validPrefix window).1 := by
    rw [List.take_length, show window = r.bytes from rfl, r.validPrefix_bytes]
  refine ⟨Nat.le_refl _, ?_, ?_, ⟨fun _ ↦ hall, absurd rfl, nofun⟩⟩
  · refine hall ▸ Nat.pos_of_ne_zero fun h ↦ ?_
    exact hv ((Packet.validPrefix_eq_zero_iff window).mp h)
  · rcases Progress.ofWindow_zero_cases window with ⟨_, h⟩ | ⟨hc, _⟩ | ⟨h, _⟩
    · exact h.trans (congrArg Progress.packets hall.symm)
    · exact absurd (Packet.validLength?_of_corruptHead hc) hv
    · exact absurd h hv

/-- The packets of a window up to the furthest mark are released if some are marked. -/
theorem exists_releases_of_marked (hz : ms ≠ [])
    (hms : ∀ p ∈ ms, p ∈ (Reservation.mk window).packets) : ∃ j, Releases window ms j := by
  obtain ⟨p, hp⟩ := List.exists_mem_of_ne_nil ms hz
  obtain ⟨_, _, hpos, hend⟩ := Reservation.exists_endOf?_eq_some (hms p hp)
  have hfar : 0 < furthestEnd window ms := Nat.lt_of_lt_of_le hpos (le_furthestEnd hp hend)
  -- the furthest end is that of a packet of the window, so that it ends a number of them
  obtain ⟨q, hq, hlast⟩ := exists_endOf?_eq_furthestEnd (Nat.ne_of_gt hfar)
  obtain ⟨j, hj, hjpos, hstop⟩ := Reservation.exists_endOf?_eq_some (hms q hq)
  have hn := Option.some.inj (hlast.symm.trans hstop)
  have hprogress : Progress.ofWindow window (furthestEnd window ms) =
      .packets (furthestEnd window ms) := ite_cond_eq_true _ _ (eq_true hfar)
  refine ⟨j, hj, hjpos, hprogress.trans (congrArg Progress.packets hn), fun h ↦ absurd h hz,
    fun _ ↦ ⟨q, hq, hstop⟩, fun p hp ↦ ?_⟩
  obtain ⟨_, _, _, hend⟩ := Reservation.exists_endOf?_eq_some (hms p hp)
  exact ⟨_, hn ▸ le_furthestEnd hp hend, hend⟩

/-- Of a window that starts with a packet whole packets are released, if only packets of the window
are marked. -/
theorem exists_releases (hv : Packet.validLength? window ≠ none)
    (hms : ∀ p ∈ ms, p ∈ (Reservation.mk window).packets) : ∃ j, Releases window ms j := by
  by_cases hz : ms = []
  · exact ⟨_, hz ▸ releases_of_unmarked hv⟩
  · exact exists_releases_of_marked hz hms

end Dispatch

namespace Ring.History

/-! ### What is shown next -/

/-- A ring of which a window of packets was shown is `n` bytes further, behind the first `j` of
them. -/
structure Resumes (h h' : History) (window : Bytes) (n j : Nat) : Prop where
  consumed : h'.consumed = h.consumed + n
  /-- If something of the window is left, a wait shows a window, unless an error is recorded. -/
  left : n < window.length → ∀ later, (∀ k, .consume k ∉ later) →
    (h'.run later).ring.error = none → ∃ next, (h'.run later).ring.wait = .ok next
  /-- Until more is released, a window starts there, and shows the packets that are left again. -/
  again : ∀ later, (∀ k, .consume k ∉ later) → ∀ next, (h'.run later).ring.wait = .ok next →
    next = ((h'.run later).accepted.drop (h.consumed + n)).take next.length ∧
      window.drop n <+: next ∧
      (Reservation.mk window).packetList.drop j <+: (Reservation.mk next).packetList
  /-- Whatever is done later, what lies before it is not shown any more. -/
  never : ∀ later next, (h'.run later).ring.wait = .ok next →
    h.accepted <+: (h'.run later).accepted ∧ ∃ offset ≥ h.consumed + n,
      next = ((h'.run later).accepted.drop offset).take next.length

variable {size n : Nat} {h : History} {window : Bytes}

/-- A window shows accepted bytes from the first one on that was not consumed. -/
theorem Sound.window_eq (hs : h.Sound size) (hw : h.ring.wait = .ok window) :
    window = h.ring.window ∧ window = (h.accepted.drop h.consumed).take window.length := by
  obtain ⟨_, _, rfl⟩ := (wait_eq_ok_iff hs.ring).mp hw
  refine ⟨rfl, ?_⟩
  rw [← hs.pending, length_window hs.ring]
  exact Ring.window_eq hs.ring

/-- What is left of a piece of a stream goes on in every longer stream. -/
theorem drop_take_prefix {b more : Bytes} (hb : b <+: more) (c n k : Nat) :
    ((b.drop c).take k).drop n <+: more.drop (c + n) := by
  obtain ⟨rest, rfl⟩ := hb
  rw [List.drop_take, List.drop_drop, List.drop_append]
  exact (List.take_prefix _ _).trans (List.prefix_append _ _)

/-- Releasing whole units of a window, after whatever the producer did since it was shown, moves on
by just that many bytes, and the next window shows at least the rest. -/
theorem Sound.release (hs : h.Sound size) (hw : h.ring.wait = .ok window)
    {productions : List Action} (hp : ∀ k, .consume k ∉ productions) (hmod : n % 4 = 0)
    (hn : n ≤ window.length) :
    let h' := (h.run productions).step (.consume n)
    h'.Sound size ∧ h'.consumed = h.consumed + n ∧
      window.length ≤ n + h'.ring.window.length := by
  intro h'
  have hs₁ : (h.run productions).Sound size := sound_run hs productions
  obtain ⟨hconsumed, hlength⟩ := length_window_le_run hs hp
  rw [← (hs.window_eq hw).1] at hlength
  have hused : n ≤ (h.run productions).ring.used := by
    rw [← length_pending hs₁.ring]
    exact Nat.le_trans hn (Nat.le_trans hlength (isPrefix_window hs₁.ring).length_le)
  have hrest := length_window_le_consume hs₁.ring n
  rw [alignDown_of_mod_eq_zero hmod] at hrest
  refine ⟨sound_step hs₁ _, ?_, Nat.le_trans hlength hrest⟩
  rw [hs₁.consumed_step, alignDown_of_mod_eq_zero hmod, Nat.min_eq_left hused, hconsumed]

/-- Releasing the first packets of a window, after whatever the producer did since it was shown,
leaves a ring that resumes behind them. -/
theorem resumes_consume (hs : h.Sound size) (hw : h.ring.wait = .ok window)
    {productions : List Action} (hp : ∀ k, .consume k ∉ productions) (j : Nat) :
    let n := Placed.byteCount ((Reservation.mk window).packets.take j)
    Resumes h ((h.run productions).step (.consume n)) window n j := by
  intro n
  have hn : n ≤ window.length :=
    Nat.le_trans (Reservation.byteCount_packets_take_le _ j) (Packet.validPrefix_le window)
  obtain ⟨hs', hconsumed, hlength⟩ :=
    hs.release hw hp (Reservation.byteCount_packets_take_mod _ j) hn
  generalize hh' : (h.run productions).step (.consume n) = h' at hs' hconsumed hlength ⊢
  have haccepted (later : List Action) : h.accepted <+: (h'.run later).accepted := by
    rw [← hh']
    exact (run_le h productions).1.trans (run_le (h.run productions) (.consume n :: later)).1
  refine ⟨hconsumed, ?_, ?_, ?_⟩
  · intro hlt later hl he
    have hsl := sound_run hs' later
    have hle := (length_window_le_run hs' hl).2
    have hused := (isPrefix_window hsl.ring).length_le
    rw [length_pending hsl.ring] at hused
    exact ⟨_, (wait_eq_ok_iff hsl.ring).mpr ⟨he, by omega, rfl⟩⟩
  · intro later hl next hnext
    obtain ⟨hnw, hns⟩ := (sound_run hs' later).window_eq hnext
    obtain ⟨hc, hle⟩ := length_window_le_run hs' hl
    rw [hc, hconsumed] at hns
    -- what is left of the window and the next window both start where the release ended
    have hrest := drop_take_prefix (haccepted later) h.consumed n window.length
    rw [← (hs.window_eq hw).2] at hrest
    have hdrop : window.drop n <+: next := by
      refine List.prefix_of_prefix_length_le hrest (hns ▸ List.take_prefix _ _) ?_
      rw [List.length_drop, hnw]
      omega
    refine ⟨hns, hdrop, ?_⟩
    obtain ⟨more, hmore⟩ := hdrop
    rw [Reservation.packetList_eq ⟨next⟩, ← Reservation.walk_drop_byteCount_take, ← hmore]
    exact Packet.walk_prefix_append _ _
  · intro later next hnext
    refine ⟨haccepted later, (h'.run later).consumed, ?_,
      ((sound_run hs' later).window_eq hnext).2⟩
    exact hconsumed ▸ (run_le h' later).2

end Ring.History

namespace Dispatch

open Ring.History

variable {τ : Type} {routines : List (Routine τ)} {window : Bytes} {ms : List Placed}

/-- The producer consumes nothing. -/
theorem consume_not_mem_actions (schedule : List Turn) (k : Nat) :
    .consume k ∉ schedule.filterMap Turn.action? := by
  intro h
  obtain ⟨turn, _, hturn⟩ := List.mem_filterMap.mp h
  cases turn with
  | start => cases hturn
  | go i => cases hturn
  | push data => cases hturn
  | fail e => cases hturn

/-- Under every schedule a dispatch of a window that starts with a packet releases the packets up to
the furthest mark, if handlers mark packets of the window. -/
theorem exec_onceUnder_reaches {h : Ring.History} (hw : h.ring.wait = .ok window)
    (hv : Packet.validLength? window ≠ none)
    (hwalk : ∀ routine ∈ routines, (routine ⟨window⟩).Only (Reservation.Obtained ⟨window⟩))
    (schedule : List Turn) (t : τ) (timeout : Option Nat) (stats : DispatchStats) :
    let v := visited schedule routines window (h.ring, t)
    ∃ j ≤ (Reservation.mk window).packets.length,
      let n := Placed.byteCount ((Reservation.mk window).packets.take j)
      let h' := (h.run (schedule.filterMap Turn.action?)).step (.consume n)
      Reaches window v.marked n ∧
        (onceUnder schedule routines timeout).exec (stats, (h.ring, t)) =
          (.ok n, (stats.count window (.packets n), (h'.ring, v.state))) := by
  intro v
  have hmarked := (ended_visited schedule (h.ring, t) hwalk).marked
  obtain ⟨j, hj, hpos, hprogress, hreaches⟩ := exists_releases hv fun p hp ↦
    Reservation.obtained_iff.mp (hmarked p hp)
  refine ⟨j, hj, hreaches, ?_⟩
  have hbytes : (Progress.packets (Placed.byteCount
      ((Reservation.mk window).packets.take j))).bytes = _ :=
    alignDown_of_mod_eq_zero (Reservation.byteCount_packets_take_mod _ j)
  rw [exec_onceUnder hw, hprogress, hbytes,
    ite_cond_eq_false _ _ (eq_false (Nat.ne_of_gt hpos)), ring_visited]
  rfl

/-- A dispatch of a ring that shows a window with a packet at its start, whatever its handlers are,
in any order of their steps and whatever the producer does meanwhile, as long as they mark packets
that they found by walking. A window that is shown is given to each handler, and all give it back.
Just the bytes up to the end of the furthest marked packet are released, or the whole valid prefix
if none was marked. The next window starts there: packets up to it are not shown again, those behind
it are. If what the handlers mark does not depend on when they take their steps, neither does what
is released, nor on the order of the handlers. -/
theorem onceUnder_releases_furthest {size : Nat} {r : Ring} (hr : Ring.create size = .ok r)
    (actions : List Ring.Action) {window : Bytes}
    (hw : ((start r).run actions).ring.wait = .ok window)
    (hv : Packet.validLength? window ≠ none) {routines : List (Routine τ)}
    (hwalk : ∀ routine ∈ routines, (routine ⟨window⟩).Only (Reservation.Obtained ⟨window⟩))
    (t : τ) :
    let h := (start r).run actions
    (∀ (schedule : List Turn) (shown : Bytes) (s : Ring × τ),
      (visited schedule routines shown s).given = List.replicate routines.length ⟨shown⟩) ∧
    (∀ (schedule : List Turn) (timeout : Option Nat) (stats : DispatchStats),
      let v := visited schedule routines window (h.ring, t)
      v.shared.release.released? = some v.shared.consumed ∧
      ∃ j ≤ (Reservation.mk window).packets.length,
        let n := Placed.byteCount ((Reservation.mk window).packets.take j)
        let h' := (h.run (schedule.filterMap Turn.action?)).step (.consume n)
        Reaches window v.marked n ∧
        (onceUnder schedule routines timeout).exec (stats, (h.ring, t)) =
          (.ok n, (stats.count window (.packets n), (h'.ring, v.state))) ∧
        Resumes h h' window n j) ∧
    ∀ ms : List Placed, (∀ routine ∈ routines, (routine ⟨window⟩).Only (· ∈ ms)) →
      (∀ p ∈ ms, ∃ routine ∈ routines, (routine ⟨window⟩).Surely p) →
      ∃ n, Reaches window ms n ∧ ∀ routines' : List (Routine τ), routines'.Perm routines →
        ∀ (schedule : List Turn) (t : τ) (timeout : Option Nat) (stats : DispatchStats),
          ((onceUnder schedule routines' timeout).exec (stats, (h.ring, t))).1 = .ok n := by
  intro h
  have hs : h.Sound size := sound_run (sound_start hr) actions
  refine ⟨?_, ?_, ?_⟩
  · intro schedule shown s
    exact (ended_visited schedule s fun routine _ ↦ (routine ⟨shown⟩).only_true).given
  · intro schedule timeout stats v
    obtain ⟨j, hj, hreaches, hexec⟩ :=
      exec_onceUnder_reaches hw hv hwalk schedule t timeout stats
    exact ⟨(ended_visited schedule (h.ring, t) hwalk).released, j, hj, hreaches, hexec,
      resumes_consume hs hw (consume_not_mem_actions schedule) j⟩
  · intro ms honly hsurely
    have hms : ∀ p ∈ ms, p ∈ (Reservation.mk window).packets := fun p hp ↦
      Reservation.obtained_iff.mp ((ended_visited [] (h.ring, t) hwalk).marked p
        (mem_marked_visited [] (h.ring, t) (hsurely p hp)))
    obtain ⟨j, hj⟩ := exists_releases hv hms
    refine ⟨_, hj.reaches, fun routines' hperm schedule t timeout stats ↦ ?_⟩
    have honly' : ∀ routine ∈ routines', (routine ⟨window⟩).Only (· ∈ ms) := fun routine hm ↦
      honly routine (hperm.mem_iff.mp hm)
    have hsurely' : ∀ p ∈ ms, ∃ routine ∈ routines', (routine ⟨window⟩).Surely p := fun p hp ↦
      (hsurely p hp).imp fun _ hm ↦ ⟨hperm.mem_iff.mpr hm.1, hm.2⟩
    obtain ⟨_, _, hreaches, hexec⟩ := exec_onceUnder_reaches hw hv
      (fun routine hm ↦ hwalk routine (hperm.mem_iff.mp hm)) schedule t timeout stats
    have hmarked := (ended_visited schedule (h.ring, t) honly').marked
    rw [hexec, hreaches.unique hj.reaches fun p ↦
      ⟨hmarked p, fun hp ↦ mem_marked_visited schedule (h.ring, t) (hsurely' p hp)⟩]

/-- Across the end of a ring two handlers mark the first two of three packets, the later one first:
both packets are released in either order. -/
theorem onceUnder_releases_furthest_across_end :
    let r : Ring := ⟨.empty 100, .empty, none⟩
    let actions : List Ring.Action := [.push (Bytes.zeros 64), .consume 64, .push (Bytes.zeros 72)]
    let window := Bytes.zeros 72
    let marking (find : Reservation → Option Placed) : Routine Unit := fun reservation ↦
      match find reservation with
      | some p => .mark p .done
      | none => .done
    let first := marking (·.first?)
    let second := marking fun reservation ↦ reservation.first?.bind reservation.next?
    let ring := ((start r).run actions).ring
    let schedule : List Turn := [.start, .start, .go 1, .push [1, 2, 3, 4], .go 0]
    Ring.create 100 = .ok r ∧ ring.wait = .ok window ∧ Packet.validLength? window = some 24 ∧
      ((onceUnder schedule [first, second] none).exec (.zero, (ring, ()))).1 = .ok 48 ∧
      ((onceUnder [] [second, first] none).exec (.zero, (ring, ()))).1 = .ok 48 := by
  intro r actions window marking first second ring schedule
  let packet : Packet := ⟨⟨0, 0, 0, 0, 0, 0⟩, []⟩
  let ms : List Placed := [⟨some 0, packet⟩, ⟨some 24, packet⟩]
  have hr : Ring.create 100 = .ok r := by rfl
  have hwait : ring.wait = .ok window := by
    rw [Ring.wait_eq_ok_iff (sound_run (sound_start hr) actions).ring]
    decide +kernel
  have hvalid : Packet.validLength? window = some 24 := by decide +kernel
  have hfirst : (Reservation.mk window).first? = some ⟨some 0, packet⟩ := by decide +kernel
  have hsecond : (Reservation.mk window).next? ⟨some 0, packet⟩ = some ⟨some 24, packet⟩ := by
    decide +kernel
  have htasks : first ⟨window⟩ = .mark ⟨some 0, packet⟩ .done ∧
      second ⟨window⟩ = .mark ⟨some 24, packet⟩ .done := by
    dsimp only [first, second, marking]
    rw [hfirst, Option.bind_some, hsecond]
    exact ⟨rfl, rfl⟩
  have honly {P : Placed → Prop} (h₀ : P ⟨some 0, packet⟩) (h₁ : P ⟨some 24, packet⟩) :
      ∀ routine ∈ [first, second], (routine ⟨window⟩).Only P := by
    rw [List.forall_mem_cons, List.forall_mem_singleton, htasks.1, htasks.2]
    exact ⟨⟨h₀, trivial⟩, ⟨h₁, trivial⟩⟩
  have hsurely : ∀ p ∈ ms, ∃ routine ∈ [first, second], (routine ⟨window⟩).Surely p := by
    rw [List.forall_mem_cons, List.forall_mem_singleton]
    exact ⟨⟨first, .head _, htasks.1 ▸ .inl rfl⟩, ⟨second, .tail _ (.head _), htasks.2 ▸ .inl rfl⟩⟩
  obtain ⟨_, _, horder⟩ := onceUnder_releases_furthest hr actions hwait
    (hvalid ▸ Option.some_ne_none 24) (honly (.first hfirst) (.next (.first hfirst) hsecond)) ()
  obtain ⟨n, hn, hanswer⟩ := horder ms (honly (.head _) (.tail _ (.head _))) hsurely
  have hends : Reservation.endOf? ⟨window⟩ ⟨some 0, packet⟩ = some 24 ∧
      Reservation.endOf? ⟨window⟩ ⟨some 24, packet⟩ = some 48 := by decide +kernel
  have hreaches : Reaches window ms 48 := by
    refine ⟨nofun, fun _ ↦ ⟨_, .tail _ (.head _), hends.2⟩, ?_⟩
    rw [List.forall_mem_cons, List.forall_mem_singleton]
    exact ⟨⟨24, by decide, hends.1⟩, ⟨48, by decide, hends.2⟩⟩
  obtain rfl : n = 48 := hn.unique hreaches fun _ ↦ Iff.rfl
  exact ⟨hr, hwait, hvalid, hanswer _ (.refl _) schedule () none .zero,
    hanswer _ (.swap _ _ _) [] () none .zero⟩

end Dispatch

end DetectorLink
