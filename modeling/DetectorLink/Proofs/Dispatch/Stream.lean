import DetectorLink.Proofs.Dispatch.Progress
import DetectorLink.Proofs.Ring.Queue

/-!
# Delivery of a stream through a ring

A producer pushes a stream into a ring in pieces of any size, a dispatcher shows its windows to
watchers, which mark nothing. Pushes may come between two dispatches and while the watchers look at
a window. However the stream is cut and wherever the ring wraps, every watcher is shown the first
packets of the scan of the accepted stream, and the counters agree with what was shown and released.
-/

namespace DetectorLink.Dispatch

variable {τ : Type}

/-- Works on `τ` when it is shown a window, and marks nothing. -/
abbrev Watcher (τ : Type) := Reservation → τ → τ

/-- A ring with the watchers of its windows, what went into it and what they were shown. -/
structure Session (τ : Type) where
  /-- The ring. -/
  ring : Ring
  /-- The accepted parts of all pushed data, one after the other. -/
  stream : Bytes
  /-- What the watchers work on. -/
  own : τ
  /-- The packets that each watcher was shown. -/
  seen : Nat → List Packet

/-- What happens in a session. -/
inductive Event where
  /-- The producer pushes data. -/
  | push (data : Bytes)
  /-- A dispatch, with the data that is pushed while the watchers look at the window. -/
  | dispatch (timeout : Option Nat) (arriving : List Bytes)
  deriving DecidableEq, Repr

namespace Session

/-- A session in which nothing happened. -/
def start (r : Ring) (own : τ) : Session τ := ⟨r, [], own, fun _ ↦ []⟩

/-- The ring of a session. -/
def ringPart : Part (Session τ) Ring := ⟨ring, fun r s ↦ { s with ring := r }⟩

/-- The producer pushes data. -/
def push (s : Session τ) (data : Bytes) : Session τ :=
  let (n, ring) := s.ring.push data
  { s with ring, stream := s.stream ++ data.take n }

/-- A watcher as a handler that notes what it is shown under its number. -/
def watch (i : Nat) (w : Watcher τ) : Handler (Session τ) := fun reservation ↦ do
  modify fun s ↦ { s with
    own := w reservation s.own
    seen := fun j ↦ if j = i then s.seen j ++ reservation.packetList else s.seen j }
  return []

/-- The data that is pushed while a window is looked at. -/
def arrive (chunks : List Bytes) : Handler (Session τ) := fun _ ↦ do
  modify fun s ↦ chunks.foldl push s
  return []

/-- What looks at a window: the watchers under their numbers, while data arrives. -/
def handlers (watchers : List (Watcher τ)) (arriving : List Bytes) : List (Handler (Session τ)) :=
  arrive arriving :: watchers.zipIdx.map fun w ↦ watch w.2 w.1

/-- What happens to the counters of the dispatcher and to the session. -/
def step (watchers : List (Watcher τ)) (s : DispatchStats × Session τ) :
    Event → DispatchStats × Session τ
  | .push data => (s.1, s.2.push data)
  | .dispatch timeout arriving =>
    ((once (Ring.source.within ringPart) (handlers watchers arriving) timeout).exec s).2

/-- What happens in events, one after the other. -/
def run (watchers : List (Watcher τ)) (s : DispatchStats × Session τ) (events : List Event) :
    DispatchStats × Session τ :=
  events.foldl (step watchers) s

/-- The session after the watchers were shown a window. -/
def shown (watchers : List (Watcher τ)) (reservation : Reservation) (s : Session τ) : Session τ :=
  { s with
    own := watchers.foldl (fun own w ↦ w reservation own) s.own
    seen := fun i ↦ if i < watchers.length then s.seen i ++ reservation.packetList else s.seen i }

theorem unmarking_handlers (watchers : List (Watcher τ)) (arriving : List Bytes) :
    ∀ h ∈ handlers watchers arriving, Unmarking h := by
  intro h hh
  rcases List.mem_cons.mp hh with rfl | hh
  · exact fun _ _ ↦ rfl
  · obtain ⟨w, _, rfl⟩ := List.mem_map.mp hh
    exact fun _ _ ↦ rfl

private theorem effects_watchers (watchers : List (Watcher τ)) (k : Nat) (window : Bytes)
    (s : Session τ) :
    effects ((watchers.zipIdx k).map fun w ↦ watch w.2 w.1) window s =
      { s with
        own := watchers.foldl (fun own w ↦ w ⟨window⟩ own) s.own
        seen := fun i ↦ if k ≤ i ∧ i < k + watchers.length
          then s.seen i ++ Reservation.packetList ⟨window⟩ else s.seen i } := by
  induction watchers generalizing k s with
  | nil =>
    have hn (i : Nat) : ¬(k ≤ i ∧ i < k + 0) := by omega
    simp only [List.length_nil, hn, ite_false]
    rfl
  | cons w rest ih =>
    have hstep : effects (((w :: rest).zipIdx k).map fun w ↦ watch w.2 w.1) window s =
        effects ((rest.zipIdx (k + 1)).map fun w ↦ watch w.2 w.1) window
          (((watch k w ⟨window⟩).run s).2) := rfl
    rw [hstep, ih]
    show Session.mk _ _ _ _ = Session.mk _ _ _ _
    congr 1
    funext i
    by_cases hi : i = k
    · rw [ite_cond_eq_false _ _ (eq_false (by omega)),
        ite_cond_eq_true _ _ (eq_true (by rw [List.length_cons]; omega))]
      exact ite_cond_eq_true _ _ (eq_true hi)
    · have hseen : (((watch k w ⟨window⟩).run s).2).seen i = s.seen i :=
        ite_cond_eq_false _ _ (eq_false hi)
      rw [hseen]
      congr 1
      rw [List.length_cons]
      exact propext ⟨fun h ↦ by omega, fun h ↦ by omega⟩

/-- The watchers are shown the window, and what arrives meanwhile is pushed. -/
theorem effects_handlers (watchers : List (Watcher τ)) (arriving : List Bytes) (window : Bytes)
    (s : Session τ) :
    effects (handlers watchers arriving) window s =
      (arriving.foldl push s).shown watchers ⟨window⟩ := by
  have hstep : effects (handlers watchers arriving) window s =
      effects (watchers.zipIdx.map fun w ↦ watch w.2 w.1) window (arriving.foldl push s) := rfl
  rw [hstep, effects_watchers]
  simp only [Nat.zero_le, true_and, Nat.zero_add]
  rfl

/-- What is kept in a session with `k` watchers: the ring is in order and holds the stream
behind what was released; each watcher was shown the packets `delivered`, behind which the scan of
the stream goes on in the ring, however the stream goes on; the counters agree with them. -/
structure Sound (k : Nat) (delivered : List Bytes) (stats : DispatchStats)
    (s : Session τ) : Prop where
  ring : s.ring.WellFormed
  released_le : stats.bytes ≤ s.stream.length
  pending : s.ring.pending = s.stream.drop stats.bytes
  scan : ∀ more, Packet.scan (s.stream ++ more) =
    delivered ++ Packet.scan (s.ring.pending ++ more)
  seen : ∀ i < k, (s.seen i).map Packet.bytes = delivered
  bytes : stats.bytes = delivered.flatten.length + alignment * stats.resyncs
  packets : stats.packets = delivered.length

variable {k : Nat} {delivered : List Bytes} {stats : DispatchStats} {s : Session τ}

theorem sound_start {size : Nat} {r : Ring} (hr : Ring.create size = .ok r) (own : τ) :
    (start r own).Sound k [] .zero := by
  have hp : r.pending = [] := (Ring.History.sound_start hr).pending
  exact ⟨Ring.wellFormed_create hr, Nat.le_refl _, hp, fun more ↦ by rw [start, hp]; rfl,
    fun _ _ ↦ rfl, rfl, rfl⟩

/-- Pushing appends to the stream and to what is pending alike. -/
theorem sound_push (hs : s.Sound k delivered stats) (data : Bytes) :
    (s.push data).Sound k delivered stats := by
  have hp := Ring.pending_push hs.ring data
  refine ⟨Ring.wellFormed_push hs.ring data, ?_, ?_, fun more ↦ ?_, hs.seen, hs.bytes,
    hs.packets⟩
  · simp only [push, List.length_append]
    exact Nat.le_trans hs.released_le (Nat.le_add_right _ _)
  · simp only [push]
    rw [hp, hs.pending, List.drop_append_of_le_length hs.released_le]
  · simp only [push]
    rw [hp, List.append_assoc, List.append_assoc]
    exact hs.scan _

theorem sound_pushes (hs : s.Sound k delivered stats) (chunks : List Bytes) :
    (chunks.foldl push s).Sound k delivered stats := by
  induction chunks generalizing s with
  | nil => exact hs
  | cons data rest ih => exact ih (sound_push hs data)

/-- Bytes that start what is pending still do after any pushes. -/
theorem isPrefix_pending_pushes (hs : s.Sound k delivered stats) (chunks : List Bytes) :
    s.ring.pending <+: (chunks.foldl push s).ring.pending := by
  induction chunks generalizing s with
  | nil => exact List.prefix_rfl
  | cons data rest ih =>
    have hp : (s.push data).ring.pending = s.ring.pending ++ _ := Ring.pending_push hs.ring data
    exact (hp ▸ List.prefix_append _ _).trans (ih (sound_push hs data))

/-- Showing a window at the start of what is pending, and releasing what it says, delivers the
packets of the window. -/
theorem sound_release {watchers : List (Watcher τ)}
    (hs : s.Sound watchers.length delivered stats) {window : Bytes} (hw : window <+: s.ring.pending)
    {r : Ring} (hr : r.WellFormed)
    (hp : r.pending = s.ring.pending.drop (Progress.ofWindow window 0).bytes) :
    { s.shown watchers ⟨window⟩ with ring := r }.Sound watchers.length
      (delivered ++ (Packet.walk window).map Packet.bytes)
      (stats.count window (Progress.ofWindow window 0)) := by
  obtain ⟨rest, hrest⟩ := hw
  have hle := Progress.bytes_ofWindow_zero_le window
  have hlen : window.length ≤ s.ring.pending.length := by
    rw [← hrest, List.length_append]
    exact Nat.le_add_right _ _
  have hpl : s.ring.pending.length = s.stream.length - stats.bytes := by
    rw [hs.pending, List.length_drop]
  refine ⟨hr, ?_, ?_, fun more ↦ ?_, fun i hi ↦ ?_, ?_, ?_⟩
  · show stats.bytes + _ ≤ s.stream.length
    have := hs.released_le
    omega
  · show r.pending = s.stream.drop (stats.bytes + _)
    rw [hp, hs.pending, List.drop_drop]
  · -- the scan takes the packets of the window and goes on behind what is released of it
    show Packet.scan (s.stream ++ more) = _
    rw [hs.scan, ← hrest, List.append_assoc, Progress.scan_append_eq_walk, ← List.append_assoc,
      ← List.append_assoc window, hrest, List.drop_append_of_le_length (Nat.le_trans hle hlen),
      ← hp]
  · simp only [shown, hi, ite_true]
    rw [List.map_append, hs.seen i hi, Reservation.packetList_eq]
  · have hb := Progress.bytes_ofWindow_zero window
    have hc := hs.bytes
    simp only [DispatchStats.count, List.flatten_append, List.length_append, Nat.mul_add]
    omega
  · have hc : (Packet.validPrefix window).2 = _ :=
      congrArg Prod.snd (Packet.validPrefix_eq window)
    show stats.packets + _ = _
    rw [hc, hs.packets, List.length_append, List.length_map]

private theorem release_within_ringPart (n : Nat) (s : Session τ) :
    ((Ring.source.within ringPart).release n).exec s =
      (.ok (), { s with ring := s.ring.consume n }) := rfl

/-- A dispatch without a window changes nothing; with one it shows and counts the window while
data arrives, and releases what the window says. -/
theorem step_dispatch_cases (watchers : List (Watcher τ)) (stats : DispatchStats)
    (timeout : Option Nat) (arriving : List Bytes) (hr : s.ring.WellFormed) :
    (∃ e, s.ring.wait = .error e ∧
      step watchers (stats, s) (.dispatch timeout arriving) = (stats, s)) ∨
    (s.ring.wait = .ok s.ring.window ∧
      let progress := Progress.ofWindow s.ring.window 0
      let shown := (arriving.foldl push s).shown watchers ⟨s.ring.window⟩
      step watchers (stats, s) (.dispatch timeout arriving) =
        (stats.count s.ring.window progress, { shown with ring :=
          if progress.bytes = 0 then shown.ring else shown.ring.consume progress.bytes })) := by
  have hwait {r : Except LinkError Bytes} (hw : s.ring.wait = r) :
      ((Ring.source.within ringPart).wait timeout).exec s = (r, s) := congrArg (·, s) hw
  have hcases : (∃ e, s.ring.wait = .error e) ∨ s.ring.wait = .ok s.ring.window := by
    cases hw : s.ring.wait with
    | error e => exact .inl ⟨e, rfl⟩
    | ok window => exact .inr (congrArg Except.ok ((Ring.wait_eq_ok_iff hr).mp hw).2.2)
  rcases hcases with ⟨e, hw⟩ | hw
  · refine .inl ⟨e, hw, ?_⟩
    rw [step, once_of_wait_error (hwait hw)]
  · refine .inr ⟨hw, ?_⟩
    rw [step, once_of_wait_ok release_within_ringPart (unmarking_handlers watchers arriving)
      (hwait hw), effects_handlers]
    by_cases hz : (Progress.ofWindow s.ring.window 0).bytes = 0
    · simp only [hz, ite_true]
    · simp only [hz, ite_false]

/-- Every event keeps the session sound and adds to what was delivered. -/
theorem sound_step {watchers : List (Watcher τ)} (hs : s.Sound watchers.length delivered stats)
    (event : Event) :
    ∃ more, (step watchers (stats, s) event).2.Sound watchers.length (delivered ++ more)
      (step watchers (stats, s) event).1 := by
  cases event with
  | push data => exact ⟨[], (List.append_nil delivered).symm ▸ sound_push hs data⟩
  | dispatch timeout arriving =>
    rcases step_dispatch_cases watchers stats timeout arriving hs.ring with
      ⟨_, _, hstep⟩ | ⟨_, hstep⟩
    · exact ⟨[], by rwa [hstep, List.append_nil]⟩
    · have ha := sound_pushes hs arriving
      have hw := (Ring.isPrefix_window hs.ring).trans (isPrefix_pending_pushes hs arriving)
      have hle := Nat.le_trans (Progress.bytes_ofWindow_zero_le s.ring.window) hw.length_le
      obtain ⟨hr, hp⟩ := Ring.pending_release ha.ring (Progress.bytes_mod _) hle
      rw [hstep]
      exact ⟨_, sound_release ha hw hr hp⟩

/-- Any events keep the session sound and add to what was delivered. -/
theorem sound_run {watchers : List (Watcher τ)} (hs : s.Sound watchers.length delivered stats)
    (events : List Event) :
    ∃ more, (run watchers (stats, s) events).2.Sound watchers.length (delivered ++ more)
      (run watchers (stats, s) events).1 := by
  induction events generalizing stats s delivered with
  | nil => exact ⟨[], (List.append_nil delivered).symm ▸ hs⟩
  | cons event rest ih =>
    obtain ⟨first, hf⟩ := sound_step hs event
    obtain ⟨more, hm⟩ := ih hf
    exact ⟨first ++ more, List.append_assoc delivered first more ▸ hm⟩

/-- A dispatch that finds no error and releases nothing leaves no packet of the stream. -/
theorem scan_pending_eq_nil {watchers : List (Watcher τ)} (hs : s.Sound k delivered stats)
    (he : s.ring.error = none) {timeout : Option Nat} {arriving : List Bytes}
    (hb : (step watchers (stats, s) (.dispatch timeout arriving)).1.bytes = stats.bytes) :
    Packet.scan s.ring.pending = [] := by
  rcases step_dispatch_cases watchers stats timeout arriving hs.ring with ⟨e, hw, _⟩ | ⟨_, hstep⟩
  · have hu : s.ring.used = 0 := Nat.eq_zero_of_not_pos fun hpos ↦ by
      rw [(Ring.wait_eq_ok_iff hs.ring).mpr ⟨he, hpos, rfl⟩] at hw
      contradiction
    rw [List.eq_nil_of_length_eq_zero ((Ring.length_pending hs.ring).trans hu)]
    exact Packet.scan_of_partial rfl rfl
  · have hz : (Progress.ofWindow s.ring.window 0).bytes = 0 := by
      rw [hstep] at hb
      simp only [DispatchStats.count] at hb
      omega
    obtain ⟨hv, hc⟩ := (Progress.bytes_ofWindow_zero_eq_zero_iff _).mp hz
    rw [← Ring.window_eq_pending_of_partial hs.ring hv hc]
    exact Packet.scan_of_partial hv hc

/-- A ring of any size it can be made with, any watchers, and any pushes and dispatches: every
watcher was shown the same packets, the first of the scan of the accepted stream; what was released
is what is no longer in the ring, namely those packets and the skipped words; as many packets are
counted as were shown; and once a dispatch without an error releases nothing, all packets of the
stream were shown. -/
theorem run_delivers_scan {size : Nat} {r : Ring} (hr : Ring.create size = .ok r)
    (watchers : List (Watcher τ)) (own : τ) (events : List Event) :
    let (stats, s) := run watchers (.zero, start r own) events
    ∃ delivered, delivered <+: Packet.scan s.stream ∧
      (∀ i < watchers.length, (s.seen i).map Packet.bytes = delivered) ∧
      stats.bytes + s.ring.used = s.stream.length ∧
      stats.bytes = delivered.flatten.length + alignment * stats.resyncs ∧
      stats.packets = delivered.length ∧
      (∀ timeout arriving, s.ring.error = none →
        (step watchers (stats, s) (.dispatch timeout arriving)).1.bytes = stats.bytes →
        delivered = Packet.scan s.stream) := by
  obtain ⟨delivered, hs⟩ := sound_run (sound_start hr own) events
  generalize run watchers (.zero, start r own) events = result at hs
  obtain ⟨stats, s⟩ := result
  rw [List.nil_append] at hs
  have hscan : Packet.scan s.stream = delivered ++ Packet.scan s.ring.pending := by
    have h := hs.scan []
    rwa [List.append_nil, List.append_nil] at h
  have hused : s.ring.used = s.stream.length - stats.bytes := by
    rw [← Ring.length_pending hs.ring, hs.pending, List.length_drop]
  refine ⟨delivered, hscan ▸ List.prefix_append _ _, hs.seen, ?_, hs.bytes, hs.packets, ?_⟩
  · rw [hused]
    exact Nat.add_sub_of_le hs.released_le
  · intro timeout arriving he hb
    rw [hscan, scan_pending_eq_nil hs he hb, List.append_nil]

/-- Two packets of 24 bytes, the second in two pieces around the end of a ring of 36 bytes. -/
theorem run_delivers_scan_across_end :
    let a : Bytes := List.replicate 24 0
    let b : Bytes := 1 :: List.replicate 23 0
    let r : Ring := ⟨.empty 36, .empty, none⟩
    let result := run [fun _ n ↦ n + 1] (.zero, start r 0)
      [.push (a.take 8), .dispatch none [], .push (a.drop 8), .dispatch none [b.take 8],
        .push (b.drop 8), .dispatch none []]
    Ring.create 36 = .ok r ∧ (result.2.seen 0).map Packet.bytes = [a, b] ∧
      [a, b] <+: Packet.scan result.2.stream ∧
      result.1.bytes + result.2.ring.used = result.2.stream.length := by
  intro a b r result
  have hr : Ring.create 36 = .ok r := by rfl
  have hseen : (result.2.seen 0).map Packet.bytes = [a, b] := by
    simp only [result, r, a, b]
    decide +kernel
  obtain ⟨delivered, hscan, hall, hbytes, _⟩ := run_delivers_scan hr [fun _ n ↦ n + 1] 0
    [.push (a.take 8), .dispatch none [], .push (a.drop 8), .dispatch none [b.take 8],
      .push (b.drop 8), .dispatch none []]
  have hd : [a, b] = delivered := hseen.symm.trans (hall 0 (by decide))
  exact ⟨hr, hseen, hd ▸ hscan, hbytes⟩

end Session

end DetectorLink.Dispatch
