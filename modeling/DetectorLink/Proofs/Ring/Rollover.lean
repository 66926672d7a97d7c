import DetectorLink.Proofs.Packet.Scan
import DetectorLink.Proofs.Ring.Queue

/-!
# What the rollover shows

A window across the end of a ring goes on until it is as long as the longest packet. So a complete
packet at the front of what is pending is in the next window, wherever it lies, also in a ring that
is shorter than that. And a window loses nothing of what it showed: pushing does not shorten it, and
releasing bytes shortens it by no more than those.
-/

namespace DetectorLink

namespace RingIndex

variable {i : RingIndex} {n : Nat}

/-- Writing does not shorten a span. -/
theorem window_length_le_produce (h : i.WellFormed) (hn : n ≤ i.free) (hm : n % 4 = 0)
    (rollover : Nat) : (i.window rollover).length ≤ ((i.produce n).window rollover).length := by
  rw [window_length_eq h, window_length_eq (wellFormed_produce h hn hm), used_produce h hn hm,
    consumer_produce, size_produce]
  omega

/-- Reading shortens a span by no more than what was read. -/
theorem window_length_le_consume (h : i.WellFormed) (hn : n ≤ i.used) (hm : n % 4 = 0)
    (rollover : Nat) :
    (i.window rollover).length ≤ n + ((i.consume n).window rollover).length := by
  have hc := h.consumer_lt
  rw [window_length_eq h, window_length_eq (wellFormed_consume h hn hm), used_consume h hn hm,
    consumer_consume h hn, size_consume, place]
  split <;> omega

end RingIndex

namespace Ring

variable {r : Ring} {n : Nat}

/-- Pushing does not shorten the window. -/
theorem length_window_le_push (h : r.WellFormed) (data : Bytes) :
    r.window.length ≤ (r.push data).2.window.length := by
  rw [length_window h, length_window (wellFormed_push h data)]
  rcases push_cases r data with ⟨_, hp⟩ | ⟨_, _, hp⟩ | ⟨_, hp⟩
  · exact hp ▸ Nat.le_refl _
  · exact hp ▸ Nat.le_refl _
  · have hn := fst_push r data
    have hm := fst_push_mod h data
    rw [hp] at hn hm
    rw [hp, index_publish, index_copyIn]
    exact RingIndex.window_length_le_produce h.offsets (hn ▸ Nat.min_le_right _ _) hm _

/-- Consuming shortens the window by no more than what is consumed. -/
theorem length_window_le_consume (h : r.WellFormed) (n : Nat) :
    r.window.length ≤ alignDown n + (r.consume n).window.length := by
  have hu : r.used % 4 = 0 := RingIndex.used_mod h.offsets
  have hn := alignDown_mod n
  have hle := RingIndex.window_length_le_consume h.offsets
    (Nat.min_le_right (alignDown n) r.used) (by omega) rolloverLimit
  rw [length_window h, length_window (wellFormed_consume h n), index_consume]
  omega

/-- The next window starts with a packet exactly if what is pending does. -/
theorem validLength?_window (h : r.WellFormed) :
    Packet.validLength? r.window = Packet.validLength? r.pending := by
  rcases window_eq_pending_or_le h with hw | hw
  · rw [hw]
  · apply Option.ext
    intro n
    rw [window_eq h, Packet.validLength?_take_iff, and_iff_left_iff_imp, ← length_window h]
    intro hn
    exact Nat.le_trans (Packet.validLength?_bounds hn).2.1 hw

namespace History

variable {size : Nat} {h : History}

/-- What was accepted stays accepted, and what was consumed stays consumed. -/
theorem run_le (h : History) (actions : List Action) :
    h.accepted <+: (h.run actions).accepted ∧ h.consumed ≤ (h.run actions).consumed := by
  induction actions generalizing h with
  | nil => exact ⟨List.prefix_rfl, Nat.le_refl _⟩
  | cons action actions ih =>
    have hstep : h.accepted <+: (h.step action).accepted ∧
        h.consumed ≤ (h.step action).consumed := by
      cases action with
      | push data => exact ⟨List.prefix_append _ _, Nat.le_refl _⟩
      | fail e => exact ⟨List.prefix_rfl, Nat.le_refl _⟩
      | wait timeout => exact ⟨List.prefix_rfl, Nat.le_refl _⟩
      | consume n => exact ⟨List.prefix_rfl, Nat.le_add_right _ _⟩
    obtain ⟨haccepted, hconsumed⟩ := ih (h.step action)
    exact ⟨hstep.1.trans haccepted, Nat.le_trans hstep.2 hconsumed⟩

/-- Until something is consumed the window is not shortened. -/
theorem length_window_le_run (hs : h.Sound size) {actions : List Action}
    (ha : ∀ n, .consume n ∉ actions) :
    (h.run actions).consumed = h.consumed ∧
      h.ring.window.length ≤ (h.run actions).ring.window.length := by
  induction actions generalizing h with
  | nil => exact ⟨rfl, Nat.le_refl _⟩
  | cons action actions ih =>
    have hrest := ih (sound_step hs action) fun n hn ↦ ha n (List.mem_cons_of_mem action hn)
    cases action with
    | push data => exact ⟨hrest.1, Nat.le_trans (length_window_le_push hs.ring data) hrest.2⟩
    | fail e => exact hrest
    | wait timeout => exact hrest
    | consume n => exact absurd List.mem_cons_self (ha n)

/-- A ring of any size it can be made with, in any state without an error that actions lead to: if
the bytes that were accepted and not consumed start with a complete packet, a wait shows a window
that starts with all of it, and at least this packet is counted there. -/
theorem run_shows_pending_packet {size : Nat} (hr : Ring.create size = .ok r)
    (actions : List Action) :
    let h := (start r).run actions
    h.ring.error = none → Packet.validLength? (h.accepted.drop h.consumed) = some n →
    ∀ timeout, ∃ window, (Ring.source.wait timeout).exec h.ring = (.ok window, h.ring) ∧
      n ≤ window.length ∧ window.take n = (h.accepted.drop h.consumed).take n ∧
      Packet.validLength? window = some n ∧
      n ≤ (Packet.validPrefix window).1 ∧ 1 ≤ (Packet.validPrefix window).2 := by
  intro h he hn timeout
  have hs : h.Sound size := sound_run (sound_start hr) actions
  rw [← hs.pending] at hn ⊢
  have hw : Packet.validLength? h.ring.window = some n := (validLength?_window hs.ring).trans hn
  have hlen := (Packet.validLength?_bounds hw).2.2.2
  have hu : 0 < h.ring.used := by
    have hmin := (Packet.validLength?_bounds hn).1
    have hle := (Packet.validLength?_bounds hn).2.2.2
    rw [length_pending hs.ring] at hle
    simp only [Packet.minLength, Header.byteCount] at hmin
    omega
  have hwait : h.ring.wait = .ok h.ring.window :=
    (wait_eq_ok_iff hs.ring).mpr ⟨he, hu, rfl⟩
  refine ⟨h.ring.window, congrArg (·, h.ring) hwait, hlen, ?_, hw, ?_, ?_⟩
  · rw [window_eq hs.ring, List.take_take, ← length_window hs.ring, Nat.min_eq_left hlen]
  · rw [Packet.validPrefix_of_validLength? hw]
    exact Nat.le_add_right _ _
  · rw [Packet.validPrefix_of_validLength? hw]
    exact Nat.le_add_left _ _

/-- A packet of 28 bytes, of which 8 lie before the end of a ring of 36 bytes, is shown in one
piece. -/
theorem run_shows_pending_packet_across_end :
    let r : Ring := ⟨.empty 36, .empty, none⟩
    let packet : Bytes := List.replicate 12 0 ++ 4 :: List.replicate 11 0 ++ [1, 2, 3, 4]
    let h := (start r).run [.push (Bytes.zeros 28), .consume 28, .push packet]
    Ring.create 36 = .ok r ∧ h.ring.index.consumer = 28 ∧
      ∃ window, (Ring.source.wait none).exec h.ring = (.ok window, h.ring) ∧
        window.take 28 = packet ∧ 1 ≤ (Packet.validPrefix window).2 := by
  intro r packet h
  have hr : Ring.create 36 = .ok r := by rfl
  have herror : h.ring.error = none := by decide
  have hpending : h.accepted.drop h.consumed = packet := by decide
  have hvalid : Packet.validLength? (h.accepted.drop h.consumed) = some 28 := by
    rw [hpending]
    decide +kernel
  obtain ⟨window, hw, _, htake, _, _, hcount⟩ := run_shows_pending_packet hr
    [.push (Bytes.zeros 28), .consume 28, .push packet] herror hvalid none
  refine ⟨hr, by decide, window, hw, ?_, hcount⟩
  rw [htake, hpending]
  decide

end History

end Ring

end DetectorLink
