import DetectorLink.Proofs.Packet.Parse
import DetectorLink.Proofs.Ring.Contents

/-!
# A ring is a bounded queue of bytes

A history remembers what a ring accepted and how much of it was consumed. After any pushes, waits,
consumes and recorded errors the pending bytes are the accepted ones that were not consumed. From
this follow the number of bytes that a push accepts, the bytes that a window shows, and the number
of bytes that a consume releases.
-/

namespace DetectorLink.Ring

variable {r : Ring} {n : Nat}

/-- The three outcomes of a push: too little data, no room, or an accepted part. -/
theorem push_cases (r : Ring) (data : Bytes) :
    (alignDown data.length = 0 ∧ r.push data = (0, r)) ∨
    (alignDown data.length ≠ 0 ∧ r.index.free = 0 ∧ r.push data = (0, r.setError .overflow)) ∨
    (r.accepts data.length ≠ 0 ∧ r.push data =
      (r.accepts data.length,
        (r.copyIn (data.take (r.accepts data.length))).publish (r.accepts data.length))) := by
  by_cases hd : alignDown data.length = 0
  · exact .inl ⟨hd, by simp only [push, hd, ite_true]⟩
  · by_cases hn : r.accepts data.length = 0
    · have hf : r.index.free = 0 := by
        simp only [accepts] at hn
        omega
      exact .inr (.inl ⟨hd, hf, by simp only [push, hd, hn, ite_false, ite_true]⟩)
    · exact .inr (.inr ⟨hn, by simp only [push, hd, hn, ite_false]⟩)

/-- A push accepts the whole units of the data that fit. -/
theorem fst_push (r : Ring) (data : Bytes) :
    (r.push data).1 = min (alignDown data.length) r.index.free := by
  rcases push_cases r data with ⟨hd, hp⟩ | ⟨_, hf, hp⟩ | ⟨_, hp⟩
  · rw [hp, hd, Nat.zero_min]
  · rw [hp, hf, Nat.min_zero]
  · rw [hp, accepts]

private theorem accepted_units (h : r.WellFormed) (data : Bytes) :
    let accepted := data.take (r.accepts data.length)
    accepted.length = r.accepts data.length ∧ accepted.length ≤ r.index.free ∧
      accepted.length % 4 = 0 := by
  intro accepted
  have hd := alignDown_le data.length
  have hm := alignDown_mod data.length
  have hs := h.offsets.size_mod
  have hu := RingIndex.used_mod h.offsets
  have hf := RingIndex.free_eq h.offsets
  have hl : accepted.length = r.accepts data.length := by
    apply List.length_take_of_le
    simp only [accepts]
    omega
  refine ⟨hl, ?_, ?_⟩
  · rw [hl]
    exact Nat.min_le_right _ _
  · rw [hl]
    simp only [accepts, alignment] at *
    omega

theorem wellFormed_setError (h : r.WellFormed) (e : LinkError) : (r.setError e).WellFormed :=
  ⟨h.offsets, h.written_le, h.producer_le, h.wrapped⟩

/-- Pushing keeps the ring in order. -/
theorem wellFormed_push (h : r.WellFormed) (data : Bytes) : (r.push data).2.WellFormed := by
  rcases push_cases r data with ⟨_, hp⟩ | ⟨_, _, hp⟩ | ⟨_, hp⟩
  · rwa [hp]
  · rw [hp]
    exact wellFormed_setError h .overflow
  · obtain ⟨hl, hf, hm⟩ := accepted_units h data
    have hw := wellFormed_publish_copyIn h hf hm
    rw [hl] at hw
    rwa [hp]

/-- Pushing appends what was accepted to what is pending. -/
theorem pending_push (h : r.WellFormed) (data : Bytes) :
    (r.push data).2.pending = r.pending ++ data.take (r.push data).1 := by
  rcases push_cases r data with ⟨_, hp⟩ | ⟨_, _, hp⟩ | ⟨_, hp⟩
  · rw [hp, List.take_zero, List.append_nil]
  · rw [hp, List.take_zero, List.append_nil]
    rfl
  · obtain ⟨hl, hf, hm⟩ := accepted_units h data
    have hq := pending_publish_copyIn h hf hm
    rw [hl] at hq
    rwa [hp]

/-- A push accepts no more than there is. -/
theorem fst_push_le (r : Ring) (data : Bytes) : (r.push data).1 ≤ data.length := by
  rw [fst_push]
  exact Nat.le_trans (Nat.min_le_left _ _) (alignDown_le _)

/-- A push accepts whole units. -/
theorem fst_push_mod (h : r.WellFormed) (data : Bytes) : (r.push data).1 % 4 = 0 := by
  have hd := alignDown_mod data.length
  have hs := h.offsets.size_mod
  have hu := RingIndex.used_mod h.offsets
  rw [fst_push, RingIndex.free_eq h.offsets]
  simp only [alignment]
  omega

/-- A push of a whole unit into a ring with room accepts something. -/
theorem fst_push_pos {data : Bytes} (hfree : 0 < r.index.free) (hd : alignment ≤ data.length) :
    0 < (r.push data).1 := by
  rw [fst_push, Nat.lt_min]
  exact ⟨Nat.mul_pos (Nat.div_pos hd (by decide)) (by decide), hfree⟩

/-- Pushing keeps the size. -/
theorem size_push (r : Ring) (data : Bytes) : (r.push data).2.size = r.size := by
  rcases push_cases r data with ⟨_, hp⟩ | ⟨_, _, hp⟩ | ⟨_, hp⟩ <;> rw [hp] <;> rfl

/-- A push of which something is accepted records no error. -/
theorem error_push_of_accepted {data : Bytes} (h : (r.push data).1 ≠ 0) :
    (r.push data).2.error = r.error := by
  rcases push_cases r data with ⟨_, hp⟩ | ⟨_, _, hp⟩ | ⟨_, hp⟩
  · rw [hp]
  · rw [hp] at h
    exact absurd rfl h
  · simp only [hp, publish, copyIn]

/-- A window that ends inside its first packet is all that is pending: one that leaves bytes out has
room for the longest packet. -/
theorem window_eq_pending_of_partial (h : r.WellFormed)
    (hv : Packet.validLength? r.window = none) (hc : Packet.corruptHead r.window = false) :
    r.window = r.pending :=
  (window_eq_pending_or_le h).resolve_right
    (Nat.not_le.mpr (Packet.length_lt_of_partial hv hc))

/-- What is done to a ring. -/
inductive Action where
  /-- The producer pushes bytes. -/
  | push (data : Bytes)
  /-- The producer records an error. -/
  | fail (e : LinkError)
  /-- The consumer waits for a window. -/
  | wait (timeout : Option Nat)
  /-- The consumer releases bytes. -/
  | consume (n : Nat)
  deriving DecidableEq, Repr

/-- A ring with what went through it. -/
structure History where
  /-- The ring. -/
  ring : Ring
  /-- The accepted parts of all pushed data, one after the other. -/
  accepted : Bytes
  /-- Number of bytes by which consuming has lowered the used bytes. -/
  consumed : Nat

namespace History

/-- A ring through which nothing went. -/
def start (r : Ring) : History := ⟨r, [], 0⟩

/-- Go on with an action. -/
def step (h : History) : Action → History
  | .push data =>
    let (n, ring) := h.ring.push data
    { h with ring, accepted := h.accepted ++ data.take n }
  | .fail e => { h with ring := h.ring.setError e }
  | .wait timeout => { h with ring := ((Ring.source.wait timeout).exec h.ring).2 }
  | .consume n =>
    let ring := h.ring.consume n
    { h with ring, consumed := h.consumed + (h.ring.used - ring.used) }

/-- Go on with actions, one after the other. -/
def run (h : History) (actions : List Action) : History := actions.foldl step h

/-- The ring is in order, has the given size, and what is pending was accepted and not consumed. -/
structure Sound (size : Nat) (h : History) : Prop where
  ring : h.ring.WellFormed
  size : h.ring.size = size
  consumed_le : h.consumed ≤ h.accepted.length
  pending : h.ring.pending = h.accepted.drop h.consumed

variable {size : Nat} {h : History}

theorem sound_start (hr : Ring.create size = .ok r) : (start r).Sound size := by
  have hw := wellFormed_create hr
  obtain ⟨_, _, rfl⟩ := create_eq_ok_iff.mp hr
  refine ⟨hw, rfl, Nat.le_refl _, ?_⟩
  have he : Storage.empty.toList = [] := rfl
  simp only [start, pending, he, List.append_nil, List.drop_nil, List.take_nil]

/-- What is used was accepted and not consumed. -/
theorem Sound.used_eq (hs : h.Sound size) : h.ring.used = h.accepted.length - h.consumed := by
  rw [← length_pending hs.ring, hs.pending, List.length_drop]

/-- A consume releases whole units, at most those that are used. -/
theorem Sound.consumed_step (hs : h.Sound size) (n : Nat) :
    (h.step (.consume n)).consumed = h.consumed + min (alignDown n) h.ring.used := by
  simp only [step, used_consume hs.ring n]
  omega

/-- A wait that finds bytes and no error shows the accepted bytes that come next. -/
theorem Sound.wait_ok (hs : h.Sound size) (he : h.ring.error = none) (hu : 0 < h.ring.used)
    (timeout : Option Nat) :
    ∃ window, (Ring.source.wait timeout).exec h.ring = (.ok window, h.ring) ∧
      0 < window.length ∧ window.length % alignment = 0 ∧
      h.consumed + window.length ≤ h.accepted.length ∧
      window = (h.accepted.drop h.consumed).take window.length := by
  have hi := hs.ring.offsets
  have hlen := length_window hs.ring
  have hspan : (h.ring.index.window rolloverLimit).length ≤ h.ring.used :=
    RingIndex.window_length_le hi _
  have hwait : h.ring.wait = .ok h.ring.window :=
    (wait_eq_ok_iff hs.ring).mpr ⟨he, hu, rfl⟩
  refine ⟨h.ring.window, ?_, ?_, ?_, ?_, ?_⟩
  · exact congrArg (·, h.ring) hwait
  · rw [hlen]
    exact RingIndex.window_length_pos hi _ hu
  · rw [hlen]
    exact RingIndex.window_length_mod hi (by decide)
  · have hle := hs.consumed_le
    have hused := hs.used_eq
    omega
  · rw [hlen, ← hs.pending]
    exact window_eq hs.ring

/-- Every action keeps the history sound. -/
theorem sound_step (hs : h.Sound size) (action : Action) : (h.step action).Sound size := by
  have hu := hs.used_eq
  cases action with
  | push data =>
    refine ⟨wellFormed_push hs.ring data, (size_push _ _).trans hs.size, ?_, ?_⟩
    · simp only [step, List.length_append]
      exact Nat.le_trans hs.consumed_le (Nat.le_add_right _ _)
    · simp only [step]
      rw [pending_push hs.ring, hs.pending, List.drop_append_of_le_length hs.consumed_le]
  | fail e => exact ⟨wellFormed_setError hs.ring e, hs.size, hs.consumed_le, hs.pending⟩
  | wait timeout => exact hs
  | consume n =>
    have hn := hs.consumed_step n
    refine ⟨wellFormed_consume hs.ring n, hs.size, ?_, ?_⟩
    · rw [hn]
      have := hs.consumed_le
      show _ ≤ h.accepted.length
      omega
    · rw [hn]
      show (h.ring.consume n).pending = h.accepted.drop _
      rw [pending_consume hs.ring, hs.pending, List.drop_drop]

/-- Any actions keep a history sound. -/
theorem sound_run (hs : h.Sound size) (actions : List Action) : (h.run actions).Sound size := by
  induction actions generalizing h with
  | nil => exact hs
  | cons action rest ih => exact ih (sound_step hs action)

/-- A ring of any size it can be made with, after any actions: the offsets stay in the ring on unit
boundaries; the used bytes were accepted and not consumed, and one unit stays free; a push accepts
the whole units that fit; a wait that finds bytes and no error shows the next accepted bytes; a
consume releases whole units, at most those that are used. -/
theorem run_refines_queue {size : Nat} {r : Ring} (hr : Ring.create size = .ok r)
    (actions : List Action) :
    let h := (start r).run actions
    (h.ring.index.producer < size ∧ h.ring.index.producer % alignment = 0) ∧
    (h.ring.index.consumer < size ∧ h.ring.index.consumer % alignment = 0) ∧
    (h.consumed ≤ h.accepted.length ∧ h.ring.used = h.accepted.length - h.consumed ∧
      h.ring.used ≤ size - alignment) ∧
    (∀ data, (h.ring.push data).1 =
      min (alignDown data.length) (size - alignment - h.ring.used)) ∧
    (∀ timeout, h.ring.error = none → 0 < h.ring.used →
      ∃ window, (Ring.source.wait timeout).exec h.ring = (.ok window, h.ring) ∧
        0 < window.length ∧ window.length % alignment = 0 ∧
        h.consumed + window.length ≤ h.accepted.length ∧
        window = (h.accepted.drop h.consumed).take window.length) ∧
    (∀ n, (h.step (.consume n)).consumed = h.consumed + min (alignDown n) h.ring.used) := by
  intro h
  have hs : h.Sound size := sound_run (sound_start hr) actions
  have hi := hs.ring.offsets
  have hz : h.ring.index.size = size := hs.size
  have hle : h.ring.used ≤ size - alignment := by
    rw [← hz]
    exact RingIndex.used_le hi
  refine ⟨⟨hz ▸ hi.producer_lt, hi.producer_mod⟩, ⟨hz ▸ hi.consumer_lt, hi.consumer_mod⟩,
    ⟨hs.consumed_le, hs.used_eq, hle⟩, ?_, ?_, hs.consumed_step⟩
  · intro data
    rw [fst_push, RingIndex.free_eq hi, hz]
    rfl
  · intro timeout he hpos
    exact hs.wait_ok he hpos timeout

/-- Eight bytes around the end of a ring of twelve are shown in one window. -/
theorem run_refines_queue_across_end :
    let r : Ring := ⟨.empty 12, .empty, none⟩
    let h := (start r).run
      [.push [1, 2, 3, 4, 5, 6, 7, 8], .consume 8, .push [9, 10, 11, 12, 13, 14, 15, 16, 17]]
    Ring.create 12 = .ok r ∧ h.ring.index.producer = 4 ∧ h.ring.index.consumer = 8 ∧
      ∃ window, (Ring.source.wait none).exec h.ring = (.ok window, h.ring) ∧
        window = (h.accepted.drop h.consumed).take window.length := by
  have hr : Ring.create 12 = .ok ⟨.empty 12, .empty, none⟩ := by rfl
  obtain ⟨_, _, _, _, hwait, _⟩ := run_refines_queue hr
    [.push [1, 2, 3, 4, 5, 6, 7, 8], .consume 8, .push [9, 10, 11, 12, 13, 14, 15, 16, 17]]
  obtain ⟨window, hw, _, _, _, hshown⟩ := hwait none (by decide) (by decide)
  exact ⟨hr, by decide, by decide, window, hw, hshown⟩

end History

end DetectorLink.Ring
