import DetectorLink.Proofs.Link.Pipe

/-!
# A peer that stays connected

Reading from a peer that stays connected, once something has arrived, brings at least a byte if no
read fails. A wait for its bytes therefore answers or times out, and does not end the connection.
-/

namespace DetectorLink

/-- An event that happened lies in the past. -/
theorem awaitEvent_happened {now : Nat} {timeout event? : Option Nat}
    (h : (awaitEvent now timeout event?).1 = true) :
    ∃ t, event? = some t ∧ t ≤ (awaitEvent now timeout event?).2 := by
  unfold awaitEvent at h ⊢
  split at h
  · next t => exact ⟨t, rfl, Nat.le_max_right now t⟩
  · next t d =>
    by_cases hle : t ≤ now + d
    · refine ⟨t, rfl, ?_⟩
      simp only [hle, ite_true]
      exact Nat.le_max_right now t
    · simp only [hle, ite_false, Bool.false_eq_true] at h
  · nomatch h
  · nomatch h

namespace Stream

/-- A peer that does not close its end, sends no empty chunks, and of which no read fails. -/
structure Stays (s : Stream) : Prop where
  connected : s.closedAt = none
  nonempty : ∀ chunk ∈ s.chunks, chunk.2 ≠ []
  reads : s.reads = []

variable {s : Stream}

theorem stays_empty : empty.Stays := ⟨rfl, nofun, rfl⟩

theorem Stays.nextRead (h : s.Stays) : s.nextRead = (none, s) := by
  obtain ⟨chunks, closedAt, reads, writes⟩ := s
  obtain rfl : reads = [] := h.reads
  rfl

theorem Stays.feed (h : s.Stays) (now : Nat) (data : Bytes) : (s.feed now data).Stays := by
  unfold Stream.feed
  split
  · exact h
  · next hdata =>
    refine ⟨h.connected, fun chunk hmem ↦ ?_, h.reads⟩
    rcases List.mem_append.mp hmem with hold | hnew
    · exact h.nonempty chunk hold
    · rw [List.mem_singleton.mp hnew]
      exact fun he ↦ hdata (List.isEmpty_iff.mpr he)

/-- What is left of a chunk is not empty. -/
private theorem takeArrived_nonempty (now n : Nat) (chunks : List (Nat × Bytes))
    (h : ∀ chunk ∈ chunks, chunk.2 ≠ []) :
    ∀ chunk ∈ (takeArrived now n chunks).2, chunk.2 ≠ [] := by
  fun_induction takeArrived now n chunks with
  | case1 chunks => exact h
  | case2 => exact fun _ hmem ↦ absurd hmem List.not_mem_nil
  | case3 => exact h
  | case4 n t data rest hn hnow hle more left hrest ih =>
    rw [hrest] at ih
    exact ih fun chunk hmem ↦ h chunk (List.mem_cons_of_mem _ hmem)
  | case5 n t data rest hn hnow hle =>
    intro chunk hmem
    rcases List.mem_cons.mp hmem with rfl | hrest
    · exact List.ne_nil_of_length_pos (by rw [List.length_drop]; omega)
    · exact h chunk (List.mem_cons_of_mem _ hrest)

theorem Stays.read (h : s.Stays) (now n : Nat) : (s.read now n).2.Stays :=
  ⟨h.connected, takeArrived_nonempty now n s.chunks h.nonempty, h.reads⟩

/-- A read of what has arrived brings something. -/
theorem Stays.read_ne_nil (h : s.Stays) {t now n : Nat} (ht : s.nextTime? = some t) (hnow : t ≤ now)
    (hn : 0 < n) : (s.read now n).1 ≠ [] := by
  have hnone := h.connected
  have hne := h.nonempty
  unfold nextTime? at ht
  show (takeArrived now n s.chunks).1 ≠ []
  split at ht
  · next t' data rest hchunks =>
    obtain rfl := Option.some.inj ht
    have hdata : data ≠ [] := hne (t', data) (hchunks ▸ List.mem_cons_self)
    obtain ⟨m, rfl⟩ := Nat.exists_eq_succ_of_ne_zero (Nat.ne_of_gt hn)
    rw [hchunks, takeArrived, ite_cond_eq_false _ _ (eq_false (Nat.not_lt.mpr hnow))]
    · split
      · exact List.append_ne_nil_of_left_ne_nil hdata _
      · exact mt List.take_eq_nil_iff.mp (by simp [hdata])
    · exact Nat.succ_ne_zero m
  · rw [hnone] at ht
    nomatch ht

end Stream

namespace Intake

variable {i : Intake}

/-- Collecting from a peer that stays connected, into a buffer with room, does not fail. -/
theorem collect_of_stays (h : i.stream.Stays) {capacity : Nat} (hroom : i.buffer.length < capacity)
    (wait : Option Nat) :
    (∃ happened, (i.collect capacity wait).1 = .ok happened) ∧
      (i.collect capacity wait).2.stream.Stays := by
  unfold collect
  rw [h.nextRead]
  have hpast := @awaitEvent_happened i.clock wait i.stream.nextTime?
  dsimp only
  generalize awaitEvent i.clock wait i.stream.nextTime? = event at hpast
  obtain ⟨happened, clock⟩ := event
  cases happened with
  | false => exact ⟨⟨false, rfl⟩, h⟩
  | true =>
    obtain ⟨t, ht, hle⟩ := hpast rfl
    have hread := h.read_ne_nil ht hle (Nat.sub_pos_of_lt hroom)
    have hleft := h.read clock (capacity - i.buffer.length)
    rw [ite_cond_eq_true _ _ (eq_true rfl), take]
    dsimp only at hread hleft ⊢
    split
    · next he => exact absurd (List.isEmpty_iff.mp he) hread
    · exact ⟨⟨true, rfl⟩, hleft⟩

/-- Collecting a word from a peer that stays connected answers or times out. -/
theorem fill_of_stays {capacity : Nat} (hc : alignment ≤ capacity) (deadline : Option Nat)
    (rounds : Nat) (h : i.stream.Stays) (hi : i.buffer.length < alignment) :
    ((fill capacity deadline rounds i).1 = .ok () ∨
      (fill capacity deadline rounds i).1 = .error .timeout) ∧
      (fill capacity deadline rounds i).2.stream.Stays := by
  induction rounds generalizing i with
  | zero => exact ⟨.inl rfl, h⟩
  | succ rounds ih =>
    obtain ⟨⟨happened, hr⟩, hstays⟩ :=
      collect_of_stays h (Nat.lt_of_lt_of_le hi hc) (deadline.map (· - i.clock))
    rw [fill]
    generalize i.collect capacity (deadline.map (· - i.clock)) = r at hr hstays ⊢
    obtain ⟨answer, j⟩ := r
    obtain rfl : answer = .ok happened := hr
    cases happened with
    | false => exact ⟨.inr rfl, hstays⟩
    | true =>
      dsimp only
      split
      · next hj => exact ih hstays hj
      · exact ⟨.inl rfl, hstays⟩

/-- A wait for the bytes of a peer that stays connected shows them or times out. -/
theorem wait_of_stays {capacity : Nat} (hc : alignment ≤ capacity) (deadline : Option Nat)
    (h : i.stream.Stays) :
    ((∃ data, (i.wait capacity deadline).1 = .ok data) ∨
      (i.wait capacity deadline).1 = .error .timeout) ∧
      (i.wait capacity deadline).2.stream.Stays := by
  have hcollect : ∀ r, r = (if i.buffer.length < alignment then i.fill capacity deadline alignment
        else i.topUp capacity) →
      (r.1 = .ok () ∨ r.1 = .error .timeout) ∧ r.2.stream.Stays := by
    rintro r rfl
    split
    · next hi => exact fill_of_stays hc deadline alignment h hi
    · unfold topUp
      split
      · next hroom =>
        obtain ⟨⟨happened, hr⟩, hstays⟩ := collect_of_stays h hroom (some 0)
        refine ⟨.inl ?_, hstays⟩
        dsimp only
        rw [hr]
        rfl
      · exact ⟨.inl rfl, h⟩
  unfold wait
  generalize (if i.buffer.length < alignment then i.fill capacity deadline alignment
    else i.topUp capacity) = r at hcollect ⊢
  obtain ⟨hr, hstays⟩ := hcollect r rfl
  obtain ⟨answer, j⟩ := r
  rcases hr with hr | hr
  · obtain rfl : answer = .ok () := hr
    exact ⟨.inl ⟨j.buffer, rfl⟩, hstays⟩
  · obtain rfl : answer = .error .timeout := hr
    exact ⟨.inr rfl, hstays⟩

end Intake

end DetectorLink
