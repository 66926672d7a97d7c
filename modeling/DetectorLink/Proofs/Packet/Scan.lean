import DetectorLink.Proofs.Packet.Parse

/-!
# Scanning a stream for packets

The scan of a stream takes complete packets, steps over a word where an impossible header stands,
and ends where the stream ends inside a packet. It is final: more bytes only add packets. Walking a
window that starts the stream yields the first packets of the scan, and the scan goes on behind
them.
-/

namespace DetectorLink.Packet

/-- The bytes of the packets of a stream: where a complete packet of an allowed length stands it is
taken, where a whole header of no allowed length stands one word is skipped, elsewhere the scan
ends. -/
def scan (b : Bytes) : List Bytes :=
  match h : validLength? b with
  | some n =>
    have := validLength?_bounds h
    b.take n :: scan (b.drop n)
  | none =>
    if hc : corruptHead b = true then
      have := (parse_isOk_iff b).mp ((corruptHead_iff.mp hc).imp fun _ hp ↦ hp.1)
      scan (b.drop alignment)
    else []
termination_by b.length
decreasing_by
  all_goals
    simp only [minLength, Header.byteCount, alignment, List.length_drop] at *
    omega

variable {b : Bytes} {n : Nat}

theorem scan_of_validLength? (h : validLength? b = some n) :
    scan b = b.take n :: scan (b.drop n) := by
  rw [scan]
  split
  · next m hm =>
    rw [h] at hm
    rw [Option.some.inj hm]
  · next hn =>
    rw [h] at hn
    contradiction

theorem scan_of_corruptHead (h : corruptHead b = true) : scan b = scan (b.drop alignment) := by
  rw [scan]
  split
  · next m hm =>
    rw [validLength?_of_corruptHead h] at hm
    contradiction
  · simp only [h, dite_true]

theorem scan_of_partial (hv : validLength? b = none) (hc : corruptHead b = false) :
    scan b = [] := by
  rw [scan]
  split
  · next m hm =>
    rw [hv] at hm
    contradiction
  · simp only [hc, Bool.false_eq_true, dite_false]

/-- Less than a word behind whole words that end inside a packet adds no packet. -/
theorem scan_append_of_partial {tail : Bytes} (hv : validLength? b = none)
    (hc : corruptHead b = false) (hb : b.length % 4 = 0) (ht : tail.length < alignment) :
    scan (b ++ tail) = [] :=
  have hpartial := partial_append hv hc hb ht
  scan_of_partial hpartial.1 hpartial.2

/-- There is no packet in less than a word. -/
theorem scan_of_length_lt (h : b.length < alignment) : scan b = [] :=
  scan_append_of_partial (b := []) rfl rfl rfl h

theorem alignment_le_of_corruptHead (h : corruptHead b = true) : alignment ≤ b.length := by
  have hl := (parse_isOk_iff b).mp ((corruptHead_iff.mp h).imp fun _ hp ↦ hp.1)
  exact Nat.le_trans (by decide) hl

/-- More bytes only add packets. -/
theorem scan_prefix_append (b more : Bytes) : scan b <+: scan (b ++ more) := by
  fun_induction scan b with
  | case1 b n h _ ih =>
    have hl := (validLength?_bounds h).2.2.2
    rw [scan_of_validLength? (validLength?_append h more), List.take_append_of_le_length hl,
      List.drop_append_of_le_length hl]
    exact (List.prefix_cons_inj _).mpr ih
  | case2 b _ hc _ ih =>
    rw [scan_of_corruptHead (corruptHead_append hc more),
      List.drop_append_of_le_length (alignment_le_of_corruptHead hc)]
    exact ih
  | case3 => exact List.nil_prefix

/-- A walk takes the packet at the start of a window, without the bytes behind it, and goes on
behind it. -/
theorem exists_walk_eq_cons (h : validLength? b = some n) :
    ∃ p, parse (b.take n) = .ok p ∧ p.length = n ∧ p.bytes = b.take n ∧
      walk b = p :: walk (b.drop n) := by
  obtain ⟨p, hp, hn, hb⟩ := parse_take_of_validLength? h
  refine ⟨p, hp, hn, hb, ?_⟩
  rw [walk]
  split
  · next hnone =>
    rw [h] at hnone
    contradiction
  · next m hm =>
    rw [h] at hm
    cases hm
    rw [hp]
    rfl

theorem walk_of_validLength? (h : validLength? b = some n) :
    (walk b).map bytes = b.take n :: (walk (b.drop n)).map bytes := by
  obtain ⟨p, _, _, hb, hw⟩ := exists_walk_eq_cons h
  rw [hw, List.map_cons, hb]

theorem walk_of_none (h : validLength? b = none) : walk b = [] := by
  rw [walk]
  split
  · rfl
  · next m hm =>
    rw [h] at hm
    contradiction

/-- More bytes only add packets to a walk. -/
theorem walk_prefix_append (b more : Bytes) : walk b <+: walk (b ++ more) := by
  fun_induction walk b with
  | case1 b h => exact List.nil_prefix
  | case2 b n h hb ih =>
    obtain ⟨p, hp, _, _, hw⟩ := exists_walk_eq_cons (validLength?_append h more)
    rw [List.take_append_of_le_length hb.2.2.2] at hp
    rw [hw, List.drop_append_of_le_length hb.2.2.2, hp]
    exact (List.prefix_cons_inj p).mpr ih

/-- The valid prefix is as long as the packets of the walk together, and counts them. -/
theorem validPrefix_eq (b : Bytes) :
    validPrefix b = (((walk b).map bytes).flatten.length, (walk b).length) := by
  fun_induction validPrefix b with
  | case1 b h => rw [walk_of_none h]; rfl
  | case2 b n h _ length count hrest ih =>
    have hl := (validLength?_bounds h).2.2.2
    have hw := walk_of_validLength? h
    have hc := congrArg List.length hw
    simp only [List.length_map, List.length_cons] at hc
    rw [hrest, Prod.mk.injEq] at ih
    rw [hw, hc, List.flatten_cons, List.length_append, List.length_take_of_le hl, ← ih.1, ← ih.2]

theorem validPrefix_of_none (h : validLength? b = none) : validPrefix b = (0, 0) := by
  rw [validPrefix_eq, walk_of_none h]
  rfl

/-- The valid prefix takes the packet at the start of a window and goes on behind it. -/
theorem validPrefix_of_validLength? (h : validLength? b = some n) :
    validPrefix b = (n + (validPrefix (b.drop n)).1, (validPrefix (b.drop n)).2 + 1) := by
  have hl := (validLength?_bounds h).2.2.2
  obtain ⟨p, _, _, hb, hw⟩ := exists_walk_eq_cons h
  rw [validPrefix_eq, validPrefix_eq, hw, List.map_cons, hb, List.flatten_cons, List.length_append,
    List.length_take_of_le hl, List.length_cons]

/-- The packets of the walk are within the window. -/
theorem validPrefix_le (b : Bytes) : (validPrefix b).1 ≤ b.length := by
  fun_induction validPrefix b with
  | case1 => exact Nat.zero_le _
  | case2 b n h _ length count hrest ih =>
    have hl := (validLength?_bounds h).2.2.2
    rw [hrest, List.length_drop] at ih
    show n + length ≤ b.length
    omega

/-- The packets of the walk are made of whole units. -/
theorem validPrefix_mod (b : Bytes) : (validPrefix b).1 % 4 = 0 := by
  fun_induction validPrefix b with
  | case1 => rfl
  | case2 b n h _ length count hrest ih =>
    have hm : n % 4 = 0 := (validLength?_bounds h).2.2.1
    rw [hrest] at ih
    show (n + length) % 4 = 0
    omega

/-- Nothing is in the valid prefix exactly when no packet starts the window. -/
theorem validPrefix_eq_zero_iff (b : Bytes) : (validPrefix b).1 = 0 ↔ validLength? b = none := by
  constructor
  · intro h
    rw [validPrefix_eq] at h
    rw [Option.eq_none_iff_forall_ne_some]
    intro n hn
    have hb := validLength?_bounds hn
    rw [walk_of_validLength? hn, List.flatten_cons, List.length_append,
      List.length_take_of_le hb.2.2.2] at h
    simp only [minLength, Header.byteCount] at hb
    omega
  · intro h
    rw [validPrefix_eq, walk_of_none h]
    rfl

/-- The scan of a stream starts with the walk of any window that starts the stream, and goes on
behind the valid prefix. -/
theorem scan_append_eq_walk (b more : Bytes) :
    scan (b ++ more) =
      (walk b).map bytes ++ scan ((b ++ more).drop (validPrefix b).1) := by
  fun_induction validPrefix b with
  | case1 b h => rw [walk_of_none h]; rfl
  | case2 b n h _ length count hrest ih =>
    have hl := (validLength?_bounds h).2.2.2
    rw [hrest] at ih
    rw [scan_of_validLength? (validLength?_append h more), walk_of_validLength? h,
      List.take_append_of_le_length hl, List.drop_append_of_le_length hl, ih, List.cons_append]
    show _ = _ :: (_ ++ scan (List.drop (n + length) (b ++ more)))
    rw [← List.drop_drop, List.drop_append_of_le_length hl]

end DetectorLink.Packet
