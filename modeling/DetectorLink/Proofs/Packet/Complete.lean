import DetectorLink.Proofs.Packet.Outgoing

/-!
# Complete packets are copied out of bytes

A packet is whole if it has exactly the bytes that its header declares. Copying takes the whole
packet at the start of bytes, if there is one, and leaves what follows it; otherwise it tells the
first thing that is missing. Packets that were built are whole, and so are those that a receiver
recognises, so both are copied as they are.
-/

namespace DetectorLink.Packet

variable {b : Bytes} {p : Packet}

/-- Bytes without a whole header are refused for this. -/
theorem parse_of_length_lt (h : b.length < Header.byteCount) :
    parse b = .error (.truncated Header.byteCount b.length) := by
  unfold parse
  split
  · next header hh =>
    obtain ⟨rest, rfl⟩ := Header.ofBytes?_eq_some_iff.mp hh
    rw [List.length_append, Header.length_toBytes] at h
    omega
  · rfl

/-- A length that keeps the alignment rules covers the header. -/
theorem byteCount_le_length (h : p.length ≠ 0) : Header.byteCount ≤ p.length := by
  unfold length at *
  split at h
  · next hu =>
    rw [ite_cond_eq_true _ _ (eq_true hu)]
    exact Nat.le_add_right _ _
  · contradiction

/-- A packet without what lies behind its length. -/
def cut (p : Packet) : Packet := { p with rest := p.rest.take (p.length - Header.byteCount) }

/-- The length is told by the header alone. -/
theorem length_cut (p : Packet) : p.cut.length = p.length := by
  unfold cut length declaredLength lengthUnit
  rfl

theorem window_cut (h : parse b = .ok p) (hne : p.length ≠ 0) :
    p.cut.window = b.take p.length := by
  have hcut : parse (b.take p.length) = .ok p.cut := parse_take h (byteCount_le_length hne)
  exact (parse_eq_ok_iff.mp hcut).symm

/-- What is copied of the packet that bytes start with. -/
theorem complete_of_parse (h : parse b = .ok p) : complete b =
    if p.length = 0 then .error (.misaligned p.declaredLength)
    else if b.length < p.length then .error (.truncated p.length b.length)
    else .ok p.cut := by
  have hcovers : (!b.covers p.length) = decide (b.length < p.length) := by
    rw [Bool.eq_iff_iff, Bool.not_eq_true', Bool.eq_false_iff, ne_eq, Bytes.covers_iff,
      Nat.not_le, decide_eq_true_eq]
  simp only [complete, h, bind, Except.bind, hcovers, decide_eq_true_eq, cut]

/-- Without a whole header there is nothing to copy. With one, its length must keep the alignment
rules and the bytes must cover it. -/
theorem complete_cases (b : Bytes) :
    (b.length < Header.byteCount ∧
      complete b = .error (.truncated Header.byteCount b.length)) ∨
    ∃ v, parse b = .ok v ∧ Header.byteCount ≤ b.length ∧
      ((v.length = 0 ∧ complete b = .error (.misaligned v.declaredLength)) ∨
        (v.length ≠ 0 ∧ b.length < v.length ∧
          complete b = .error (.truncated v.length b.length)) ∨
        (v.length ≠ 0 ∧ v.length ≤ b.length ∧ complete b = .ok v.cut)) := by
  by_cases hl : b.length < Header.byteCount
  · refine .inl ⟨hl, ?_⟩
    rw [complete, parse_of_length_lt hl]
    rfl
  · have hl := Nat.not_lt.mp hl
    obtain ⟨v, hv⟩ := (parse_isOk_iff b).mpr hl
    refine .inr ⟨v, hv, hl, ?_⟩
    rw [complete_of_parse hv]
    by_cases hz : v.length = 0
    · exact .inl ⟨hz, ite_cond_eq_true _ _ (eq_true hz)⟩
    · rw [ite_cond_eq_false _ _ (eq_false hz)]
      by_cases hc : b.length < v.length
      · exact .inr (.inl ⟨hz, hc, ite_cond_eq_true _ _ (eq_true hc)⟩)
      · exact .inr (.inr ⟨hz, Nat.not_lt.mp hc, ite_cond_eq_false _ _ (eq_false hc)⟩)

/-- What is copied is a whole packet that the bytes start with. -/
theorem complete_eq_ok_iff : complete b = .ok p ↔ p.length = p.window.length ∧ p.window <+: b := by
  constructor
  · intro h
    rcases complete_cases b with ⟨-, hc⟩ | ⟨v, hv, -, ⟨-, hc⟩ | ⟨-, -, hc⟩ | ⟨hz, hle, hc⟩⟩
    · cases h.symm.trans hc
    · cases h.symm.trans hc
    · cases h.symm.trans hc
    · obtain rfl := Except.ok.inj (h.symm.trans hc)
      rw [window_cut hv hz, length_cut, List.length_take, Nat.min_eq_left hle]
      exact ⟨rfl, List.take_prefix _ b⟩
  · rintro ⟨hl, t, rfl⟩
    have hcount : p.length = Header.byteCount + p.rest.length := hl.trans (length_window p)
    have hne : p.length ≠ 0 := by
      rw [hcount, Header.byteCount]
      omega
    have hle : ¬(p.window ++ t).length < p.length := by
      rw [List.length_append, ← hl]
      exact Nat.not_lt.mpr (Nat.le_add_right _ _)
    have hrest : p.rest.length = p.length - Header.byteCount := by
      rw [hcount, Nat.add_sub_cancel_left]
    rw [complete_of_parse (parse_window_append p t)]
    show (if p.length = 0 then _ else if _ < p.length then _ else
      Except.ok { p with rest := (p.rest ++ t).take (p.length - Header.byteCount) }) = _
    rw [ite_cond_eq_false _ _ (eq_false hne), ite_cond_eq_false _ _ (eq_false hle),
      List.take_left' hrest]

/-- A whole packet is copied from its bytes, whatever follows them. -/
theorem complete_window_append (h : p.length = p.window.length) (more : Bytes) :
    complete (p.window ++ more) = .ok p :=
  complete_eq_ok_iff.mpr ⟨h, List.prefix_append _ _⟩

/-- A packet that a receiver recognises is copied as it is. -/
theorem exists_complete_of_validLength? {n : Nat} (h : validLength? b = some n) :
    ∃ p, complete b = .ok p ∧ p.window = b.take n := by
  obtain ⟨p, hp, hn, -⟩ := parse_take_of_validLength? h
  have hw : p.window = b.take n := (parse_eq_ok_iff.mp hp).symm
  have hl : p.length = p.window.length := by
    rw [hw, hn, List.length_take, Nat.min_eq_left (validLength?_bounds h).2.2.2]
  exact ⟨p, complete_eq_ok_iff.mpr ⟨hl, hw ▸ List.take_prefix n b⟩, hw⟩

/-- A packet shows the fields and the words that it was built from. -/
theorem shows_of_ofWords {destination source info : UInt32} {payload : List UInt32}
    (h : Packet.ofWords destination source info payload = .ok p) :
    p.header.destination = destination ∧ p.header.source = source ∧ p.header.info = info ∧
      Word.ofByteList p.rawPayload = payload ∧
      p.window = Word.toByteList
        ([destination, source, info, UInt32.ofNat (4 * payload.length), 0, 0] ++ payload) := by
  have hraw : p.rawPayload = p.rest := (Built.ofWords h).rawPayload_eq
  obtain ⟨-, rfl⟩ := ofWords_eq_ok_iff.mp h
  rw [hraw, Word.ofByteList_toByteList, Word.toByteList_append]
  exact ⟨rfl, rfl, rfl, rfl, rfl⟩

/-- Copying succeeds exactly if there is a whole header of which the length keeps the alignment
rules and is covered by the bytes, and takes as many of them; else it tells the first of these that
is missing. What is copied is copied again from its bytes in front of anything. So is a packet that
was built, which shows what it was built from; and what a receiver recognises is copied as it is. -/
theorem complete_takes_length (b : Bytes) :
    ((b.length < Header.byteCount ∧
        complete b = .error (.truncated Header.byteCount b.length)) ∨
      ∃ v, parse b = .ok v ∧ Header.byteCount ≤ b.length ∧
        ((v.length = 0 ∧ complete b = .error (.misaligned v.declaredLength)) ∨
          (v.length ≠ 0 ∧ b.length < v.length ∧
            complete b = .error (.truncated v.length b.length)) ∨
          (v.length ≠ 0 ∧ v.length ≤ b.length ∧
            ∃ p, complete b = .ok p ∧ p.window = b.take v.length))) ∧
    (∀ p, complete b = .ok p → ∀ more, complete (p.window ++ more) = .ok p) ∧
    (∀ destination source info payload p,
      Packet.ofWords destination source info payload = .ok p →
        (∀ more, complete (p.window ++ more) = .ok p) ∧
        p.header.destination = destination ∧ p.header.source = source ∧ p.header.info = info ∧
        Word.ofByteList p.rawPayload = payload ∧
        p.window = Word.toByteList
          ([destination, source, info, UInt32.ofNat (4 * payload.length), 0, 0] ++ payload)) ∧
    ∀ n, validLength? b = some n → ∃ p, complete b = .ok p ∧ p.window = b.take n := by
  refine ⟨(complete_cases b).imp id ?_, ?_, ?_, fun n ↦ exists_complete_of_validLength?⟩
  · rintro ⟨v, hv, hl, h⟩
    refine ⟨v, hv, hl, h.imp id (Or.imp id ?_)⟩
    rintro ⟨hz, hle, hc⟩
    exact ⟨hz, hle, v.cut, hc, window_cut hv hz⟩
  · intro p hp
    exact complete_window_append (complete_eq_ok_iff.mp hp).1
  · intro destination source info payload p hp
    exact ⟨complete_window_append (Built.ofWords hp).length_eq.1, shows_of_ofWords hp⟩

/-- A relayed command of 26 bytes is copied, though no receiver would recognise it. One of 28 bytes
is built, recognised and copied. -/
theorem complete_takes_length_relayed :
    let header (n : UInt32) : Header := ⟨1, 2, 0xC0000000, n, 0, 0⟩
    let odd : Packet := ⟨header 2, [3, 4]⟩
    let whole : Packet := ⟨header 4, [5, 0, 0, 0]⟩
    complete (odd.window ++ [9]) = .ok odd ∧ validLength? (odd.window ++ [9]) = none ∧
      complete (odd.window ++ [8, 7]) = .ok odd ∧
      Packet.ofWords 1 2 0xC0000000 [5] = .ok whole ∧ validLength? (whole.window ++ [9]) = some 28 ∧
      complete (whole.window ++ [9]) = .ok whole ∧ Word.ofByteList whole.rawPayload = [5] ∧
      ∃ p, complete (whole.window ++ [9]) = .ok p ∧ p.window = (whole.window ++ [9]).take 28 := by
  intro header odd whole
  have hodd : complete (odd.window ++ [9]) = .ok odd := by decide +kernel
  have hwhole : Packet.ofWords 1 2 0xC0000000 [5] = .ok whole := by rfl
  have hvalid : validLength? (whole.window ++ [9]) = some 28 := by decide +kernel
  obtain ⟨-, hagain, -, -⟩ := complete_takes_length (odd.window ++ [9])
  obtain ⟨-, -, hbuilt, hrecognised⟩ := complete_takes_length (whole.window ++ [9])
  obtain ⟨hcopy, -, -, -, hwords, -⟩ := hbuilt 1 2 0xC0000000 [5] whole hwhole
  exact ⟨hodd, by decide +kernel, hagain odd hodd [8, 7], hwhole, hvalid, hcopy [9], hwords,
    hrecognised 28 hvalid⟩

end DetectorLink.Packet
