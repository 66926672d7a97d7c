import DetectorLink.Packet.Walk

/-!
# Reading packets in place

Parsing is the inverse of showing a packet's window: bytes parse to a packet exactly when they are
its header followed by its rest. What a header declares is therefore independent of the bytes
behind it, so a packet that is recognised stays recognised when more bytes arrive.
-/

namespace DetectorLink

namespace Word

/-- Four bytes survive being read as a word. -/
theorem toBytes_ofBytes (a b c d : UInt8) : toBytes (ofBytes a b c d) = [a, b, c, d] := by
  have ha := a.toNat_lt
  have hb := b.toNat_lt
  have hc := c.toNat_lt
  have hd := d.toNat_lt
  simp only [toBytes, ofBytes, List.cons.injEq, and_true, ← UInt8.toNat_inj,
    UInt32.toNat_toUInt8, UInt32.toNat_shiftRight, UInt32.toNat_ofNat',
    Nat.shiftRight_eq_div_pow, show (8 : UInt32).toNat = 8 from rfl,
    show (16 : UInt32).toNat = 16 from rfl, show (24 : UInt32).toNat = 24 from rfl,
    Nat.reduceMod, Nat.reducePow] at *
  omega

/-- Whole words survive being read. -/
theorem toByteList_ofByteList {b : Bytes} (h : b.length % 4 = 0) :
    toByteList (ofByteList b) = b := by
  fun_induction ofByteList b with
  | case1 w x y z rest ih =>
    simp only [List.length_cons] at h
    have hr : toByteList (ofByteList rest) = rest := ih (by omega)
    simp only [toByteList, List.flatMap_cons, toBytes_ofBytes] at hr ⊢
    rw [hr]
    rfl
  | case2 b hb =>
    rcases b with _ | ⟨w, _ | ⟨x, _ | ⟨y, _ | ⟨z, rest⟩⟩⟩⟩
    · rfl
    · simp at h
    · simp at h
    · simp at h
    · exact absurd rfl (hb w x y z rest)

/-- A word is read from its own four bytes, if they are there. -/
theorem getElem?_ofByteList (b : Bytes) (i : Nat) : (ofByteList b)[i]? =
    if 4 * i + 4 ≤ b.length then (ofByteList ((b.drop (4 * i)).take 4)).head? else none := by
  fun_induction ofByteList b generalizing i with
  | case1 w x y z rest ih =>
    cases i with
    | zero => simp [ofByteList]
    | succ i =>
      have hd : (w :: x :: y :: z :: rest).drop (4 * (i + 1)) = rest.drop (4 * i) := by
        rw [Nat.mul_succ, Nat.add_comm, ← List.drop_drop]
        rfl
      rw [List.getElem?_cons_succ, ih, hd]
      simp only [List.length_cons, Nat.mul_succ, Nat.add_le_add_iff_right]
  | case2 b hb =>
    have hl : b.length / 4 = 0 := by
      rw [← length_ofByteList, ofByteList]
      · rfl
      · exact hb
    rw [List.getElem?_nil, ite_cond_eq_false _ _ (eq_false (by omega))]

/-- Random access agrees with reading all words. -/
theorem get?_eq_getElem? (b : Bytes) {i : Nat} (hi : 4 * i < offsetBound) :
    get? b i = (ofByteList b)[i]? := by
  rw [getElem?_ofByteList, get?, start?, ite_cond_eq_true _ _ (eq_true hi)]
  simp only [Option.bind_eq_bind, Option.bind_some, stop, Bytes.slice?, Nat.le_add_right,
    decide_true, Bool.true_and, Bytes.covers_iff, Nat.add_sub_cancel_left]
  split <;> rfl

end Word

namespace Header

theorem ofWords?_eq_some_iff {ws : List UInt32} {h : Header} :
    ofWords? ws = some h ↔ ws = h.words := by
  constructor
  · intro he
    unfold ofWords? at he
    split at he
    · rw [← Option.some.inj he]
      rfl
    · contradiction
  · rintro rfl
    exact ofWords?_words h

/-- A header is read exactly from bytes that start with it. -/
theorem ofBytes?_eq_some_iff {b : Bytes} {h : Header} :
    ofBytes? b = some h ↔ ∃ rest, b = h.toBytes ++ rest := by
  rw [ofBytes?, ofWords?_eq_some_iff]
  constructor
  · intro he
    have hl : (b.take byteCount).length / 4 = 6 := by
      rw [← Word.length_ofByteList, he]
      rfl
    have hb : (b.take byteCount).length ≤ 24 := List.length_take_le _ _
    refine ⟨b.drop byteCount, ?_⟩
    rw [toBytes, ← he, Word.toByteList_ofByteList (by omega), List.take_append_drop]
  · rintro ⟨rest, rfl⟩
    rw [List.take_left' h.length_toBytes, toBytes, Word.ofByteList_toByteList]

end Header

namespace Packet

/-- Bytes parse to a packet exactly when they are its window. -/
theorem parse_eq_ok_iff {b : Bytes} {p : Packet} : parse b = .ok p ↔ b = p.window := by
  constructor
  · intro h
    unfold parse at h
    split at h
    · next header hh =>
      obtain ⟨rest, rfl⟩ := Header.ofBytes?_eq_some_iff.mp hh
      rw [← Except.ok.inj h, window, List.drop_left' header.length_toBytes]
    · contradiction
  · rintro rfl
    have hh : Header.ofBytes? p.window = some p.header :=
      Header.ofBytes?_eq_some_iff.mpr ⟨p.rest, rfl⟩
    rw [parse, hh, window, List.drop_left' p.header.length_toBytes]

theorem length_window (p : Packet) : p.window.length = Header.byteCount + p.rest.length := by
  rw [window, List.length_append, Header.length_toBytes]

/-- Bytes parse exactly when a whole header is there. -/
theorem parse_isOk_iff (b : Bytes) : (∃ p, parse b = .ok p) ↔ Header.byteCount ≤ b.length := by
  constructor
  · rintro ⟨p, hp⟩
    rw [parse_eq_ok_iff.mp hp, length_window]
    exact Nat.le_add_right _ _
  · intro h
    have hl : (b.take Header.byteCount).length = 24 := List.length_take_of_le h
    have hw : (Word.ofByteList (b.take Header.byteCount)).length = 6 := by
      rw [Word.length_ofByteList, hl]
    match hws : Word.ofByteList (b.take Header.byteCount), hw with
    | [w₀, w₁, w₂, w₃, w₄, w₅], _ =>
      exact ⟨_, by simp only [parse, Header.ofBytes?, hws, Header.ofWords?]; rfl⟩

/-- What follows a packet does not change how it is read. -/
theorem parse_append {b : Bytes} {p : Packet} (h : parse b = .ok p) (more : Bytes) :
    parse (b ++ more) = .ok { p with rest := p.rest ++ more } := by
  rw [parse_eq_ok_iff.mp h, parse_eq_ok_iff, window, window, List.append_assoc]

/-- The start of a window has the length that its header declares, is allowed and complete. -/
theorem validLength?_eq_some_iff {b : Bytes} {n : Nat} :
    validLength? b = some n ↔
      ∃ p, parse b = .ok p ∧ p.length = n ∧ allowedLength n = true ∧ n ≤ b.length := by
  unfold validLength?
  cases hp : parse b with
  | error e => simp only [reduceCtorEq, false_and, exists_false]
  | ok p =>
    simp only [Option.ite_none_right_eq_some, Bool.and_eq_true, Bytes.covers_iff,
      Option.some.injEq, Except.ok.injEq]
    constructor
    · rintro ⟨⟨ha, hl⟩, rfl⟩
      exact ⟨p, rfl, rfl, ha, hl⟩
    · rintro ⟨p, rfl, rfl, ha, hl⟩
      exact ⟨⟨ha, hl⟩, rfl⟩

/-- A window starts with an impossible header exactly when it declares no allowed length. -/
theorem corruptHead_iff {b : Bytes} :
    corruptHead b = true ↔ ∃ p, parse b = .ok p ∧ allowedLength p.length = false := by
  unfold corruptHead
  cases hp : parse b with
  | error e => simp only [Bool.false_eq_true, reduceCtorEq, false_and, exists_false]
  | ok p =>
    simp only [Bool.not_eq_true', Except.ok.injEq]
    exact ⟨fun h ↦ ⟨p, rfl, h⟩, fun ⟨_, he, h⟩ ↦ he ▸ h⟩

/-- A complete packet stays complete when more bytes arrive. -/
theorem validLength?_append {b : Bytes} {n : Nat} (h : validLength? b = some n) (more : Bytes) :
    validLength? (b ++ more) = some n := by
  obtain ⟨p, hp, hn, ha, hl⟩ := validLength?_eq_some_iff.mp h
  refine validLength?_eq_some_iff.mpr ⟨_, parse_append hp more, hn, ha, ?_⟩
  rw [List.length_append]
  exact Nat.le_trans hl (Nat.le_add_right _ _)

/-- An impossible header stays impossible when more bytes arrive. -/
theorem corruptHead_append {b : Bytes} (h : corruptHead b = true) (more : Bytes) :
    corruptHead (b ++ more) = true := by
  obtain ⟨p, hp, ha⟩ := corruptHead_iff.mp h
  exact corruptHead_iff.mpr ⟨_, parse_append hp more, ha⟩

/-- No packet starts with an impossible header. -/
theorem validLength?_of_corruptHead {b : Bytes} (h : corruptHead b = true) :
    validLength? b = none := by
  obtain ⟨p, hp, ha⟩ := corruptHead_iff.mp h
  rw [Option.eq_none_iff_forall_ne_some]
  intro n hn
  obtain ⟨q, hq, rfl, hb, _⟩ := validLength?_eq_some_iff.mp hn
  rw [hp] at hq
  cases hq
  rw [ha] at hb
  contradiction

/-- A window that shows neither a packet nor an impossible header ends inside a packet. -/
theorem partial_cases {b : Bytes} (hv : validLength? b = none) (hc : corruptHead b = false) :
    b.length < Header.byteCount ∨
      ∃ p, parse b = .ok p ∧ allowedLength p.length = true ∧ b.length < p.length := by
  by_cases hl : Header.byteCount ≤ b.length
  · obtain ⟨p, hp⟩ := (parse_isOk_iff b).mpr hl
    have ha : allowedLength p.length = true := by
      rw [← Bool.not_eq_false]
      intro hn
      rw [corruptHead_iff.mpr ⟨p, hp, hn⟩] at hc
      contradiction
    refine .inr ⟨p, hp, ha, Nat.lt_of_not_le ?_⟩
    intro hle
    rw [validLength?_eq_some_iff.mpr ⟨p, hp, rfl, ha, hle⟩] at hv
    contradiction
  · exact .inl (Nat.lt_of_not_le hl)

/-- A window that ends inside a packet shows neither a packet nor an impossible header. -/
theorem partial_of_length_lt {b : Bytes} (h : b.length < Header.byteCount ∨
      ∃ p, parse b = .ok p ∧ allowedLength p.length = true ∧ b.length < p.length) :
    validLength? b = none ∧ corruptHead b = false := by
  rw [Option.eq_none_iff_forall_ne_some, Bool.eq_false_iff]
  rcases h with hl | ⟨p, hp, ha, hl⟩
  · have hnone : ¬∃ p, parse b = .ok p := mt (parse_isOk_iff b).mp (Nat.not_le.mpr hl)
    exact ⟨fun n hn ↦ hnone ((validLength?_eq_some_iff.mp hn).imp fun _ hp ↦ hp.1),
      fun hc ↦ hnone ((corruptHead_iff.mp hc).imp fun _ hp ↦ hp.1)⟩
  · constructor
    · intro n hn
      obtain ⟨q, hq, rfl, _, hle⟩ := validLength?_eq_some_iff.mp hn
      obtain rfl := Except.ok.inj (hp.symm.trans hq)
      exact absurd hle (Nat.not_le.mpr hl)
    · intro hc
      obtain ⟨q, hq, hn⟩ := corruptHead_iff.mp hc
      obtain rfl := Except.ok.inj (hp.symm.trans hq)
      rw [ha] at hn
      contradiction

/-- Less than a word behind whole words that end inside a packet does not complete it. -/
theorem partial_append {b tail : Bytes} (hv : validLength? b = none) (hc : corruptHead b = false)
    (hb : b.length % 4 = 0) (ht : tail.length < alignment) :
    validLength? (b ++ tail) = none ∧ corruptHead (b ++ tail) = false := by
  have hunit : alignment = 4 := rfl
  refine partial_of_length_lt ?_
  rw [List.length_append]
  rcases partial_cases hv hc with hl | ⟨p, hp, ha, hl⟩
  · have hcount : Header.byteCount = 24 := rfl
    exact .inl (by omega)
  · refine .inr ⟨_, parse_append hp tail, ha, ?_⟩
    show b.length + tail.length < p.length
    simp only [allowedLength, Bool.and_eq_true, decide_eq_true_eq] at ha
    have hunits : p.length % 4 = 0 := ha.2
    omega

/-- A window that ends inside its first packet is shorter than the longest packet. -/
theorem length_lt_of_partial {b : Bytes} (hv : validLength? b = none)
    (hc : corruptHead b = false) : b.length < maxLength := by
  rcases partial_cases hv hc with hl | ⟨p, _, ha, hl⟩
  · exact Nat.lt_trans hl (by decide)
  · simp only [allowedLength, Bool.and_eq_true, decide_eq_true_eq] at ha
    omega

/-- A cut leaves the packet at the start of a window exactly if it does not go through it. -/
theorem validLength?_take_iff {b : Bytes} {n k : Nat} :
    validLength? (b.take k) = some n ↔ validLength? b = some n ∧ n ≤ k := by
  constructor
  · intro h
    have hb := validLength?_append h (b.drop k)
    rw [List.take_append_drop] at hb
    exact ⟨hb, Nat.le_trans (validLength?_bounds h).2.2.2 (List.length_take_le k b)⟩
  · rintro ⟨h, hk⟩
    obtain ⟨p, hp, hn, ha, hl⟩ := validLength?_eq_some_iff.mp h
    have hcut : n ≤ (b.take k).length := by
      rw [List.length_take]
      exact Nat.le_min.mpr ⟨hk, hl⟩
    obtain ⟨q, hq⟩ := (parse_isOk_iff _).mpr (Nat.le_trans (validLength?_bounds h).1 hcut)
    -- the header is the same with and without the bytes that are cut off
    have hqb := parse_append hq (b.drop k)
    rw [List.take_append_drop, hp] at hqb
    obtain rfl := Except.ok.inj hqb
    exact validLength?_eq_some_iff.mpr ⟨q, hq, hn, ha, hcut⟩

/-- A cut behind its header leaves a packet that lacks the end of its rest. -/
theorem parse_take {b : Bytes} {p : Packet} (h : parse b = .ok p) {k : Nat}
    (hk : Header.byteCount ≤ k) :
    parse (b.take k) = .ok { p with rest := p.rest.take (k - Header.byteCount) } := by
  rw [parse_eq_ok_iff.mp h, parse_eq_ok_iff, window, window, List.take_append,
    Header.length_toBytes, List.take_of_length_le (by rw [Header.length_toBytes]; exact hk)]

/-- A complete packet, cut off from what follows, parses to a packet of exactly these bytes. -/
theorem parse_take_of_validLength? {b : Bytes} {n : Nat} (h : validLength? b = some n) :
    ∃ p, parse (b.take n) = .ok p ∧ p.length = n ∧ p.bytes = b.take n := by
  obtain ⟨p, hp, hn, ha, hl⟩ := validLength?_eq_some_iff.mp h
  have hcut := parse_take hp (validLength?_bounds h).1
  refine ⟨_, hcut, hn, ?_⟩
  rw [parse_eq_ok_iff.mp hcut, bytes, window]
  show p.header.toBytes ++
    (p.rest.take (n - Header.byteCount)).take (p.length - Header.byteCount) = _
  rw [hn, List.take_take, Nat.min_self]

end Packet

end DetectorLink
