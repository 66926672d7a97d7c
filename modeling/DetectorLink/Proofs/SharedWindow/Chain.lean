import DetectorLink.Proofs.Packet.Complete
import DetectorLink.Proofs.SharedWindow.Walkers

/-!
# From one packet to the next

The holder of a reservation may ask for the packet after any other, also after one that is not valid
or that reaches behind the window. What it is given stands right behind the bytes that the other one
declares, is whole and lies in the window; after a packet of no length, or one from elsewhere, there
is none. So a chain of packets, each after the one before, goes forward by at least a header with
every turn, and comes to an end.
-/

namespace DetectorLink.Reservation

variable {r : Reservation} {o : Nat} {p q : Placed}

/-- A whole packet of an allowed length at an offset of a window, with just the bytes that the
window has there. -/
structure Complete (r : Reservation) (o : Nat) (p : Placed) : Prop where
  offset : p.offset? = some o
  whole : p.packet.Whole
  bytes : p.packet.bytes = (r.bytes.drop o).take p.packet.length
  fits : o + p.packet.length ≤ r.bytes.length

/-- A packet, valid or not, whose header stands at an offset of a window. -/
structure StandsAt (r : Reservation) (o : Nat) (p : Placed) : Prop where
  offset : p.offset? = some o
  header : ∃ rest, Packet.parse (r.bytes.drop o) = .ok { p.packet with rest }

theorem standsAt_of_parseAt? (h : r.parseAt? o = some p) : r.StandsAt o p := by
  unfold parseAt? at h
  split at h
  · cases hp : Packet.parse (r.bytes.drop o) with
    | error e =>
      rw [hp] at h
      contradiction
    | ok packet =>
      rw [hp] at h
      obtain rfl := Option.some.inj h
      exact ⟨rfl, packet.rest, hp⟩
  · contradiction

/-- A whole header lies in the window. -/
theorem StandsAt.le_length (h : r.StandsAt o p) : o + Packet.minLength ≤ r.bytes.length := by
  obtain ⟨rest, hparse⟩ := h.header
  have hl := (Packet.parse_isOk_iff _).mp ⟨_, hparse⟩
  simp only [Header.byteCount, List.length_drop] at hl
  simp only [Packet.minLength, Header.byteCount]
  omega

/-- Where a header stands, the window has the valid length that it declares, if any. -/
theorem StandsAt.eq_length (h : r.StandsAt o p) {n : Nat}
    (hv : Packet.validLength? (r.bytes.drop o) = some n) : n = p.packet.length := by
  obtain ⟨rest, hparse⟩ := h.header
  obtain ⟨packet, hpacket, hn, _⟩ := Packet.validLength?_eq_some_iff.mp hv
  obtain rfl := Except.ok.inj (hparse.symm.trans hpacket)
  exact hn.symm

theorem Complete.parse_take (h : r.Complete o p) :
    Packet.parse ((r.bytes.drop o).take p.packet.length) = .ok p.packet :=
  Packet.parse_eq_ok_iff.mpr (h.bytes.symm.trans h.whole.window_eq.symm)

theorem Complete.standsAt (h : r.Complete o p) : r.StandsAt o p := by
  have hparse := Packet.parse_append h.parse_take ((r.bytes.drop o).drop p.packet.length)
  rw [List.take_append_drop] at hparse
  exact ⟨h.offset, _, hparse⟩

theorem Complete.validLength? (h : r.Complete o p) :
    Packet.validLength? (r.bytes.drop o) = some p.packet.length := by
  obtain ⟨rest, hparse⟩ := h.standsAt.header
  refine Packet.validLength?_eq_some_iff.mpr ⟨_, hparse, rfl, ?_, ?_⟩
  · simp only [Packet.allowedLength, Bool.and_eq_true, decide_eq_true_eq]
    exact ⟨⟨h.whole.min_le, h.whole.le_max⟩, h.whole.units⟩
  · rw [List.length_drop]
    have := h.fits
    omega

/-- No more than one packet is complete at an offset. -/
theorem Complete.unique (hp : r.Complete o p) (hq : r.Complete o q) : p = q := by
  have hlength := Option.some.inj (hp.validLength?.symm.trans hq.validLength?)
  have hparse := hp.parse_take
  rw [hlength, hq.parse_take] at hparse
  obtain ⟨offset?, packet⟩ := p
  obtain rfl : offset? = q.offset? := hp.offset.trans hq.offset.symm
  obtain rfl : q.packet = packet := Except.ok.inj hparse
  rfl

/-- Where the window has a valid length, a packet is complete. -/
theorem exists_complete {n : Nat} (h : Packet.validLength? (r.bytes.drop o) = some n) :
    ∃ p, r.packetAt? o = some p ∧ r.Complete o p := by
  obtain ⟨packet, hparse, hn, hbytes⟩ := Packet.parse_take_of_validLength? h
  obtain ⟨p, hat, hoffset, hlength, hlt, _⟩ := exists_packetAt?_eq_some h
  have hfits := (Packet.validLength?_bounds h).2.2.2
  rw [List.length_drop] at hfits
  have hc : r.bytes.covers o = true := (Bytes.covers_iff _ _).mpr (Nat.le_of_lt hlt)
  have hpacket : p = ⟨some o, packet⟩ := by
    rw [packetAt?, hc, Packet.first?, h] at hat
    simp only [ite_true, Option.bind_eq_bind, Option.bind_some, hparse] at hat
    exact (Option.some.inj hat).symm
  refine ⟨p, hat, hoffset, Packet.whole_of_mem_walk (packet_mem_of_mem_place (mem_packetsFrom hat)),
    ?_, by omega⟩
  rw [hpacket, hn]
  exact hbytes

/-- The packet at an offset is the one that is complete there. -/
theorem packetAt?_eq_some_iff : r.packetAt? o = some p ↔ r.Complete o p := by
  constructor
  · intro h
    cases hv : Packet.validLength? (r.bytes.drop o) with
    | none =>
      rw [(packetAt?_of_none hv).1] at h
      contradiction
    | some n =>
      obtain ⟨q, hq, hcomplete⟩ := exists_complete hv
      obtain rfl := Option.some.inj (hq.symm.trans h)
      exact hcomplete
  · intro h
    obtain ⟨q, hq, hcomplete⟩ := exists_complete h.validLength?
    rwa [h.unique hcomplete]

/-- The packet after another is complete right behind it; nothing is after one of no length. -/
theorem StandsAt.next?_eq_some_iff (h : r.StandsAt o p) :
    r.next? p = some q ↔ 0 < p.packet.length ∧ r.Complete (o + p.packet.length) q := by
  have hlt : o < r.bytes.length := Nat.lt_of_lt_of_le (Nat.lt_add_of_pos_right (by decide))
    h.le_length
  rw [next?_of_packetAt? h.offset hlt, packetAt?_eq_some_iff]
  constructor
  · intro hq
    refine ⟨Nat.pos_of_ne_zero fun hz ↦ ?_, hq⟩
    -- a packet of no length would stand where it is complete, of an allowed length
    rw [hz, Nat.add_zero] at hq
    have hmin := hq.whole.min_le
    rw [h.eq_length hq.validLength?, hz] at hmin
    exact absurd hmin (by decide)
  · exact And.right

/-- Nothing is after a packet that does not start in the window. -/
theorem next?_of_outside (h : ∀ o, p.offset? = some o → r.bytes.length ≤ o) : r.next? p = none := by
  have hoffset : r.offsetOf? p = none := by
    refine Option.eq_none_iff_forall_ne_some.mpr fun o ho ↦ ?_
    obtain ⟨hp, hc⟩ := Option.filter_eq_some_iff.mp ho
    exact absurd ((Bytes.covers_iff _ _).mp hc) (Nat.not_le.mpr (Nat.lt_succ_of_le (h o hp)))
  rw [next?, hoffset]
  rfl

variable (r) in
/-- The packet that is reached from another in so many turns, each to the next packet. -/
def ahead? : Nat → Placed → Option Placed
  | 0, p => some p
  | turns + 1, p => (r.next? p).bind (ahead? turns)

/-- Every turn goes forward by a header at least, to where another header stands. -/
theorem StandsAt.of_ahead? {turns : Nat} (h : r.StandsAt o p) (hq : r.ahead? turns p = some q) :
    ∃ i, r.StandsAt i q ∧ o + Packet.minLength * turns ≤ i := by
  induction turns generalizing o p with
  | zero =>
    obtain rfl := Option.some.inj hq
    exact ⟨o, h, Nat.le_refl _⟩
  | succ turns ih =>
    obtain ⟨next, hnext, hq⟩ := Option.bind_eq_some_iff.mp hq
    obtain ⟨hpos, hcomplete⟩ := h.next?_eq_some_iff.mp hnext
    obtain ⟨i, hi, hle⟩ := ih hcomplete.standsAt hq
    have hheader : Packet.minLength ≤ p.packet.length :=
      Packet.byteCount_le_length (Nat.ne_of_gt hpos)
    refine ⟨i, hi, ?_⟩
    rw [Nat.mul_succ]
    omega

/-- There are no more turns than headers in the window. -/
theorem StandsAt.ahead?_eq_none (h : r.StandsAt o p) {turns : Nat}
    (ht : r.bytes.length / Packet.minLength ≤ turns) : r.ahead? turns p = none := by
  refine Option.eq_none_iff_forall_ne_some.mpr fun q hq ↦ ?_
  obtain ⟨i, hi, hle⟩ := h.of_ahead? hq
  have hfits := hi.le_length
  have hunit : Packet.minLength = 24 := rfl
  rw [hunit] at ht hle hfits
  omega

/-- Whatever stands at an offset of a window, valid or not, complete or not: the packet after it is
the complete one that stands right behind the bytes it declares, if it declares any, and none
otherwise. Nothing is after a packet from outside the window. Every turn from one packet to the next
goes forward, and there are fewer turns than headers in the window. -/
theorem next?_forward (r : Reservation) {o : Nat} {current : Placed}
    (h : r.parseAt? o = some current) :
    (∀ p, r.next? current = some p ↔
      o < o + current.packet.length ∧ r.Complete (o + current.packet.length) p) ∧
    (∀ p, (∀ i, p.offset? = some i → r.bytes.length ≤ i) → r.next? p = none) ∧
    (∀ turns p q, r.ahead? turns current = some p → r.next? p = some q →
      ∃ i, p.offset? = some i ∧ q.offset? = some (i + p.packet.length) ∧
        i < i + p.packet.length) ∧
    ∀ turns, r.bytes.length / Packet.minLength ≤ turns → r.ahead? turns current = none := by
  have hs := standsAt_of_parseAt? h
  refine ⟨fun p ↦ ?_, fun p ↦ next?_of_outside, fun turns p q hp hq ↦ ?_,
    fun turns ↦ hs.ahead?_eq_none⟩
  · rw [hs.next?_eq_some_iff, Nat.lt_add_right_iff_pos]
  · obtain ⟨i, hi, -⟩ := hs.of_ahead? hp
    obtain ⟨hpos, hcomplete⟩ := hi.next?_eq_some_iff.mp hq
    exact ⟨i, hi.offset, hcomplete.offset, Nat.lt_add_of_pos_right hpos⟩

/-- A relayed command of two payload bytes is no valid packet of a window, but the next one stands
behind it, and none after that. -/
theorem next?_forward_unaligned :
    let relayed : Bytes := Bytes.zeros 11 ++ 0xC0 :: 2 :: Bytes.zeros 13
    let r : Reservation := ⟨relayed ++ Bytes.zeros 24⟩
    ∃ current next, r.parseAt? 0 = some current ∧ Packet.validLength? r.bytes = none ∧
      r.next? current = some next ∧ next.offset? = some 26 ∧ r.ahead? 2 current = none := by
  intro relayed r
  obtain ⟨current, hcurrent⟩ : ∃ current, r.parseAt? 0 = some current := ⟨_, rfl⟩
  have hlength : current.packet.length = 26 := by
    obtain rfl := Option.some.inj hcurrent
    decide +kernel
  obtain ⟨next, hnext, hcomplete⟩ :=
    exists_complete (r := r) (o := 26) (n := 24) (by decide +kernel)
  obtain ⟨hfirst, -, -, hends⟩ := r.next?_forward hcurrent
  rw [hlength] at hfirst
  exact ⟨current, next, hcurrent, by decide +kernel, (hfirst next).mpr ⟨by decide, hcomplete⟩,
    hcomplete.offset, hends 2 (by decide +kernel)⟩

end DetectorLink.Reservation
