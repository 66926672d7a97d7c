import DetectorLink.Proofs.Packet.Scan
import DetectorLink.Proofs.SharedWindow.Holders

/-!
# Ways to walk a window

The packets of a reserved window can be iterated, followed one to the next, or merely counted. Each
of these keeps a place of its own: an offset, the last packet, an offset with a number. Turn by turn
they stand at the same place, and they end together, where no packet stands. The packets lie back to
back from the start of the window on.
-/

namespace DetectorLink

namespace Packet

/-- Where a count of the packets of `b` stands after so many turns: the offset behind them and their
number. It stays where no packet stands. -/
def tally (b : Bytes) : Nat → Nat × Nat → Nat × Nat
  | 0, place => place
  | turns + 1, (offset, count) =>
    match validLength? (b.drop offset) with
    | none => (offset, count)
    | some n => tally b turns (offset + n, count + 1)

variable {b : Bytes}

/-- A packet of an allowed length that has exactly as many bytes as it declares, none of those
behind it. -/
structure Whole (p : Packet) : Prop where
  min_le : minLength ≤ p.length
  le_max : p.length ≤ maxLength
  units : p.length % alignment = 0
  window_eq : p.window = p.bytes
  length_bytes : p.bytes.length = p.length

/-- The packets of a walk are whole. -/
theorem whole_of_mem_walk {p : Packet} (hp : p ∈ walk b) : p.Whole := by
  fun_induction walk b with
  | case1 => contradiction
  | case2 b n h hb ih =>
    obtain ⟨q, hq, hn, hbytes⟩ := parse_take_of_validLength? h
    rw [hq] at hp
    rcases List.mem_cons.mp hp with rfl | hp
    · have hlength : p.bytes.length = p.length := by
        rw [hbytes, List.length_take_of_le hb.2.2.2, hn]
      exact ⟨hn ▸ hb.1, hn ▸ hb.2.1, hn ▸ hb.2.2.1,
        (parse_eq_ok_iff.mp hq).symm.trans hbytes.symm, hlength⟩
    · exact ih hp

/-- The packets of a walk are the valid prefix of the bytes. -/
theorem flatten_walk (b : Bytes) : ((walk b).map bytes).flatten = b.take (validPrefix b).1 := by
  fun_induction walk b with
  | case1 b h =>
    rw [validPrefix_of_none h]
    rfl
  | case2 b n h _ ih =>
    obtain ⟨q, hq, _, hbytes⟩ := parse_take_of_validLength? h
    rw [hq, validPrefix_of_validLength? h, List.take_add, ← ih]
    exact congrArg (· ++ _) hbytes

/-- No packet stands behind the valid prefix. -/
theorem validLength?_drop_validPrefix (b : Bytes) :
    validLength? (b.drop (validPrefix b).1) = none := by
  fun_induction validPrefix b with
  | case1 b h => exact h
  | case2 b n h _ length count hrest ih =>
    rw [hrest] at ih
    rwa [← List.drop_drop]

end Packet

/-- Number of bytes that packets declare together. -/
def Placed.byteCount : List Placed → Nat
  | [] => 0
  | p :: ps => p.packet.length + byteCount ps

theorem Placed.byteCount_cons (p : Placed) (ps : List Placed) :
    byteCount (p :: ps) = p.packet.length + byteCount ps := rfl

theorem Placed.byteCount_append (ps qs : List Placed) :
    byteCount (ps ++ qs) = byteCount ps + byteCount qs := by
  induction ps with
  | nil => exact (Nat.zero_add _).symm
  | cons p ps ih => rw [List.cons_append, byteCount_cons, byteCount_cons, ih, Nat.add_assoc]

namespace Reservation

variable (r : Reservation)

/-- The packets that an iteration gives in so many turns, from an offset on. It ends where no packet
stands. -/
def iterate : Nat → Nat → List Placed
  | 0, _ => []
  | turns + 1, offset =>
    match r.packetAt? offset with
    | none => []
    | some p => p :: iterate turns (offset + p.packet.length)

/-- The packets of the window from an offset on. -/
def packetsFrom (offset : Nat) : List Placed := place offset (Packet.walk (r.bytes.drop offset))

theorem packetsFrom_zero : r.packetsFrom 0 = r.packets := rfl

variable {r} {offset : Nat} {p : Placed}

/-- No packet stands where none of an allowed length is complete. -/
theorem packetAt?_of_none (h : Packet.validLength? (r.bytes.drop offset) = none) :
    r.packetAt? offset = none ∧ r.packetsFrom offset = [] := by
  constructor
  · rw [packetAt?, Packet.first?, h]
    split <;> rfl
  · rw [packetsFrom, Packet.walk_of_none h]
    rfl

/-- Where a packet stands, those of the window go on behind it. -/
theorem exists_packetAt?_eq_some {n : Nat}
    (h : Packet.validLength? (r.bytes.drop offset) = some n) :
    ∃ p : Placed, r.packetAt? offset = some p ∧ p.offset? = some offset ∧ p.packet.length = n ∧
      offset < r.bytes.length ∧ r.packetsFrom offset = p :: r.packetsFrom (offset + n) := by
  obtain ⟨q, hq, hn, _, hw⟩ := Packet.exists_walk_eq_cons h
  have hb := Packet.validLength?_bounds h
  simp only [Packet.minLength, Header.byteCount, List.length_drop] at hb
  refine ⟨⟨some offset, q⟩, ?_, rfl, hn, by omega, ?_⟩
  · have hc : r.bytes.covers offset = true := (Bytes.covers_iff _ _).mpr (by omega)
    rw [packetAt?, hc, Packet.first?, h]
    simp only [Option.bind_eq_bind, Option.bind_some, hq]
    rfl
  · rw [packetsFrom, hw, place, hn, List.drop_drop]
    rfl

theorem offsetOf?_of_offset? (h : p.offset? = some offset) (ho : offset < r.bytes.length) :
    r.offsetOf? p = some offset := by
  have hc : r.bytes.covers (offset + 1) = true := (Bytes.covers_iff _ _).mpr ho
  rw [offsetOf?, h, Option.filter_some, hc]
  rfl

/-- Following a packet leads to where the next one stands. -/
theorem next?_of_packetAt? (h : p.offset? = some offset) (ho : offset < r.bytes.length) :
    r.next? p = r.packetAt? (offset + p.packet.length) := by
  rw [next?, offsetOf?_of_offset? h ho]
  rfl

/-- The packet at an offset is one of those from there on. -/
theorem mem_packetsFrom (h : r.packetAt? offset = some p) : p ∈ r.packetsFrom offset := by
  cases hv : Packet.validLength? (r.bytes.drop offset) with
  | none =>
    rw [(packetAt?_of_none hv).1] at h
    contradiction
  | some n =>
    obtain ⟨q, hat, _, _, _, hfrom⟩ := exists_packetAt?_eq_some hv
    obtain rfl := Option.some.inj (hat.symm.trans h)
    exact hfrom ▸ List.mem_cons_self

/-- Behind the first packets from an offset on stand the others. -/
theorem packetsFrom_byteCount_take (k offset : Nat) :
    r.packetsFrom (offset + Placed.byteCount ((r.packetsFrom offset).take k)) =
      (r.packetsFrom offset).drop k := by
  induction k generalizing offset with
  | zero => rfl
  | succ k ih =>
    cases h : Packet.validLength? (r.bytes.drop offset) with
    | none =>
      have hfrom := (packetAt?_of_none h).2
      rw [hfrom]
      exact hfrom
    | some n =>
      obtain ⟨p, _, _, hn, _, hfrom⟩ := exists_packetAt?_eq_some h
      rw [hfrom, List.take_succ_cons, List.drop_succ_cons, ← ih, Placed.byteCount_cons, hn,
        ← Nat.add_assoc]

/-- Behind the first packets of the window stand the others. -/
theorem packetsFrom_behind (j : Nat) :
    r.packetsFrom (Placed.byteCount (r.packets.take j)) = r.packets.drop j := by
  rw [← packetsFrom_zero, ← packetsFrom_byteCount_take, Nat.zero_add]

/-- An iteration gives the packets of the window. -/
theorem iterate_eq (turns offset : Nat) :
    r.iterate turns offset = (r.packetsFrom offset).take turns := by
  induction turns generalizing offset with
  | zero => rfl
  | succ turns ih =>
    cases h : Packet.validLength? (r.bytes.drop offset) with
    | none =>
      obtain ⟨hat, hfrom⟩ := packetAt?_of_none h
      rw [iterate, hat, hfrom]
      rfl
    | some n =>
      obtain ⟨p, hat, _, rfl, _, hfrom⟩ := exists_packetAt?_eq_some h
      rw [iterate, hat, hfrom, List.take_succ_cons, ← ih]

/-- Following the packet at an offset gives the packets of the window. -/
theorem follow_packetAt? (turns offset : Nat) :
    r.follow turns (r.packetAt? offset) = (r.packetsFrom offset).take turns := by
  induction turns generalizing offset with
  | zero => rfl
  | succ turns ih =>
    cases h : Packet.validLength? (r.bytes.drop offset) with
    | none =>
      obtain ⟨hat, hfrom⟩ := packetAt?_of_none h
      rw [hat, hfrom]
      rfl
    | some n =>
      obtain ⟨p, hat, hp, hn, hlt, hfrom⟩ := exists_packetAt?_eq_some h
      rw [hat, hfrom, follow, next?_of_packetAt? hp hlt, ih, hn, List.take_succ_cons]

/-- A count goes over the packets of the window. -/
theorem tally_eq (turns offset count : Nat) :
    Packet.tally r.bytes turns (offset, count) =
      (offset + Placed.byteCount ((r.packetsFrom offset).take turns),
        count + ((r.packetsFrom offset).take turns).length) := by
  induction turns generalizing offset count with
  | zero => rfl
  | succ turns ih =>
    cases h : Packet.validLength? (r.bytes.drop offset) with
    | none =>
      rw [Packet.tally, h, (packetAt?_of_none h).2]
      rfl
    | some n =>
      obtain ⟨p, _, _, hn, _, hfrom⟩ := exists_packetAt?_eq_some h
      rw [Packet.tally, h, hfrom, List.take_succ_cons]
      simp only [ih, Placed.byteCount_cons, List.length_cons, hn]
      rw [Nat.add_assoc, Nat.add_assoc, Nat.add_comm 1]

/-- Each placed packet starts where those before it end. -/
theorem offset?_of_getElem?_place {qs : List Packet} {k : Nat}
    (h : (place offset qs)[k]? = some p) :
    p.offset? = some (offset + Placed.byteCount ((place offset qs).take k)) := by
  induction qs generalizing offset k with
  | nil => contradiction
  | cons q qs ih =>
    cases k with
    | zero =>
      rw [place, List.getElem?_cons_zero] at h
      rw [← Option.some.inj h]
      rfl
    | succ k =>
      rw [place, List.getElem?_cons_succ] at h
      rw [ih h, place, List.take_succ_cons, Nat.add_assoc]
      rfl

theorem byteCount_place {qs : List Packet} (h : ∀ q ∈ qs, q.bytes.length = q.length)
    (offset : Nat) : Placed.byteCount (place offset qs) = (qs.map Packet.bytes).flatten.length := by
  induction qs generalizing offset with
  | nil => rfl
  | cons q qs ih =>
    rw [place, Placed.byteCount_cons, ih fun p hp ↦ h p (List.mem_cons_of_mem q hp), List.map_cons,
      List.flatten_cons, List.length_append, h q List.mem_cons_self]

theorem take_place (offset : Nat) (qs : List Packet) (k : Nat) :
    (place offset qs).take k = place offset (qs.take k) := by
  induction qs generalizing offset k with
  | nil => rw [place, List.take_nil, List.take_nil, place]
  | cons q qs ih =>
    cases k with
    | zero => rfl
    | succ k => rw [place, List.take_succ_cons, ih, List.take_succ_cons, place]

theorem map_packet_place (offset : Nat) (qs : List Packet) :
    (place offset qs).map (·.packet) = qs := by
  induction qs generalizing offset with
  | nil => rfl
  | cons q qs ih => rw [place, List.map_cons, ih]

theorem packet_mem_of_mem_place {qs : List Packet} (h : p ∈ place offset qs) : p.packet ∈ qs := by
  rw [← map_packet_place offset qs]
  exact List.mem_map_of_mem h

/-- Where a packet of the window stands, and where it ends. -/
theorem place_of_getElem? {k : Nat} (h : r.packets[k]? = some p) :
    p.offset? = some (Placed.byteCount (r.packets.take k)) ∧
      Placed.byteCount (r.packets.take k) < r.bytes.length ∧
      r.endOf? p = some (Placed.byteCount (r.packets.take (k + 1))) := by
  have hoffset := offset?_of_getElem?_place h
  rw [Nat.zero_add] at hoffset
  have hfrom : r.packetsFrom (Placed.byteCount (r.packets.take k)) = r.packets.drop k :=
    packetsFrom_behind k
  have hlt : Placed.byteCount (r.packets.take k) < r.bytes.length := by
    cases hv : Packet.validLength? (r.bytes.drop (Placed.byteCount (r.packets.take k))) with
    | none =>
      rw [(packetAt?_of_none hv).2, List.drop_eq_getElem?_toList_append, h] at hfrom
      contradiction
    | some n =>
      obtain ⟨_, _, _, _, hlt, _⟩ := exists_packetAt?_eq_some hv
      exact hlt
  refine ⟨hoffset, hlt, ?_⟩
  rw [endOf?, offsetOf?_of_offset? hoffset hlt, List.take_add_one, h, Placed.byteCount_append]
  rfl

/-- A packet of the window ends where the first of its packets do, behind its start. -/
theorem exists_endOf?_eq_some (h : p ∈ r.packets) :
    ∃ j ≤ r.packets.length, 0 < Placed.byteCount (r.packets.take j) ∧
      r.endOf? p = some (Placed.byteCount (r.packets.take j)) := by
  obtain ⟨k, hk⟩ := List.mem_iff_getElem?.mp h
  obtain ⟨hoffset, hlt, hend⟩ := place_of_getElem? hk
  refine ⟨k + 1, (List.getElem?_eq_some_iff.mp hk).1, ?_, hend⟩
  rw [endOf?, offsetOf?_of_offset? hoffset hlt] at hend
  rw [← Option.some.inj hend]
  have hmin := (Packet.whole_of_mem_walk (packet_mem_of_mem_place h)).min_le
  exact Nat.lt_of_lt_of_le (by decide : 0 < Packet.minLength)
    (Nat.le_trans hmin (Nat.le_add_left _ _))

/-- Packets that the holder of a reservation finds by walking it. -/
inductive Obtained (r : Reservation) : Placed → Prop
  | first {p : Placed} (h : r.first? = some p) : Obtained r p
  | next {p q : Placed} (hp : Obtained r p) (h : r.next? p = some q) : Obtained r q
  | iterated {p : Placed} (turns : Nat) (h : p ∈ r.iterate turns 0) : Obtained r p

/-- A walk finds just the packets of the window. -/
theorem obtained_iff : r.Obtained p ↔ p ∈ r.packets := by
  constructor
  · intro h
    induction h with
    | first h => exact mem_packetsFrom h
    | @next p q _ h ih =>
      obtain ⟨k, hk⟩ := List.mem_iff_getElem?.mp ih
      obtain ⟨hoffset, hlt, hend⟩ := place_of_getElem? hk
      rw [endOf?, offsetOf?_of_offset? hoffset hlt] at hend
      have hnext : r.packetAt? (Placed.byteCount (r.packets.take (k + 1))) = some q := by
        rw [← h, next?_of_packetAt? hoffset hlt]
        exact congrArg r.packetAt? (Option.some.inj hend).symm
      exact List.mem_of_mem_drop (packetsFrom_behind (k + 1) ▸ mem_packetsFrom hnext)
    | iterated turns h =>
      rw [iterate_eq] at h
      exact List.mem_of_mem_take h
  · intro h
    refine .iterated r.packets.length ?_
    rwa [iterate_eq, packetsFrom_zero, List.take_length]

variable (r)

/-- A reservation shows the packets of the walk. -/
theorem packetList_eq : r.packetList = Packet.walk r.bytes := map_packet_place 0 _

/-- The valid prefix ends behind the packets of the window, and counts them. -/
theorem validPrefix_bytes :
    Packet.validPrefix r.bytes = (Placed.byteCount r.packets, r.packets.length) := by
  have hcount : r.packets.length = (Packet.walk r.bytes).length := by
    rw [← packetList_eq, packetList, List.length_map]
  rw [Packet.validPrefix_eq, hcount, packets,
    byteCount_place fun q hq ↦ (Packet.whole_of_mem_walk hq).length_bytes]

/-- The first packets of a window are made of whole units. -/
theorem byteCount_packets_take_mod (j : Nat) : Placed.byteCount (r.packets.take j) % 4 = 0 := by
  have hmod : ∀ p ∈ r.packets.take j, p.packet.length % 4 = 0 := fun p hp ↦
    (Packet.whole_of_mem_walk (packet_mem_of_mem_place (List.mem_of_mem_take hp))).units
  generalize r.packets.take j = ps at hmod
  induction ps with
  | nil => rfl
  | cons p ps ih =>
    have hp := hmod p List.mem_cons_self
    have hps := ih fun q hq ↦ hmod q (List.mem_cons_of_mem p hq)
    rw [Placed.byteCount_cons]
    omega

/-- The first packets of a window are within its valid prefix. -/
theorem byteCount_packets_take_le (j : Nat) :
    Placed.byteCount (r.packets.take j) ≤ (Packet.validPrefix r.bytes).1 := by
  have hsplit : Placed.byteCount r.packets =
      Placed.byteCount (r.packets.take j) + Placed.byteCount (r.packets.drop j) := by
    rw [← Placed.byteCount_append, List.take_append_drop]
  rw [validPrefix_bytes, hsplit]
  exact Nat.le_add_right _ _

/-- A walk that starts behind the first packets of a window shows the others. -/
theorem walk_drop_byteCount_take (j : Nat) :
    Packet.walk (r.bytes.drop (Placed.byteCount (r.packets.take j))) = r.packetList.drop j := by
  rw [packetList, ← List.map_drop, ← packetsFrom_behind, packetsFrom, map_packet_place]

/-- Packets that lie back to back in a window, from its start on to where no packet stands. -/
structure BackToBack (window : Bytes) (ps : List Placed) : Prop where
  /-- Each packet starts where those before it end. -/
  starts : ∀ k p, ps[k]? = some p → p.offset? = some (Placed.byteCount (ps.take k))
  whole : ∀ p ∈ ps, p.packet.Whole
  covered : (ps.map (·.packet.bytes)).flatten = window.take (Placed.byteCount ps)
  ends : Packet.validLength? (window.drop (Placed.byteCount ps)) = none

theorem backToBack_packets : BackToBack r.bytes r.packets := by
  have hprefix : (Packet.validPrefix r.bytes).1 = _ := congrArg Prod.fst r.validPrefix_bytes
  dsimp only at hprefix
  constructor
  · intro k p h
    rw [offset?_of_getElem?_place h, Nat.zero_add]
    rfl
  · exact fun p h ↦ Packet.whole_of_mem_walk (packet_mem_of_mem_place h)
  · rw [← hprefix, ← Packet.flatten_walk, ← r.packetList_eq, packetList, List.map_map]
    rfl
  · rw [← hprefix]
    exact Packet.validLength?_drop_validPrefix r.bytes

end Reservation

namespace SharedWindow.History

open Reservation

/-- A reservation that lives after any calls sees the window of the installation it was taken under,
and all ways to walk it agree: after any number of turns an iteration, a chain from the first packet
to each next one, and a count have gone over the same packets. The valid prefix ends behind all of
them; they lie back to back from the start of the window to where no packet stands. -/
theorem run_walkers_agree (actions : List Action) :
    let h := start.run actions
    ∀ held ∈ h.live, ∃ window, (installs h.log)[held.number]? = some window ∧
      let r := held.reservation
      (∀ turns, r.iterate turns 0 = r.packets.take turns ∧
        r.follow turns r.first? = r.packets.take turns ∧
        Packet.tally window turns (0, 0) =
          (Placed.byteCount (r.packets.take turns), (r.packets.take turns).length)) ∧
      Packet.validPrefix window = (Placed.byteCount r.packets, r.packets.length) ∧
      BackToBack window r.packets := by
  intro h held hm
  have hs : h.Sound := sound_run sound_start actions
  obtain ⟨_, hbytes⟩ := hs.live held hm
  refine ⟨held.reservation.bytes, hbytes, fun turns ↦ ⟨iterate_eq turns 0, ?_, ?_⟩,
    held.reservation.validPrefix_bytes, held.reservation.backToBack_packets⟩
  · exact follow_packetAt? turns 0
  · rw [tally_eq, Nat.zero_add, Nat.zero_add, packetsFrom_zero]

/-- Two packets are walked in a window of three of which the last lacks a byte. -/
theorem run_walkers_agree_truncated :
    let packet : Bytes := List.replicate 12 0 ++ 4 :: List.replicate 11 0 ++ [1, 2, 3, 4]
    let window := Bytes.zeros 24 ++ packet ++ packet.take 27
    let h := start.run [.install window, .reserve, .reserve, .drop 0, .release]
    let r : Reservation := ⟨window⟩
    ⟨0, r⟩ ∈ h.live ∧ r.packets.map (·.offset?) = [some 0, some 24] ∧
      r.iterate 3 0 = r.packets ∧ r.follow 3 r.first? = r.packets ∧
      Packet.tally window 3 (0, 0) = (52, 2) ∧ Packet.validPrefix window = (52, 2) := by
  intro packet window h r
  have hm : ⟨0, r⟩ ∈ h.live := by decide +kernel
  have hoffsets : r.packets.map (·.offset?) = [some 0, some 24] := by decide +kernel
  have hcount : Placed.byteCount r.packets = 52 ∧ r.packets.length = 2 := by decide +kernel
  obtain ⟨w, hw, hturns, hprefix, _⟩ := run_walkers_agree
    [.install window, .reserve, .reserve, .drop 0, .release] ⟨0, r⟩ hm
  obtain rfl : window = w := Option.some.inj hw
  have hall : r.packets.take 3 = r.packets := List.take_of_length_le (by omega)
  obtain ⟨hiterate, hfollow, htally⟩ := hturns 3
  rw [hall] at hiterate hfollow htally
  rw [htally, hprefix, hcount.1, hcount.2]
  exact ⟨hm, hoffsets, hiterate, hfollow, rfl, rfl⟩

end SharedWindow.History

end DetectorLink
