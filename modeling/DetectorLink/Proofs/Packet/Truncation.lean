import DetectorLink.Proofs.Packet.Outgoing

/-!
# Cut and continued frames are refused

One stop flag ends a framed command: that of its last frame, or that of its header if there is no
frame. Of two streams of frames behind one header that are both accepted, none continues the other.
So neither a command that lacks its end nor one that goes on is taken for another command, be it
that frames are missing or that the bytes of its packet are cut, within a word or between words.
-/

namespace DetectorLink

namespace Word

/-- A cut behind some bytes leaves the words in front of it. -/
theorem ofByteList_take_toByteList (ws : List UInt32) (k : Nat) :
    ofByteList ((toByteList ws).take k) = ws.take (k / 4) := by
  induction ws generalizing k with
  | nil => rw [toByteList, List.flatMap_nil, List.take_nil, List.take_nil, ofByteList]; simp
  | cons w ws ih =>
    by_cases hk : k < 4
    · have hnone : (ofByteList ((toByteList (w :: ws)).take k)).length = 0 := by
        rw [length_ofByteList, List.length_take]
        omega
      rw [List.length_eq_zero_iff.mp hnone, Nat.div_eq_of_lt hk, List.take_zero]
    · obtain ⟨j, rfl⟩ := Nat.exists_eq_add_of_le (Nat.not_lt.mp hk)
      have htake : (toByteList (w :: ws)).take (4 + j) =
          toByteList [w] ++ (toByteList ws).take j := by
        show (toBytes w ++ toByteList ws).take (4 + j) = _
        rw [← length_toBytes w, List.take_length_add_append]
        rfl
      rw [htake, ofByteList_toByteList_append, ih, Nat.add_div_left _ (by decide)]
      rfl

end Word

namespace Lvds

variable {info : CommandInfo} {raw destination : UInt32} {words frames front back : List UInt32}

/-! ### The end of a stream -/

/-- Frames that are read end where a stop flag stands, so they are not read with others behind
them. -/
theorem eq_nil_of_halves_append {i j : Nat} {hs hs' : List UInt32} (hf : front ≠ [])
    (h : halves i front = .ok hs) (h' : halves j (front ++ back) = .ok hs') : back = [] := by
  induction front generalizing i j hs hs' with
  | nil => contradiction
  | cons frame rest ih =>
    obtain ⟨⟨_, hstop⟩, t, ht, _⟩ := halves_cons_eq_ok_iff.mp h
    rw [List.cons_append] at h'
    obtain ⟨⟨_, hstop'⟩, t', ht', _⟩ := halves_cons_eq_ok_iff.mp h'
    cases rest with
    | nil => exact List.isEmpty_iff.mp (hstop'.symm.trans hstop)
    | cons next others => exact ih (List.cons_ne_nil next others) ht ht'

/-- Of two streams behind one header that are accepted, whoever listens, none continues the
other. -/
theorem eq_nil_of_decode_append {addressing addressing' : Addressing} {cmd cmd' : Decoded}
    (h : decode raw front addressing = .ok cmd)
    (h' : decode raw (front ++ back) addressing' = .ok cmd') : back = [] := by
  obtain ⟨read, hs, _, ha, hh, _⟩ := decode_eq_ok_iff_steps.mp h
  obtain ⟨read', hs', _, ha', hh', _⟩ := decode_eq_ok_iff_steps.mp h'
  by_cases hf : front = []
  · -- without frames the header itself has the stop flag
    obtain rfl : read = read' := Option.some.inj (ha.ofRaw?.symm.trans ha'.ofRaw?)
    have hempty := ha'.stop.symm.trans ha.stop
    rw [hf] at hempty
    exact List.isEmpty_iff.mp hempty
  · exact eq_nil_of_halves_append hf hh hh'

/-- A command that lacks its last frames is refused. -/
theorem exists_error_of_cut (h : encode info destination words = (raw, front ++ back))
    (hb : back ≠ []) (addressing : Addressing) : ∃ e, decode raw front addressing = .error e := by
  obtain ⟨cmd, hcmd⟩ := exists_decode_of_encode h
  cases hd : decode raw front addressing with
  | error e => exact ⟨e, rfl⟩
  | ok cut => exact absurd (eq_nil_of_decode_append hd hcmd) hb

/-- A command that goes on behind its last frame is refused. -/
theorem exists_error_of_continued (h : encode info destination words = (raw, front))
    (hb : back ≠ []) (addressing : Addressing) :
    ∃ e, decode raw (front ++ back) addressing = .error e := by
  obtain ⟨cmd, hcmd⟩ := exists_decode_of_encode h
  cases hd : decode raw (front ++ back) addressing with
  | error e => exact ⟨e, rfl⟩
  | ok longer => exact absurd (eq_nil_of_decode_append hcmd hd) hb

end Lvds

namespace Packet

variable {p : Packet}

/-- The frames of a packet that is cut behind its header are those in front of the cut. -/
theorem decodeLvds_take_of_ofWords {destination source raw : UInt32} {frames : List UInt32}
    (h : Packet.ofWords destination source raw frames = .ok p) {k : Nat} (hk : k ≤ p.rest.length)
    (addressing : Lvds.Addressing) :
    decodeLvds { p with rest := p.rest.take k } addressing =
      Lvds.decode raw (frames.take (k / 4)) addressing := by
  have hpayload : rawPayload { p with rest := p.rest.take k } = p.rest.take k :=
    List.take_of_length_le ((List.length_take_le k _).trans
      ((Built.ofWords h).toNat_payloadLength.1 ▸ hk))
  rw [decodeLvds, hpayload]
  obtain ⟨_, rfl⟩ := ofWords_eq_ok_iff.mp h
  rw [Word.ofByteList_take_toByteList]

/-- A relayed command that lacks the end of its bytes is parsed as long as its header is there, and
refused. -/
theorem exists_error_of_take {destination : UInt32} {command : Command} {channel : UInt8}
    {payload : Bytes} (h : Packet.passThrough destination command channel payload = .ok p) {k : Nat}
    (hk : Header.byteCount ≤ k) (hcut : k < p.window.length) (addressing : Lvds.Addressing) :
    ∃ q e, parse (p.window.take k) = .ok q ∧ q.decodeLvds addressing = .error e := by
  have hwords := ofWords_of_passThrough h
  generalize hframed : Lvds.encode _ _ _ = framed at hwords
  have hrest : p.rest.length = 4 * framed.2.length := by
    obtain ⟨_, rfl⟩ := ofWords_eq_ok_iff.mp hwords
    exact Word.length_toByteList _
  rw [length_window] at hcut
  have hlt : (k - Header.byteCount) / 4 < framed.2.length := by omega
  rw [← Prod.eta framed, ← List.take_append_drop ((k - Header.byteCount) / 4) framed.2] at hframed
  obtain ⟨e, he⟩ := Lvds.exists_error_of_cut hframed
    (List.ne_nil_of_length_pos (by rw [List.length_drop]; omega)) addressing
  refine ⟨_, e, parse_take (parse_eq_ok_iff.mpr rfl) hk, ?_⟩
  rw [decodeLvds_take_of_ofWords hwords (by omega), he]

end Packet

namespace Lvds

/-- A command that was encoded is refused with some of its last frames missing and with more frames
behind them, whoever listens. So is every packet of a relayed command that is cut behind its header,
within a word or between words. -/
theorem decode_whole_only {info : CommandInfo} {raw destination : UInt32}
    {words frames : List UInt32} (h : encode info destination words = (raw, frames)) (addressing : Addressing) :
    (∀ front back, frames = front ++ back → back ≠ [] →
      ∃ e, decode raw front addressing = .error e) ∧
    (∀ more, more ≠ [] → ∃ e, decode raw (frames ++ more) addressing = .error e) ∧
    (∀ target command channel payload p,
      Packet.passThrough target command channel payload = .ok p →
      ∀ k, Header.byteCount ≤ k → k < p.window.length →
        ∃ q e, Packet.parse (p.window.take k) = .ok q ∧ q.decodeLvds addressing = .error e) := by
  refine ⟨?_, ?_, ?_⟩
  · rintro front back rfl hb
    exact exists_error_of_cut h hb addressing
  · intro more hm
    exact exists_error_of_continued h hm addressing
  · intro target command channel payload p hp k hk hcut
    exact Packet.exists_error_of_take hp hk hcut addressing

/-- A command for one submodule is neither read from its destination alone nor with an even frame
behind it, and its packet is not read without the last two bytes of a word. -/
theorem decode_whole_only_unicast :
    let front : List UInt32 := [0x10C0D, 0x10A0B]
    let back : List UInt32 := [0x1BEEF, 0x2DEAD]
    let even : List UInt32 := [0]
    let config : Packet := ⟨⟨HardwareId.broadcast, HardwareId.self, 0xC00C1130, 16, 0, 0⟩,
      [13, 12, 1, 0, 11, 10, 1, 0, 1, 2, 0, 0, 3, 0, 3, 0]⟩
    encode ⟨.writeConfig, 0x13, 0xEFF00000⟩ 0x0A0B0C0D [0xDEADBEEF] = (0xEFFD1330, front ++ back) ∧
      (back ≠ [] ∧ ∃ e, decode 0xEFFD1330 front .unicast = .error e) ∧
      (even ≠ [] ∧ ∃ e, decode 0xEFFD1330 (front ++ back ++ even) .unicast = .error e) ∧
      Packet.passThrough 0x0A0B0C0D .writeConfig 2 [1, 2, 3] = .ok config ∧
      (Header.byteCount ≤ 38 ∧ 38 < config.window.length) ∧
      ∃ q e, Packet.parse (config.window.take 38) = .ok q ∧ q.decodeLvds .unicast = .error e := by
  intro front back even config
  have he : encode ⟨.writeConfig, 0x13, 0xEFF00000⟩ 0x0A0B0C0D [0xDEADBEEF] =
    (0xEFFD1330, [0x10C0D, 0x10A0B, 0x1BEEF, 0x2DEAD]) := by decide
  have hb : back ≠ [] := List.cons_ne_nil _ _
  have heven : even ≠ [] := List.cons_ne_nil _ _
  have hconfig : Packet.passThrough 0x0A0B0C0D .writeConfig 2 [1, 2, 3] = .ok config := by rfl
  have hcut : 38 < config.window.length := by decide
  obtain ⟨hfront, hmore, hpacket⟩ := decode_whole_only he .unicast
  exact ⟨he, ⟨hb, hfront front back rfl hb⟩, ⟨heven, hmore even heven⟩, hconfig,
    ⟨by decide, hcut⟩, hpacket _ _ _ _ config hconfig 38 (by decide) hcut⟩

end Lvds

end DetectorLink
