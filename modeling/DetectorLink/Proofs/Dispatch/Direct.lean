import DetectorLink.Proofs.Dispatch.Delivery
import DetectorLink.Proofs.Link.Connected
import DetectorLink.Ring.Direct
import Mathlib.Data.List.Infix

/-!
# Delivery over a direct ring

A direct ring over a connected link shows the whole words that the link has buffered. Releases of
its window succeed, and it never keeps an error. So its unread bytes are those of the link, and a
dispatch that releases nothing, once nothing more is on its way, leaves no packet in them.
-/

namespace DetectorLink.DirectRing

open Dispatch Link

variable {δ : Type}

/-- A direct ring over a link, with what is left of its last window. -/
structure Facing (left : Bytes) (s : DirectRing × (Link × Host δ)) : Prop where
  connected : Connected s.2
  error : s.1.error = none
  window : s.1.window = left.length
  left : left <+: s.2.1.buffered

/-- What can happen around a direct ring: something arrives at its link. -/
def surroundings : Surroundings (DirectRing × (Link × Host δ)) Arrival where
  apply a s := (s.1, a.apply s.2)
  fed := Arrival.bytes

variable {left : Bytes} {s t : DirectRing × (Link × Host δ)}

theorem facing_ofSize (size : Nat) {s : Link × Host δ} (h : Connected s) :
    Facing [] (ofSize size, s) := ⟨h, rfl, rfl, List.nil_prefix⟩

theorem Facing.arrival (h : Facing left s) (a : Arrival) :
    Facing left (surroundings.apply a s) ∧
      unread (surroundings.apply a s).2 = unread s.2 ++ a.bytes := by
  obtain ⟨hconnected, hbuffered, hunread⟩ := h.connected.arrival a
  exact ⟨⟨hconnected, h.error, h.window, hbuffered ▸ h.left⟩, hunread⟩

variable [Driver δ]

/-- A wait shows the whole words that are buffered, or times out with less than a word. -/
theorem Facing.wait (h : Facing left s) (timeout : Option Nat) :
    ∃ answer t, ((source Link.source).wait timeout).exec s = (answer, t) ∧
      Facing (answer.toOption.getD left) t ∧ unread t.2 = unread s.2 ∧
      (answer = .ok (t.2.1.buffered.take (alignDown t.2.1.buffered.length)) ∨
        answer = .error .timeout ∧ t.2.1.buffered.length < alignment) := by
  obtain ⟨d, link⟩ := s
  obtain ⟨answer, t, hexec, hconnected, hprefix, hunread, hcases⟩ := h.connected.wait timeout
  have herror : d.error = none := h.error
  have hexec : (Link.source.wait timeout).exec link = (answer, t) := hexec
  have hwait : ((source Link.source).wait timeout).exec (d, link) =
      ((d.present answer).1, ((d.present answer).2, t)) := by
    simp only [source, DirectRing.wait, LinkM.exec_ofFun, herror, hexec]
  refine ⟨_, _, hwait, ?_⟩
  rcases hcases with ⟨rfl, -⟩ | ⟨rfl, hshort⟩
  · refine ⟨⟨hconnected, herror, ?_, List.take_prefix _ _⟩, hunread, .inl rfl⟩
    exact (List.length_take_of_le (alignDown_le _)).symm
  · exact ⟨⟨hconnected, herror, h.window, h.left.trans hprefix⟩, hunread, .inr ⟨rfl, hshort⟩⟩

/-- A release of the window takes from the front of the unread bytes. -/
theorem Facing.release (h : Facing left s) {n : Nat} (hmod : n % 4 = 0) (hn : n ≤ left.length) :
    ∃ t, ((source Link.source).release n).exec s = (.ok (), t) ∧ Facing (left.drop n) t ∧
      unread t.2 = (unread s.2).drop n := by
  obtain ⟨d, link⟩ := s
  have hwindow : d.window = left.length := h.window
  have hasked : min (alignDown n) d.window = n := by
    rw [alignDown_of_mod_eq_zero hmod, hwindow]
    exact Nat.min_eq_left hn
  obtain ⟨t, hexec, hconnected, hbuffered, hunread⟩ :=
    h.connected.acknowledge (Nat.le_trans hn h.left.length_le)
  have hexec : (Link.source.release n).exec link = (.ok (), t) := hexec
  have hrelease : ((source Link.source).release n).exec (d, link) =
      (.ok (), ({ d with window := d.window - n }, t)) := by
    simp only [source, consume, LinkM.exec_ofFun, hasked, hexec]
  refine ⟨_, hrelease, ⟨hconnected, h.error, ?_, ?_⟩, hunread⟩
  · show d.window - n = (left.drop n).length
    rw [List.length_drop, hwindow]
  · show left.drop n <+: t.1.buffered
    rw [hbuffered]
    exact h.left.drop n

/-- A direct ring shows the unread bytes of its link. -/
theorem shows :
    Shows (source Link.source) (surroundings (δ := δ)) (fun s ↦ unread s.2) Facing where
  left h := h.left.trans (buffered_prefix_unread _)
  wait {left s timeout answer t} h hw := by
    obtain ⟨answer', t', hw', hfacing, hunread, -⟩ := h.wait timeout
    obtain ⟨rfl, rfl⟩ := Prod.mk.inj (hw'.symm.trans hw)
    exact ⟨hfacing, hunread⟩
  release h _ hmod hn := h.release hmod hn
  happen a h := h.arrival a

/-- If a wait shows no packet, and behind it nothing is on its way, then no packet is unread. -/
theorem Facing.scan_unread_eq_nil (h : Facing left s) {timeout : Option Nat}
    {answer : Except LinkError Bytes}
    (hw : ((source Link.source).wait timeout).exec s = (answer, t))
    (hpartial : ∀ window, answer = .ok window →
      Packet.validLength? window = none ∧ Packet.corruptHead window = false)
    (htaken : (arriving t.2).pending = []) : Packet.scan (unread s.2) = [] := by
  obtain ⟨answer', t', hw', -, hunread, hcases⟩ := h.wait timeout
  obtain ⟨rfl, rfl⟩ := Prod.mk.inj (hw'.symm.trans hw)
  have hall : unread t'.2 = t'.2.1.buffered := by
    show t'.2.1.buffered ++ (arriving t'.2).pending = _
    rw [htaken, List.append_nil]
  rw [← hunread, hall]
  rcases hcases with hshown | ⟨-, hshort⟩
  · obtain ⟨hv, hc⟩ := hpartial _ hshown
    rw [← List.take_append_drop (alignDown t'.2.1.buffered.length) t'.2.1.buffered]
    refine Packet.scan_append_of_partial hv hc ?_ ?_
    · rw [List.length_take_of_le (alignDown_le _)]
      exact alignDown_mod _
    · simp only [List.length_drop, alignDown, alignment]
      omega
  · exact Packet.scan_of_length_lt hshort

end DetectorLink.DirectRing
