import DetectorLink.Proofs.Dispatch.Delivery
import DetectorLink.Proofs.Dispatch.FullRing
import DetectorLink.Proofs.Link.Connected
import DetectorLink.Proofs.Ring.Copying
import Mathlib.Data.List.Infix

/-!
# Delivery over a copied ring

A copier takes the bytes of a connected link into a ring, and a dispatcher shows the windows of the
ring. Bytes that were not consumed are in the ring, or ahead of it: not yet accepted. A step of the
copier moves bytes from there into the ring and changes nothing else. In a ring with room for the
longest packet, a dispatch that releases nothing, once less than a word is ahead or the ring is
full, leaves no packet in those bytes.
-/

namespace DetectorLink

namespace Link

open Copying

variable {δ : Type} {held : Bytes} {log : List (Entry (Link × Host δ) Arrival)}
  {entry : Entry (Link × Host δ) Arrival} {s t : Link × Host δ}

/-! ### What the log of a copier tells of its link -/

/-- The bytes that were fed. -/
def fedIn (log : List (Entry (Link × Host δ) Arrival)) : Bytes :=
  log.flatMap fun
    | .happened a => a.bytes
    | _ => []

theorem fedIn_concat (log : List (Entry (Link × Host δ) Arrival))
    (entry : Entry (Link × Host δ) Arrival) :
    fedIn (log ++ [entry]) = fedIn log ++ fedIn [entry] := List.flatMap_append

/-- What was released of a connected link and what is unread are what was there and what was fed;
what is left of the last window is at the start of the buffer, and nothing has failed. -/
structure Follows (held : Bytes) (log : List (Entry (Link × Host δ) Arrival))
    (s : Link × Host δ) : Prop where
  connected : Connected s
  shown : shown log <+: s.1.buffered
  bytes : acknowledged log ++ unread s = held ++ fedIn log
  fatal : fatal? log = none

theorem follows_start (h : Connected s) : Follows (unread s) [] s :=
  ⟨h, List.nil_prefix, (List.append_nil _).symm, rfl⟩

/-- An entry that does not end a copier keeps the bytes together if it adds to what was released
what the link no longer has, and to what is unread what was fed. -/
theorem Follows.concat (hf : Follows held log s) (hconnected : Connected t)
    (hfatal : entry.fatal? = none)
    (hshown : (entry.tally (acknowledged log, Copying.shown log)).2 <+: t.1.buffered)
    (hbytes : (entry.tally (acknowledged log, Copying.shown log)).1 ++ unread t =
      acknowledged log ++ (unread s ++ fedIn [entry])) :
    Follows held (log ++ [entry]) t := by
  refine ⟨hconnected, ?_, ?_, ?_⟩
  · rwa [shown_concat]
  · rw [acknowledged_concat, hbytes, ← List.append_assoc, hf.bytes, fedIn_concat,
      List.append_assoc]
  · rw [fatal?_concat, hf.fatal, Option.none_or, hfatal]

/-- Everything that a copier asks of a connected link, and everything that arrives there, keeps the
bytes together. -/
theorem keeps_follows [Driver δ] (held : Bytes) :
    Keeps source (Arrival.apply (δ := δ)) (Follows held) where
  waited {log s timeout answer t} hf hw := by
    obtain ⟨answer', t', hw', hconnected, hbuffered, hunread, hcases⟩ := hf.connected.wait timeout
    obtain ⟨rfl, rfl⟩ := Prod.mk.inj (hw'.symm.trans hw)
    have hbytes : acknowledged log ++ unread t' = acknowledged log ++ (unread s ++ []) := by
      rw [hunread, List.append_nil]
    rcases hcases with ⟨rfl, -⟩ | ⟨rfl, -⟩
    · exact hf.concat hconnected rfl List.prefix_rfl hbytes
    · exact hf.concat hconnected rfl (hf.shown.trans hbuffered) hbytes
  released {log s n outcome t} hf _ _ hle hr := by
    have hn : n ≤ s.1.buffered.length := Nat.le_trans hle hf.shown.length_le
    obtain ⟨t', hr', hconnected, hbuffered, hunread⟩ := hf.connected.acknowledge hn
    obtain ⟨rfl, rfl⟩ := Prod.mk.inj (hr'.symm.trans hr)
    refine hf.concat hconnected rfl ?_ ?_
    · exact hbuffered ▸ hf.shown.drop n
    · -- the window starts the unread bytes, so its first bytes are those that leave them
      have htake : (shown log).take n = (unread s).take n := by
        obtain ⟨rest, hrest⟩ := hf.shown.trans (buffered_prefix_unread s)
        rw [← hrest, List.take_append_of_le_length hle]
      show acknowledged log ++ (shown log).take n ++ unread t' =
        acknowledged log ++ (unread s ++ [])
      rw [hunread, htake, List.append_assoc, List.take_append_drop, List.append_nil]
  happened {log s} a hf := by
    obtain ⟨hconnected, hbuffered, hunread⟩ := hf.connected.arrival a
    refine hf.concat hconnected rfl (hbuffered ▸ hf.shown) ?_
    show acknowledged log ++ unread (a.apply s) = acknowledged log ++ (unread s ++ (a.bytes ++ []))
    rw [hunread, List.append_nil]
  word {log s timeout data t} hf hw := by
    obtain ⟨answer', t', hw', -, -, -, ⟨hdata, hword⟩ | ⟨he, -⟩⟩ := hf.connected.wait timeout
    · obtain rfl := Except.ok.inj (hdata.symm.trans (Prod.mk.inj (hw'.symm.trans hw)).1)
      exact hword
    · nomatch he.symm.trans (Prod.mk.inj (hw'.symm.trans hw)).1

end Link

namespace CopiedRing

open Copying Dispatch Link

variable {δ : Type}

/-- A copier between a link and a ring. -/
abbrev Feeding (δ : Type) := Copying (Link × Host δ) Arrival

/-- What can happen around the ring of a copier. -/
inductive Turn where
  /-- The copier makes a step. -/
  | copier
  /-- The copier is told to stop. -/
  | stop
  /-- Something arrives at the link. -/
  | arrival (a : Arrival)
  deriving DecidableEq, Repr

namespace Turn

/-- The event of the copier. -/
def event : Turn → Copying.Event Arrival
  | copier => .copier
  | stop => .stop
  | arrival a => .outside a

/-- The bytes that are fed. -/
def bytes : Turn → Bytes
  | arrival a => a.bytes
  | _ => []

end Turn

/-- The ring of a copier, as its reader has it. What is pushed while the reader waits comes before
the wait, and what is pushed while it looks at the window comes between the two. -/
def reader : Source (Feeding δ) where
  wait _ := .ofFun fun c ↦ (c.history.ring.wait, c)
  release n := .change fun c ↦ { c with history := c.history.step (.consume n) }

/-- What is not yet in the ring: the unread bytes of the link, behind those that were accepted and
whose release is due. -/
def ahead (c : Feeding δ) : Bytes :=
  match c.place with
  | .releasing n => (unread c.state).drop n
  | _ => unread c.state

/-- What was not consumed. -/
def unread (c : Feeding δ) : Bytes := c.history.ring.pending ++ ahead c

/-- A ring whose copier follows a connected link, with what is left of the last window. -/
structure Facing (size : Nat) (held left : Bytes) (c : Feeding δ) : Prop where
  sound : c.Sound size
  follows : Follows held c.log c.state
  going : c.stopping = false → c.place ≠ .ended
  left : left <+: c.history.ring.pending

variable {size poll n : Nat} {held left : Bytes} {c : Feeding δ}

theorem facing_start {ring : Ring} (hr : Ring.create size = .ok ring) {s : Link × Host δ}
    (h : Connected s) : Facing size (Link.unread s) [] (Copying.start s ring) :=
  ⟨Copying.sound_start hr s, follows_start h, fun _ ↦ nofun, List.nil_prefix⟩

/-- What the ring accepted, and what it did not yet, are all that was there and was fed. -/
theorem Facing.accepted_append_ahead (h : Facing size held left c) :
    c.history.accepted ++ ahead c = held ++ fedIn c.log := by
  have hk := h.sound.known
  have hbytes := h.follows.bytes
  unfold ahead
  generalize hplace : c.place = place at hk
  cases hk with
  | looking _ ha => rw [ha, hbytes]
  | waiting _ ha _ => rw [ha, hbytes]
  | holding _ ha _ _ _ => rw [ha, hbytes]
  | releasing _ ha _ _ hle =>
    obtain ⟨rest, hrest⟩ := h.follows.shown.trans (buffered_prefix_unread c.state)
    dsimp only
    rw [ha, ← hbytes, ← hrest, List.drop_append_of_le_length hle, List.append_assoc,
      ← List.append_assoc (List.take _ _), List.take_append_drop]
  | ended _ ha =>
    rcases ha with ha | ⟨n, ⟨pre, e, post, hlog⟩, -⟩
    · rw [ha, hbytes]
    · have hfatal := h.follows.fatal
      rw [hlog, fatal?, List.findSome?_append, Option.or_eq_none_iff] at hfatal
      exact absurd hfatal.2 (Option.some_ne_none e)

/-- What was not consumed is what is behind the consumed bytes in all that was there and was fed. -/
theorem Facing.unread_eq (h : Facing size held left c) :
    unread c = (held ++ fedIn c.log).drop c.history.consumed := by
  rw [unread, h.sound.history.pending, ← h.accepted_append_ahead,
    List.drop_append_of_le_length h.sound.history.consumed_le]

theorem unread_start {ring : Ring} (hr : Ring.create size = .ok ring) {s : Link × Host δ}
    (h : Connected s) : unread (Copying.start s ring) = Link.unread s :=
  (facing_start hr h).unread_eq.trans (List.append_nil _)

theorem Facing.consumed_le (h : Facing size held left c) :
    c.history.consumed ≤ (held ++ fedIn c.log).length := by
  rw [← h.accepted_append_ahead, List.length_append]
  exact Nat.le_add_right_of_le h.sound.history.consumed_le

/-- If a wait shows no packet, and the ring is full or less than a word is ahead of it, then no
packet is left, in a ring with room for the longest packet. -/
theorem Facing.scan_unread_eq_nil (h : Facing size held left c) (hstop : c.stopping = false)
    (hsize : Packet.maxLength + alignment ≤ size)
    (hpartial : ∀ window, c.history.ring.wait = .ok window →
      Packet.validLength? window = none ∧ Packet.corruptHead window = false)
    (htaken : c.history.ring.isFull = true ∨ (ahead c).length < alignment) :
    Packet.scan (unread c) = [] := by
  have hring := h.sound.history.ring
  have hlen := Ring.length_pending hring
  have hmax : Packet.maxLength = 14424 := rfl
  have hwait := Ring.wait_eq hring
  rw [h.sound.error_of_ne_ended (h.going hstop)] at hwait
  dsimp only at hwait
  have hfull (hf : c.history.ring.isFull = true) : Packet.maxLength ≤ c.history.ring.used := by
    rw [Ring.isFull_iff_used.mp hf, h.sound.history.size]
    exact Nat.le_sub_of_add_le hsize
  by_cases hused : c.history.ring.used = 0
  · have hshort := htaken.resolve_left fun hf ↦ absurd (hfull hf) (by omega)
    have hnone : c.history.ring.pending = [] := List.eq_nil_of_length_eq_zero (hlen.trans hused)
    rw [unread, hnone]
    exact Packet.scan_of_length_lt hshort
  · rw [ite_cond_eq_false _ _ (eq_false hused)] at hwait
    obtain ⟨hv, hc⟩ := hpartial _ hwait
    have hall := Ring.window_eq_pending_of_partial hring hv hc
    rw [hall] at hv hc
    have hlt := Packet.length_lt_of_partial hv hc
    have hshort := htaken.resolve_left fun hf ↦ absurd (hfull hf) (by omega)
    rw [unread]
    refine Packet.scan_append_of_partial hv hc ?_ hshort
    rw [hlen]
    exact RingIndex.used_mod hring.offsets

variable [Driver δ]

/-- Consuming from the last window takes from the front of what was not consumed. -/
theorem Facing.release (h : Facing size held left c) (hmod : n % 4 = 0) (hn : n ≤ left.length) :
    ∃ d, (reader.release n).exec c = (.ok (), d) ∧ Facing size held (left.drop n) d ∧
      unread d = (unread c).drop n := by
  have hle := Nat.le_trans hn h.left.length_le
  have hpending : (c.history.ring.consume n).pending = c.history.ring.pending.drop n := by
    rw [Ring.length_pending h.sound.history.ring] at hle
    rw [Ring.pending_consume h.sound.history.ring, alignDown_of_mod_eq_zero hmod,
      Nat.min_eq_left hle]
  have hsound := sound_consume Link.source Arrival.apply 0 h.sound n
  refine ⟨_, rfl, ⟨hsound, h.follows, h.going, ?_⟩, ?_⟩
  · show left.drop n <+: (c.history.ring.consume n).pending
    rw [hpending]
    exact h.left.drop n
  · show (c.history.ring.consume n).pending ++ ahead c = _
    rw [hpending, unread, List.drop_append_of_le_length hle]

/-- A copier asks nothing that feeds its link. -/
theorem fedIn_advance (poll : Nat) (c : Feeding δ) :
    fedIn (c.advance Link.source poll).log = fedIn c.log := by
  unfold advance
  split
  · rw [(look_asks_nothing c).1]
  · dsimp only
    rw [(take_asks_nothing _ _).1]
    exact (fedIn_concat ..).trans (List.append_nil _)
  · rw [(push_asks_nothing c _).1]
  · dsimp only
    rw [(conclude_asks_nothing _ _).1]
    exact (fedIn_concat ..).trans (List.append_nil _)
  · rfl

/-- What can happen around the ring of a copier that waits at most `poll` milliseconds. -/
def surroundings (poll : Nat) : Surroundings (Feeding δ) Turn where
  apply turn c := Copying.step Link.source Arrival.apply poll c turn.event
  fed := Turn.bytes

/-- What happens around the ring of a copier consumes nothing, and what is fed is in the log. -/
theorem surroundings_cases (poll : Nat) (c : Feeding δ) (turn : Turn) :
    let d := (surroundings poll).apply turn c
    d.history.consumed = c.history.consumed ∧ c.history.accepted <+: d.history.accepted ∧
      fedIn d.log = fedIn c.log ++ turn.bytes := by
  cases turn with
  | copier =>
    have hadvances := advances_advance poll Link.source c
    exact ⟨hadvances.consumed, hadvances.accepted,
      (fedIn_advance poll c).trans (List.append_nil _).symm⟩
  | stop => exact ⟨rfl, List.prefix_rfl, (List.append_nil _).symm⟩
  | arrival a =>
    refine ⟨rfl, List.prefix_rfl, (fedIn_concat ..).trans ?_⟩
    show fedIn c.log ++ (a.bytes ++ []) = fedIn c.log ++ a.bytes
    rw [List.append_nil]

/-- What happens around the ring of a copier adds what is fed to what was not consumed. -/
theorem Facing.turn (h : Facing size held left c) (turn : Turn) :
    Facing size held left ((surroundings poll).apply turn c) ∧
      unread ((surroundings poll).apply turn c) = unread c ++ turn.bytes := by
  obtain ⟨hsound, hfollows⟩ : Copying.Sound size ((surroundings poll).apply turn c) ∧
      Follows held ((surroundings poll).apply turn c).log
        ((surroundings poll).apply turn c).state :=
    Copying.sound_step poll (keeps_follows held) h.sound h.follows turn.event
  obtain ⟨hconsumed, haccepted, hfed⟩ := surroundings_cases poll c turn
  have hnext : Facing size held left ((surroundings poll).apply turn c) := by
    refine ⟨hsound, hfollows, ?_, h.left.trans ?_⟩
    · cases turn with
      | copier =>
        intro hstop
        have hstop : c.stopping = false :=
          (advances_advance poll Link.source c).stopping.symm.trans hstop
        exact advance_ne_ended poll h.sound hstop (h.going hstop) hfollows.fatal
      | stop => nofun
      | arrival a => exact h.going
    · rw [h.sound.history.pending, hsound.history.pending, hconsumed]
      exact haccepted.drop _
  refine ⟨hnext, ?_⟩
  rw [hnext.unread_eq, h.unread_eq, hfed, hconsumed, ← List.append_assoc,
    List.drop_append_of_le_length h.consumed_le]

/-- Whatever the copier does, whatever is consumed and whatever happens around them keeps the copier
following its link. -/
theorem Facing.step (h : Facing size held left c) (event : Copying.Event Arrival) :
    Facing size held [] (Copying.step Link.source Arrival.apply poll c event) := by
  have hturn (turn : Turn) : Facing size held [] ((surroundings poll).apply turn c) :=
    ⟨(h.turn turn).1.sound, (h.turn turn).1.follows, (h.turn turn).1.going, List.nil_prefix⟩
  cases event with
  | copier => exact hturn .copier
  | consume n =>
    exact ⟨sound_consume Link.source Arrival.apply poll h.sound n, h.follows, h.going,
      List.nil_prefix⟩
  | stop => exact hturn .stop
  | outside a => exact hturn (.arrival a)

theorem facing_run {ring : Ring} (hr : Ring.create size = .ok ring) {s : Link × Host δ}
    (h : Connected s) (events : List (Copying.Event Arrival)) :
    Facing size (Link.unread s) []
      (Copying.run Link.source Arrival.apply poll (Copying.start s ring) events) := by
  have hrun {c : Feeding δ} (hc : Facing size (Link.unread s) [] c) :
      Facing size (Link.unread s) [] (Copying.run Link.source Arrival.apply poll c events) := by
    induction events generalizing c with
    | nil => exact hc
    | cons event events ih => exact ih (hc.step event)
  exact hrun (facing_start hr h)

/-- The ring of a copier shows what was not consumed. -/
theorem shows (size poll : Nat) (held : Bytes) :
    Shows reader (surroundings (δ := δ) poll) unread (Facing size held) where
  left h := h.left.trans (List.prefix_append _ _)
  wait {left c timeout answer d} h hw := by
    obtain ⟨rfl, rfl⟩ := Prod.mk.inj hw
    refine ⟨⟨h.sound, h.follows, h.going, ?_⟩, rfl⟩
    rw [Ring.wait_eq h.sound.history.ring]
    split
    · exact h.left
    · split
      · exact h.left
      · exact Ring.isPrefix_window h.sound.history.ring
  release h _ hmod hn := h.release hmod hn
  happen turn h := h.turn turn

end CopiedRing

end DetectorLink
