import DetectorLink.Link.Board
import DetectorLink.Proofs.Dispatch.Furthest
import DetectorLink.Proofs.Dispatch.Scheduled
import DetectorLink.Proofs.Packet.Cut
import DetectorLink.Proofs.Tool.Effect
import DetectorLink.Proofs.Tool.Lines
import DetectorLink.Tool.Dump

/-!
# What a dump prints

A dump counts packets across windows, and what it releases of a window is decided by its mark: by
the last packet it takes if that completes the dump, and else by all packets of the window. Either
way just the packets are released that it took. So wherever the windows of a stream are cut, the
first packets of the stream are printed, and the others are left to the next reader.
-/

namespace DetectorLink

open Dispatch

/-- The first packets of a window are as long as the stream of them. -/
theorem Reservation.byteCount_take_packets (r : Reservation) (k : Nat) :
    Placed.byteCount (r.packets.take k) = (Packet.stream (r.packetList.take k)).length := by
  have hwhole : ∀ q ∈ (Packet.walk r.bytes).take k, q.Whole := fun q hq ↦
    Packet.whole_of_mem_walk (List.mem_of_mem_take hq)
  rw [packetList_eq, packets, take_place, byteCount_place fun q hq ↦ (hwhole q hq).length_bytes,
    List.map_congr_left fun q hq ↦ (hwhole q hq).window_eq.symm]
  rfl

namespace Dump

variable {request : DumpRequest} {d : Dump}

/-! ### What is taken of a window -/

theorem isDone_iff : d.isDone request = true ↔ ∃ n, request.limit = some n ∧ n ≤ d.seen := by
  rw [isDone, Option.any_eq_true]
  simp only [decide_eq_true_eq]

theorem not_isDone_iff : d.isDone request = false ↔ ∀ n, request.limit = some n → d.seen < n := by
  rw [Bool.eq_false_iff, Ne, isDone_iff, not_exists]
  simp only [not_and, Nat.not_le]

/-- A dump after it took packets. -/
def after (d : Dump) (ps : List Packet) : Dump :=
  { d with seen := d.seen + ps.length, records := d.records ++ ps.map .ofPacket }

/-- A dump that is not done takes all packets, marks none and is not done yet, or takes as many as
are still asked for and marks the last of them. -/
theorem take_cases (hd : d.isDone request = false) (ps : List Placed) :
    (d.take request ps = ([], d.after (ps.map (·.packet))) ∧
      (d.after (ps.map (·.packet))).isDone request = false) ∨
    ∃ k p, ps[k]? = some p ∧ request.limit = some (d.seen + (k + 1)) ∧
      d.take request ps = ([p], d.after ((ps.map (·.packet)).take (k + 1))) := by
  induction ps generalizing d with
  | nil =>
    have hnone : d.after [] = d := by rw [after, List.map_nil, List.append_nil]; rfl
    exact .inl ⟨congrArg (Prod.mk _) hnone.symm, hnone.symm ▸ hd⟩
  | cons p ps ih =>
    have hmore (qs : List Packet) : (d.after [p.packet]).after qs = d.after (p.packet :: qs) := by
      simp only [after, List.length_cons, List.length_nil, List.map_cons, List.map_nil,
        List.append_assoc, List.cons_append, List.nil_append, Nat.add_assoc, Nat.add_comm 1]
    have htake : d.take request (p :: ps) =
        if (d.after [p.packet]).isDone request then ([p], d.after [p.packet])
        else (d.after [p.packet]).take request ps := by
      rw [take, ite_cond_eq_false _ _ (eq_false (Bool.eq_false_iff.mp hd))]
      rfl
    rw [htake]
    cases hnext : (d.after [p.packet]).isDone request with
    | true =>
      -- the limit was not reached before this packet, and is reached with it
      obtain ⟨n, hlimit, hle⟩ := isDone_iff.mp hnext
      have hlt := not_isDone_iff.mp hd n hlimit
      have hn : n = d.seen + (0 + 1) := Nat.le_antisymm hle hlt
      exact .inr ⟨0, p, rfl, hn ▸ hlimit, rfl⟩
    | false =>
      rcases ih hnext with ⟨hall, hdone⟩ | ⟨k, q, hq, hlimit, hall⟩
      · rw [hmore] at hall hdone
        exact .inl ⟨hall, hdone⟩
      · refine .inr ⟨k + 1, q, hq, ?_, ?_⟩
        · rw [hlimit, after, List.length_singleton, Nat.add_assoc, Nat.add_comm 1]
        · exact hall.trans (congrArg (Prod.mk _) (hmore _))

/-- Of a window that does not start with an impossible header a dump that is not done takes the
first packets, and these are released: all of them, or as many as are still asked for. -/
theorem exists_taken (hd : d.isDone request = false) {window : Bytes}
    (hc : Packet.corruptHead window = false) :
    let r : Reservation := ⟨window⟩
    let marked := (d.take request r.packets).1
    ∃ k ≤ r.packetList.length, (d.take request r.packets).2 = d.after (r.packetList.take k) ∧
      (Progress.ofWindow window (furthestEnd window marked)).bytes =
        (Packet.stream (r.packetList.take k)).length ∧
      (∀ n, request.limit = some n → d.seen + k ≤ n) ∧
      (k = r.packetList.length ∨ request.limit = some (d.seen + k)) := by
  intro r marked
  have hlength : r.packetList.length = r.packets.length := List.length_map _
  rcases take_cases hd r.packets with ⟨htake, hdone⟩ | ⟨k, p, hp, hlimit, htake⟩
  · have hmarked : marked = [] := congrArg Prod.fst htake
    have hall : r.packetList.take r.packetList.length = r.packetList := List.take_length
    refine ⟨r.packetList.length, Nat.le_refl _, ?_, ?_, ?_, .inl rfl⟩
    · rw [hall, htake]
      rfl
    · have hcount := r.byteCount_take_packets r.packets.length
      rw [List.take_length, ← hlength] at hcount
      rw [hmarked, ← hcount]
      exact (Progress.bytes_ofWindow_zero_of_not_corrupt hc).trans
        (congrArg Prod.fst r.validPrefix_bytes)
    · exact fun n hn ↦ Nat.le_of_lt (not_isDone_iff.mp hdone n hn)
  · have hmarked : marked = [p] := congrArg Prod.fst htake
    have hlt : k < r.packets.length := (List.getElem?_eq_some_iff.mp hp).1
    obtain ⟨_, _, hend⟩ := Reservation.place_of_getElem? hp
    have hpos : 0 < Placed.byteCount (r.packets.take (k + 1)) := by
      obtain ⟨_, _, hpos, hstop⟩ := Reservation.exists_endOf?_eq_some (List.mem_of_getElem? hp)
      rwa [Option.some.inj (hstop.symm.trans hend)] at hpos
    have hfurthest : furthestEnd window [p] = Placed.byteCount (r.packets.take (k + 1)) := by
      rw [furthestEnd, List.filterMap_cons_some hend]
      exact Nat.zero_max _
    refine ⟨k + 1, hlength ▸ hlt, congrArg Prod.snd htake, ?_, ?_, .inr hlimit⟩
    · rw [hmarked, hfurthest, Progress.ofWindow, ite_cond_eq_true _ _ (eq_true hpos),
        ← r.byteCount_take_packets]
      exact alignDown_of_mod_eq_zero (r.byteCount_packets_take_mod (k + 1))
    · intro n hn
      rw [hlimit] at hn
      exact Nat.le_of_eq (Option.some.inj hn)

/-- Of a window at the start of a stream a dump that is not done takes the first packets, and these
are released. If the window shows the whole stream, none is left that is still asked for. -/
theorem exists_taken_of_prefix (hd : d.isDone request = false) {packets : List Packet}
    (hpackets : ∀ p ∈ packets, p.Whole) {window : Bytes} (h : window <+: Packet.stream packets) :
    let shown := (Reservation.mk window).packets
    let n := (Progress.ofWindow window (furthestEnd window (d.take request shown).1)).bytes
    ∃ k ≤ packets.length, (d.take request shown).2 = d.after (packets.take k) ∧
      n = (Packet.stream (packets.take k)).length ∧ n ≤ window.length ∧
      (∀ n, request.limit = some n → d.seen + k ≤ n) ∧
      ((Packet.stream packets).length ≤ window.length →
        k = packets.length ∨ request.limit = some (d.seen + k)) := by
  intro shown n
  let r : Reservation := ⟨window⟩
  obtain ⟨j, hj, hwalk, hlast⟩ := Packet.exists_walk_of_prefix_stream hpackets h
  obtain ⟨k, hk, htaken, hbytes, hlimited, hall⟩ :=
    exists_taken hd (Packet.corruptHead_of_prefix_stream hpackets h)
  have hlist : r.packetList = packets.take j := r.packetList_eq.trans hwalk
  have hlength : r.packetList.length = j := by rw [hlist, List.length_take_of_le hj]
  have hkj : k ≤ j := hlength ▸ hk
  have htake : r.packetList.take k = packets.take k := by
    rw [hlist, List.take_take, Nat.min_eq_left hkj]
  have hle : n ≤ window.length := by
    rw [show n = _ from hbytes, ← r.byteCount_take_packets]
    exact Nat.le_trans (r.byteCount_packets_take_le k) (Packet.validPrefix_le window)
  refine ⟨k, Nat.le_trans hkj hj, htake ▸ htaken, htake ▸ hbytes, hle, hlimited, fun hwhole ↦ ?_⟩
  exact hall.imp_left fun hkall ↦ hkall.trans (hlength.trans (hlast hwhole))

/-! ### What is kept -/

variable {σ ω : Type}

/-- What is kept of a dump of packets: the first ones were taken and released, and are printed or
will be; the others are unread. Once all were offered, none is left that is still asked for. -/
structure Sound (request : DumpRequest) (packets : List Packet) (around : Surroundings σ ω)
    (bytes : σ → Bytes) (holds : Bytes → σ → Prop) (s : Running (Scheduled σ ω)) : Prop where
  seen_le : s.2.2.seen ≤ packets.length
  limited : ∀ n, request.limit = some n → s.2.2.seen ≤ n
  holds : ∃ left, holds left s.2.1.state
  unread : s.2.1.unread around bytes = Packet.stream (packets.drop s.2.2.seen)
  released : s.2.1.released = (Packet.stream (packets.take s.2.2.seen)).length
  counted : s.1.bytes = s.2.1.released
  shown : s.2.2.lines ++ s.2.2.records.map (render request) =
    (packets.take s.2.2.seen).map (lineOf request.json)
  offered : (Packet.stream packets).length ≤ s.2.1.offered →
    s.2.2.isDone request = true ∨ s.2.2.seen = packets.length

variable {packets : List Packet} {source : Source σ} {around : Surroundings σ ω}
  {bytes : σ → Bytes} {holds : Bytes → σ → Prop} {stats stats' : DispatchStats}
  {c c' : Scheduled σ ω}

/-- A source that shows a stream of packets from its start on. -/
theorem sound_start {left : Bytes} {s : σ} (hs : holds left s) {due : List (List ω)}
    (hstream : bytes s ++ due.flatten.flatMap around.fed = Packet.stream packets)
    (hpackets : ∀ p ∈ packets, p.Whole) (now : Nat) :
    Sound request packets around bytes holds (.zero, (.start s due, Dump.start now)) := by
  refine ⟨Nat.zero_le _, fun _ _ ↦ Nat.zero_le _, ⟨left, hs⟩, hstream, rfl, rfl, rfl, fun hall ↦ ?_⟩
  cases packets with
  | nil => exact .inr rfl
  | cons p ps =>
    have hlength : p.window.length = p.length :=
      (congrArg List.length (hpackets p List.mem_cons_self).window_eq).trans
        (hpackets p List.mem_cons_self).length_bytes
    have hmin : 24 ≤ p.length := (hpackets p List.mem_cons_self).min_le
    have hall : (Packet.stream (p :: ps)).length ≤ 0 := hall
    rw [Packet.stream_cons, List.length_append] at hall
    omega

/-- Taking the next packets and releasing just as many bytes. -/
theorem Sound.after (hs : Sound request packets around bytes holds (stats, (c, d))) {k : Nat}
    (hk : d.seen + k ≤ packets.length) (hlimited : ∀ n, request.limit = some n → d.seen + k ≤ n)
    (hholds : ∃ left, holds left c'.state) :
    let taken := (packets.drop d.seen).take k
    let n := (Packet.stream taken).length
    c'.unread around bytes = (c.unread around bytes).drop n → c'.released = c.released + n →
      stats'.bytes = stats.bytes + n →
      ((Packet.stream packets).length ≤ c'.offered →
        d.seen + k = packets.length ∨ request.limit = some (d.seen + k)) →
      Sound request packets around bytes holds (stats', (c', d.after taken)) := by
  intro taken n hunread hreleased hcounted hoffered
  have htaken : taken.length = k := by
    rw [List.length_take, List.length_drop]
    omega
  have hseen : (d.after taken).seen = d.seen + k := congrArg (d.seen + ·) htaken
  refine ⟨hseen ▸ hk, hseen ▸ hlimited, hholds, ?_, ?_, ?_, ?_, fun hall ↦ ?_⟩
  · show c'.unread around bytes = Packet.stream (packets.drop (d.after taken).seen)
    rw [hseen, hunread, hs.unread, Packet.drop_stream, List.drop_drop]
  · show c'.released = (Packet.stream (packets.take (d.after taken).seen)).length
    rw [hseen, hreleased, hs.released, Packet.length_stream_take_add]
  · show stats'.bytes = c'.released
    rw [hcounted, hreleased, hs.counted]
  · show d.lines ++ (d.records ++ taken.map PacketRecord.ofPacket).map (render request) =
      (packets.take (d.after taken).seen).map (lineOf request.json)
    have hrendered : (taken.map PacketRecord.ofPacket).map (render request) =
        taken.map (lineOf request.json) := by
      rw [List.map_map]
      exact List.map_congr_left fun p _ ↦ render_ofPacket request p
    rw [hseen, List.take_add, List.map_append, List.map_append, ← hs.shown, hrendered,
      List.append_assoc]
  · rcases hoffered hall with hlast | hlimit
    · exact .inr (hseen.trans hlast)
    · exact .inl (isDone_iff.mpr ⟨_, hlimit, Nat.le_of_eq hseen.symm⟩)

/-- A dispatch of a window to a dump counts it and releases what the marks say, if that succeeds. -/
theorem exec_once_of_release_ok {inner : Source σ} {timeout : Option Nat} {s t u : σ}
    {window : Bytes} {e : Dump}
    (hw : ((inner.within (Part.first : Part (σ × Dump) σ)).wait timeout).exec (s, d) =
      (.ok window, (t, d)))
    (he : (d.take request (Reservation.mk window).packets).2 = e) :
    let marked := (d.take request (Reservation.mk window).packets).1
    let progress := Progress.ofWindow window (furthestEnd window marked)
    (if progress.bytes = 0 then (.ok (), t) else (inner.release progress.bytes).exec t) =
        (.ok (), u) →
      (once (inner.within .first) [runningHandler request] timeout).exec (stats, (s, d)) =
        (.ok progress.bytes, (stats.count window progress, (u, e))) := by
  intro marked progress hr
  have hmarks : marks [runningHandler request] window (t, d) = marked := List.append_nil _
  have heffects : effects [runningHandler request] window (t, d) = (t, e) := congrArg (t, ·) he
  rw [exec_once_of_wait_ok hw, hmarks, heffects]
  by_cases hz : progress.bytes = 0
  · rw [ite_cond_eq_true _ _ (eq_true hz)] at hr
    rw [ite_cond_eq_true _ _ (eq_true hz), (Prod.mk.inj hr).2]
    rfl
  · rw [ite_cond_eq_false _ _ (eq_false hz)] at hr
    have hdone : ((inner.within (Part.first : Part (σ × Dump) σ)).release progress.bytes).exec
        (t, e) = (.ok (), (u, e)) := congrArg (fun r ↦ (r.1, (r.2, e))) hr
    rw [ite_cond_eq_false _ _ (eq_false hz), hdone]
    rfl

/-- A dispatch to a dump that is not done takes packets and releases them, or fails before the dump
takes any. -/
theorem ends_once (h : Shows source around bytes holds) (hpackets : ∀ p ∈ packets, p.Whole)
    (hs : Sound request packets around bytes holds (stats, (c, d)))
    (hd : d.isDone request = false) (timeout : Option Nat) :
    Ends (once ((Scheduled.source around source).within .first) [runningHandler request] timeout)
      (stats, (c, d)) (fun _ ↦ Sound request packets around bytes holds)
      fun _ t ↦ Sound request packets around bytes holds t ∧ t.2.2 = d := by
  obtain ⟨left, hleft⟩ := hs.holds
  obtain ⟨answer, t, hw, hholds, hunread, hreleased, hoffered⟩ :=
    Scheduled.shows_wait h hleft timeout
  have hwait : (((Scheduled.source around source).within
      (Part.first : Part (Scheduled σ ω × Dump) (Scheduled σ ω))).wait timeout).exec (c, d) =
        (answer, (t, d)) := congrArg (fun r ↦ (r.1, (r.2, d))) hw
  unfold Ends
  cases answer with
  | error e =>
    rw [show (once _ _ timeout).run.run (stats, (c, d)) = _ from once_of_wait_error hwait]
    refine ⟨⟨hs.seen_le, hs.limited, ⟨_, hholds⟩, hunread.trans hs.unread,
      hreleased.trans hs.released, hs.counted.trans hreleased.symm, hs.shown, fun hall ↦ ?_⟩, rfl⟩
    exact hs.offered (hoffered.trans (Nat.max_zero _) ▸ hall)
  | ok window =>
    have hstream : t.unread around bytes = Packet.stream (packets.drop d.seen) :=
      hunread.trans hs.unread
    have hprefix : window <+: Packet.stream (packets.drop d.seen) :=
      hstream ▸ Scheduled.left_prefix_unread h hholds
    obtain ⟨k, hk, htaken, hbytes, hle, hlimited, hall⟩ :=
      exists_taken_of_prefix hd (fun p hp ↦ hpackets p (List.mem_of_mem_drop hp)) hprefix
    obtain ⟨u, hrelease, hleft, hunread', hreleased', hoffered'⟩ :=
      Scheduled.shows_release h hholds (Progress.bytes_mod _) hle
    rw [show (once _ _ timeout).run.run (stats, (c, d)) = _ from
      exec_once_of_release_ok hwait htaken hrelease]
    rw [hbytes] at hunread' hreleased'
    have hseen : d.seen ≤ packets.length := hs.seen_le
    rw [List.length_drop] at hk hall
    refine hs.after (by omega) hlimited ⟨_, hleft⟩ (hunread ▸ hunread') (hreleased ▸ hreleased')
      (congrArg (stats.bytes + ·) hbytes) fun hoffers ↦ ?_
    rw [hoffered', hoffered] at hoffers
    have hreach : (Packet.stream packets).length ≤ c.offered ∨
        (Packet.stream packets).length ≤ c.released + window.length := by
      dsimp only at hoffers
      omega
    rcases hreach with hbefore | hnow
    · rcases hs.offered hbefore with hdone | hlast
      · exact absurd (hd.symm.trans hdone) Bool.false_ne_true
      · have hlast : d.seen = packets.length := hlast
        exact .inl (by omega)
    · have hsplit := Packet.length_stream_take_add packets d.seen (packets.length - d.seen)
      have hreleased : c.released = (Packet.stream (packets.take d.seen)).length := hs.released
      rw [Nat.add_sub_cancel' hseen, List.take_length,
        List.take_of_length_le (Nat.le_of_eq List.length_drop), ← hreleased] at hsplit
      exact (hall (by omega)).imp_left fun hk ↦ by omega

/-- Sleeping is something that happens around a source and brings nothing. -/
def Rests (clock : Clock σ) (bytes : σ → Bytes) (holds : Bytes → σ → Prop) : Prop :=
  ∀ {left s} n, holds left s → holds left (clock.sleep n s) ∧ bytes (clock.sleep n s) = bytes s

variable {clock : Clock σ} {s : Running (Scheduled σ ω)}

theorem Sound.sleep (hc : Rests clock bytes holds)
    (hs : Sound request packets around bytes holds (stats, (c, d))) (n : Nat) :
    Sound request packets around bytes holds
      (stats, ((clock.within Scheduled.statePart).sleep n c, d)) := by
  obtain ⟨left, hleft⟩ := hs.holds
  obtain ⟨hnext, hbytes⟩ := hc n hleft
  refine ⟨hs.seen_le, hs.limited, ⟨left, hnext⟩, ?_, hs.released, hs.counted, hs.shown, hs.offered⟩
  exact (congrArg (· ++ _) hbytes).trans hs.unread

/-- Between two rounds everything that was taken is printed. -/
def Settled (request : DumpRequest) (packets : List Packet) (around : Surroundings σ ω)
    (bytes : σ → Bytes) (holds : Bytes → σ → Prop) (s : Running (Scheduled σ ω)) : Prop :=
  Sound request packets around bytes holds s ∧ s.2.2.records = []

theorem Sound.print (hs : Sound request packets around bytes holds (stats, (c, d))) :
    Settled request packets around bytes holds (stats, (c, d.print request)) := by
  refine ⟨⟨hs.seen_le, hs.limited, hs.holds, hs.unread, hs.released, hs.counted, ?_, hs.offered⟩,
    rfl⟩
  exact (List.append_nil _).trans hs.shown

/-- A round of a dump that is not done takes packets, releases them and prints them. -/
theorem ends_round (h : Shows source around bytes holds) (hc : Rests clock bytes holds)
    (hpackets : ∀ p ∈ packets, p.Whole) (hs : Settled request packets around bytes holds s)
    (hd : s.2.2.isDone request = false) :
    Ends (round request (Scheduled.source around source) (clock.within Scheduled.statePart)) s
      (fun _ ↦ Settled request packets around bytes holds)
      fun _ ↦ Settled request packets around bytes holds := by
  obtain ⟨stats, c, d⟩ := s
  refine (ends_once h hpackets hs.1 hd (some request.poll)).outcome.bind (fun _ _ hf ↦ hf.elim)
    fun r t ht ↦ ?_
  obtain ⟨stats', c', d'⟩ := t
  split
  · exact (ht.sleep hc 1).print
  · exact Sound.print ⟨ht.seen_le, ht.limited, ht.holds, ht.unread, ht.released, ht.counted,
      ht.shown, ht.offered⟩
  · exact ht.1.print
  · -- the dump took nothing, so that nothing is left to be printed
    exact ⟨ht.1, (congrArg Dump.records ht.2).trans hs.2⟩

/-- A dump prints what it takes, however it ends. -/
theorem ends_rounds (h : Shows source around bytes holds) (hc : Rests clock bytes holds)
    (hpackets : ∀ p ∈ packets, p.Whole) (hs : Settled request packets around bytes holds s)
    (n : Nat) :
    Ends (rounds request (Scheduled.source around source) (clock.within Scheduled.statePart) n) s
      (fun _ ↦ Settled request packets around bytes holds)
      fun _ ↦ Settled request packets around bytes holds := by
  have hread (s : Running (Scheduled σ ω)) :
      Ends LinkM.read s (fun t u ↦ t = s ∧ u = s) fun (_ : LinkError) _ ↦ False := ⟨rfl, rfl⟩
  induction n generalizing s with
  | zero => exact hs
  | succ n ih =>
    refine (hread s).bind (fun _ _ hf ↦ hf.elim) ?_
    rintro _ _ ⟨rfl, rfl⟩
    split
    · exact hs
    · next hd =>
      refine (ends_round h hc hpackets hs (Bool.eq_false_iff.mpr hd)).bind (fun _ _ ht ↦ ht)
        fun _ t ht ↦ ?_
      obtain ⟨stats, c, d⟩ := t
      refine (hread _).bind (fun _ _ hf ↦ hf.elim) ?_
      rintro _ _ ⟨rfl, rfl⟩
      dsimp only
      split
      · exact ht
      · exact ih ht

/-! ### What is printed -/

/-- A dump of a source that goes on meanwhile, ended by itself or after so many rounds. -/
def dumping (request : DumpRequest) (source : Source σ) (around : Surroundings σ ω)
    (clock : Clock σ) (rounds now : Nat) (due : List (List ω)) (s : σ) : Running (Scheduled σ ω) :=
  ((Dump.rounds request (Scheduled.source around source) (clock.within Scheduled.statePart)
    rounds).exec (.zero, (.start s due, Dump.start now))).2

/-- A dump of a stream of packets that printed the first `count` of them and left other bytes. -/
structure Prints (request : DumpRequest) (packets : List Packet) (count : Nat) (left : Bytes)
    (s : Running (Scheduled σ ω)) : Prop where
  /-- The records of just these packets are printed, each once and in order. -/
  lines : s.2.2.lines = (packets.take count).map (lineOf request.json)
  /-- Just these packets are released. -/
  released : s.2.1.released = (Packet.stream (packets.take count)).length
  counted : s.1.bytes = s.2.1.released
  /-- The next packet is the first that is left. -/
  left : left = Packet.stream (packets.drop count)
  limited : ∀ n, request.limit = some n → count ≤ n
  /-- A dump that its limit ended has printed as many as that. -/
  reached : s.2.2.isDone request = true → request.limit = some count
  /-- If all packets were offered, none is missing that was asked for. -/
  offered : (Packet.stream packets).length ≤ s.2.1.offered →
    count = match request.limit with
      | some n => min n packets.length
      | none => packets.length

/-- A dump of a stream of packets that printed the first ones and left the others to be read. -/
def PrintsFirst (request : DumpRequest) (packets : List Packet) (around : Surroundings σ ω)
    (bytes : σ → Bytes) (s : Running (Scheduled σ ω)) : Prop :=
  ∃ count ≤ packets.length, Prints request packets count (s.2.1.unread around bytes) s

theorem Settled.printsFirst (hs : Settled request packets around bytes holds s) :
    PrintsFirst request packets around bytes s := by
  obtain ⟨hsound, hrecords⟩ := hs
  have hreached (hd : s.2.2.isDone request = true) : request.limit = some s.2.2.seen := by
    obtain ⟨n, hn, hle⟩ := isDone_iff.mp hd
    rw [hn, Nat.le_antisymm hle (hsound.limited n hn)]
  have hlines := hsound.shown
  rw [hrecords, List.map_nil, List.append_nil] at hlines
  refine ⟨s.2.2.seen, hsound.seen_le, hlines, hsound.released, hsound.counted, hsound.unread,
    hsound.limited, hreached, fun hall ↦ ?_⟩
  rcases hsound.offered hall with hd | hlast
  · rw [hreached hd]
    exact (Nat.min_eq_left hsound.seen_le).symm
  · split
    · next n hn =>
      rw [← hlast, Nat.min_eq_right (hsound.limited n hn)]
    · exact hlast

/-- Of a source that shows a stream of packets a dump prints and releases the first ones. -/
theorem printsFirst_dumping (h : Shows source around bytes holds) (hc : Rests clock bytes holds)
    (hpackets : ∀ p ∈ packets, p.Whole) {left : Bytes} {s : σ} (hs : holds left s)
    {due : List (List ω)}
    (hstream : bytes s ++ due.flatten.flatMap around.fed = Packet.stream packets)
    (request : DumpRequest) (rounds now : Nat) :
    PrintsFirst request packets around bytes
      (dumping request source around clock rounds now due s) :=
  (ends_rounds h hc hpackets ⟨sound_start hs hstream hpackets now, rfl⟩ rounds).of_exec.printsFirst

/-! ### A dump around which nothing happens -/

/-- What is left of a running dump without what happens around its source. -/
def alone (s : Running (Scheduled σ ω)) : Running σ := (s.1, (s.2.1.state, s.2.2))

/-- Nothing is to happen. -/
def Quiet (s : Running (Scheduled σ ω)) : Prop := s.2.1.due = []

theorem mirrors_once (request : DumpRequest) (source : Source σ) (around : Surroundings σ ω)
    (timeout : Option Nat) :
    Mirrors Quiet alone
      (once ((Scheduled.source around source).within .first) [runningHandler request] timeout)
      (once (source.within .first) [runningHandler request] timeout) := by
  rintro ⟨stats, c, d⟩ hc
  obtain ⟨hwait, hquiet⟩ := Scheduled.mirrors_wait around source timeout c hc
  rcases hr : (Scheduled.wait around source timeout).exec c with ⟨answer, c'⟩
  rw [hr] at hwait hquiet
  have hw : (((Scheduled.source around source).within
      (Part.first : Part (Scheduled σ ω × Dump) (Scheduled σ ω))).wait timeout).exec (c, d) =
        (answer, (c', d)) := congrArg (fun r ↦ (r.1, (r.2, d))) hr
  have hw' : ((source.within (Part.first : Part (σ × Dump) σ)).wait timeout).exec (c.state, d) =
      (answer, (c'.state, d)) := congrArg (fun r ↦ (r.1, (r.2, d))) hwait
  cases answer with
  | error e =>
    rw [once_of_wait_error hw]
    exact ⟨once_of_wait_error hw', hquiet⟩
  | ok window =>
    let r : Reservation := ⟨window⟩
    let n := (Progress.ofWindow window (furthestEnd window (d.take request r.packets).1)).bytes
    have hmarks (t : Scheduled σ ω × Dump) : marks [runningHandler request] window t =
      (t.2.take request r.packets).1 := List.append_nil _
    have hmarks' (t : σ × Dump) : marks [runningHandler request] window t =
      (t.2.take request r.packets).1 := List.append_nil _
    rw [exec_once_of_wait_ok hw, alone, exec_once_of_wait_ok hw', hmarks, hmarks']
    obtain ⟨hrelease, hquiet'⟩ := Scheduled.mirrors_release around source n c' hquiet
    by_cases hz : n = 0
    · rw [ite_cond_eq_true _ _ (eq_true hz), ite_cond_eq_true _ _ (eq_true hz)]
      exact ⟨rfl, hquiet⟩
    · rw [ite_cond_eq_false _ _ (eq_false hz), ite_cond_eq_false _ _ (eq_false hz)]
      have hdone : ((source.within (Part.first : Part (σ × Dump) σ)).release n).exec
          (c'.state, (d.take request r.packets).2) = (_, (_, (d.take request r.packets).2)) :=
        congrArg (fun r' ↦ (r'.1, (r'.2, (d.take request r.packets).2))) hrelease
      exact ⟨congrArg (fun r' ↦ (r'.1.map fun _ ↦ n, (stats.count window _, r'.2))) hdone, hquiet'⟩

theorem mirrors_round (request : DumpRequest) (source : Source σ) (around : Surroundings σ ω)
    (clock : Clock σ) :
    Mirrors Quiet alone
      (round request (Scheduled.source around source) (clock.within Scheduled.statePart))
      (round request source clock) := by
  refine (mirrors_once request source around (some request.poll)).outcome.bind fun r ↦ ?_
  dsimp only
  split <;> exact fun _ ht ↦ ⟨rfl, ht⟩

theorem mirrors_rounds (request : DumpRequest) (source : Source σ) (around : Surroundings σ ω)
    (clock : Clock σ) (n : Nat) :
    Mirrors Quiet alone
      (rounds request (Scheduled.source around source) (clock.within Scheduled.statePart) n)
      (rounds request source clock n) := by
  induction n with
  | zero => exact fun _ ht ↦ ⟨rfl, ht⟩
  | succ n ih =>
    refine Mirrors.read_bind fun s ↦ ?_
    dsimp only [alone]
    split
    · exact Mirrors.pure ()
    · refine (mirrors_round request source around clock).bind fun _ ↦ Mirrors.read_bind ?_
      rintro ⟨stats, c, d⟩
      show Mirrors Quiet alone
        (if isIdle request clock c.state d then pure ()
          else rounds request (Scheduled.source around source) (clock.within _) n)
        (if isIdle request clock c.state d then pure () else rounds request source clock n)
      split
      · exact Mirrors.pure ()
      · exact ih

/-- A dump around which nothing happens is a dump of the source alone. -/
theorem exec_rounds_eq (request : DumpRequest) (source : Source σ) (around : Surroundings σ ω)
    (clock : Clock σ) (rounds now : Nat) (s : σ) :
    ((Dump.rounds request source clock rounds).exec (.zero, (s, Dump.start now))).2 =
      alone (dumping request source around clock rounds now [] s) :=
  congrArg Prod.snd (mirrors_rounds request source around clock rounds
    (.zero, (.start s [], Dump.start now)) rfl).1

/-! ### The rings that are dumped -/

theorem rests_pushing : Rests Pushing.time Pushing.unread Pushing.Facing :=
  fun n h ↦ h.event (.elapse n)

theorem rests_direct {δ : Type} :
    Rests (Link.clock.within .second) (fun s : DirectRing × (Link × Host δ) ↦ Link.unread s.2)
      DirectRing.Facing := by
  intro left s n h
  obtain ⟨hfacing, hunread⟩ := h.arrival (.elapse n)
  exact ⟨hfacing, hunread.trans (List.append_nil _)⟩

/-- The clock of a copier's host, at which time passes while the copier rests. -/
def copierClock {δ : Type} [Driver δ] (poll : Nat) : Clock (CopiedRing.Feeding δ) where
  now c := c.state.2.clock
  sleep n c := (CopiedRing.surroundings poll).apply (.arrival (.elapse n)) c

theorem rests_copied {δ : Type} [Driver δ] (size poll : Nat) (held : Bytes) :
    Rests (copierClock (δ := δ) poll) CopiedRing.unread (CopiedRing.Facing size held) := by
  intro left c n h
  obtain ⟨hfacing, hunread⟩ :=
    @CopiedRing.Facing.turn _ _ poll _ _ _ _ h (.arrival (.elapse n))
  exact ⟨hfacing, hunread.trans (List.append_nil _)⟩

/-- A dump of a stream of packets, with any limit and any patience, ended by its limit, by an error,
because nothing came, or after any number of rounds. The stream may be in a ring with memory of its
own in any state, of which a producer pushes pieces of any size at any time; it may arrive in any
pieces at a connected link with a direct ring, or with a copier that fills a ring, in any state that
it comes to. However the stream is cut into windows, just the first packets are printed, each once,
in order and on the line that tells its fields, and just their bytes are released, so that the next
packet is the first that is left.
They are as many as the limit if that ended the dump; and if all packets were offered before the
dump ended, they are all of them or as many as the limit. -/
theorem rounds_print_first {packets : List Packet} (hpackets : ∀ p ∈ packets, p.Whole)
    (request : DumpRequest) (rounds now : Nat) :
    (∀ (p : Pushing) (due : List (List Pushing.Event)), p.ring.WellFormed →
      p.unread = Packet.stream packets →
      PrintsFirst request packets Pushing.surroundings Pushing.unread
        (dumping request Pushing.source Pushing.surroundings Pushing.time rounds now due p)) ∧
    (∀ {δ : Type} [Driver δ] (size : Nat) (s : Link × Host δ) (due : List (List Link.Arrival)),
      Link.Connected s →
      Link.unread s ++ due.flatten.flatMap Link.Arrival.bytes = Packet.stream packets →
      PrintsFirst request packets DirectRing.surroundings (fun t ↦ Link.unread t.2)
        (dumping request (DirectRing.source Link.source) DirectRing.surroundings
          (Link.clock.within .second) rounds now due (.ofSize size, s))) ∧
    ∀ {δ : Type} [Driver δ] {size : Nat} {ring : Ring} (poll : Nat) (s : Link × Host δ)
      (events : List (Copying.Event Link.Arrival)) (due : List (List CopiedRing.Turn)),
      Ring.create size = .ok ring → Link.Connected s →
      let c := Copying.run Link.source Link.Arrival.apply poll (Copying.start s ring) events
      CopiedRing.unread c ++ due.flatten.flatMap CopiedRing.Turn.bytes = Packet.stream packets →
      PrintsFirst request packets (CopiedRing.surroundings poll) CopiedRing.unread
        (dumping request CopiedRing.reader (CopiedRing.surroundings poll) (copierClock poll)
          rounds now due c) := by
  refine ⟨?_, ?_, ?_⟩
  · intro p due hring hstream
    have hfed : due.flatten.flatMap Pushing.surroundings.fed = [] :=
      List.flatMap_eq_nil_iff.mpr fun _ _ ↦ rfl
    exact printsFirst_dumping Pushing.shows rests_pushing hpackets ⟨hring, List.nil_prefix⟩
      (by rw [hfed, List.append_nil, hstream]) request rounds now
  · intro δ _ size s due hs hstream
    exact printsFirst_dumping DirectRing.shows rests_direct hpackets
      (DirectRing.facing_ofSize size hs) hstream request rounds now
  · intro δ _ size ring poll s events due hring hs c hstream
    exact printsFirst_dumping (CopiedRing.shows size poll _) (rests_copied size poll _) hpackets
      (CopiedRing.facing_run hring hs events) hstream request rounds now

/-- Three packets with a limit of two. In a ring of 64 bytes they lie around its end, and the limit
ends the dump inside a window; from a direct ring the second one comes in two pieces and is the last
of its window, and JSON is printed; a copier fills a ring of 60 bytes, of which a window ends inside
the third packet. -/
theorem rounds_print_first_two :
    let a : Packet := ⟨⟨1, 0x15325501, 0xA0003022, 0, 0, 0⟩, []⟩
    let b : Packet := ⟨⟨4, 5, 6, 4, 0, 0⟩, [1, 2, 3, 4]⟩
    let packets := [a, b, a]
    let bytes := Packet.stream packets
    let request : DumpRequest := ⟨some 2, none, 100, false⟩
    let shown := ["command src=21.50.85.1 dst=0x00000001 len=24 cmd=ReadStatus (response)",
      "neutron src=0.0.0.5 dst=0x00000004 len=28"]
    let shownJson := [
      "\x7b\"kind\":\"command\",\"source\":\"21.50.85.1\",\"destination\":1,\"length\":24," ++
        "\"command\":\"ReadStatus\",\"response\":true,\"payload_length\":0\x7d",
      "\x7b\"kind\":\"neutron\",\"source\":\"0.0.0.5\",\"destination\":4,\"length\":28," ++
        "\"command\":null,\"response\":false,\"payload_length\":4\x7d"]
    let ring : Ring := ⟨⟨64, 40, 40⟩, ⟨⟨(Bytes.zeros 64).toArray⟩⟩, none⟩
    let pushes : List (List Pushing.Event) := [[.push 10], [.elapse 3, .push 99]]
    let pushed := dumping request Pushing.source Pushing.surroundings Pushing.time 9 0 pushes
      ⟨ring, bytes, 0⟩
    let link : Link := ⟨.pipe ⟨["r"], ["t"], true, []⟩, false, true⟩
    let host : Host Board := .bare (.fresh 64 [])
    let pieces : List (List Link.Arrival) := [[.feed 0 (bytes.take 30)], [],
      [.feed 5 ((bytes.drop 30).take 22)], [.feed 0 (bytes.drop 52)]]
    let direct := dumping { request with json := true } (DirectRing.source Link.source)
      DirectRing.surroundings (Link.clock.within .second) 9 0 pieces (.ofSize 100, (link, host))
    let events : List (Copying.Event Link.Arrival) :=
      [.outside (.feed 0 (Bytes.zeros 40)), .copier, .copier, .copier, .copier, .consume 40]
    let copier := Copying.run Link.source Link.Arrival.apply 50
      (Copying.start (link, host) ⟨.empty 60, .empty, none⟩) events
    let turns : List (List CopiedRing.Turn) :=
      [[.arrival (.feed 0 bytes)], [.copier, .copier, .copier], [.copier]]
    let copied := dumping request CopiedRing.reader (CopiedRing.surroundings 50) (copierClock 50)
      9 0 turns copier
    (pushed.2.2.lines = shown ∧
      pushed.2.1.unread Pushing.surroundings Pushing.unread = a.window) ∧
    (direct.2.2.lines = shownJson ∧
      direct.2.1.unread DirectRing.surroundings (fun s ↦ Link.unread s.2) = a.window) ∧
    copied.2.2.lines = shown ∧
      copied.2.1.unread (CopiedRing.surroundings 50) CopiedRing.unread = a.window := by
  intro a b packets bytes request shown shownJson ring pushes pushed link host pieces direct events
    copier turns copied
  have hpackets : ∀ p ∈ packets, p.Whole := by
    have ha : a.Whole := ⟨by decide, by decide, by decide, by decide, by decide⟩
    have hb : b.Whole := ⟨by decide, by decide, by decide, by decide, by decide⟩
    simp only [packets, List.forall_mem_cons, List.not_mem_nil, false_implies, implies_true,
      and_true]
    exact ⟨ha, hb, ha⟩
  have hring : ring.WellFormed :=
    ⟨⟨by decide, by decide, by decide, by decide, by decide, by decide⟩, by decide, by decide,
      by decide⟩
  have hlink : Link.Connected (link, host) :=
    Link.connected_pipe (List.cons_ne_nil _ _) rfl Stream.stays_empty
  have hcopier : Ring.create 60 = .ok ⟨.empty 60, .empty, none⟩ := by rfl
  obtain ⟨hpushed, -, hcopied⟩ := rounds_print_first hpackets request 9 0
  obtain ⟨-, hdirect, -⟩ := rounds_print_first hpackets { request with json := true } 9 0
  have hprints₁ := hpushed ⟨ring, bytes, 0⟩ pushes hring (by decide +kernel)
  have hprints₂ := hdirect 100 (link, host) pieces hlink (by decide +kernel)
  have hprints₃ := hcopied 50 (link, host) events turns hcopier hlink (by decide +kernel)
  have hdone : pushed.2.2.isDone request = true ∧
      direct.2.2.isDone { request with json := true } = true ∧
      copied.2.2.isDone request = true := by
    decide +kernel
  have hlines : [a, b].map (lineOf false) = shown ∧ [a, b].map (lineOf true) = shownJson := by
    decide +kernel
  have hfirst {σ ω : Type} {around : Surroundings σ ω} {left : σ → Bytes} {json : Bool}
      {d : Running (Scheduled σ ω)} (hd : d.2.2.isDone { request with json } = true)
      (h : PrintsFirst { request with json } packets around left d) :
      d.2.2.lines = [a, b].map (lineOf json) ∧ d.2.1.unread around left = a.window := by
    obtain ⟨count, -, hprints⟩ := h
    obtain rfl : 2 = count := Option.some.inj (hprints.reached hd)
    exact ⟨hprints.lines, hprints.left.trans (List.append_nil _)⟩
  have hfirst₁ := hfirst hdone.1 hprints₁
  have hfirst₂ := hfirst hdone.2.1 hprints₂
  have hfirst₃ := hfirst hdone.2.2 hprints₃
  rw [hlines.1] at hfirst₁ hfirst₃
  rw [hlines.2] at hfirst₂
  exact ⟨hfirst₁, hfirst₂, hfirst₃⟩

end Dump

end DetectorLink
