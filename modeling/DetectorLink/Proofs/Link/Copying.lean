import DetectorLink.Link.Opening
import DetectorLink.Proofs.Link.Hardware
import DetectorLink.Proofs.Link.Medium
import DetectorLink.Proofs.Link.Pipe
import DetectorLink.Proofs.Ring.Copying

/-!
# Copying a link into a ring

A copier takes its bytes from named pipes or from an adapter. Of a pipe it has released a part of
what was sent into it, of an adapter a part of what the device has put into the receive region one
after the other, going round at its end. In both cases the ring has accepted just that part, and
perhaps the piece behind it whose release is due or failed.
-/

namespace DetectorLink

open Copying

/-- What can happen around a link. -/
inductive Happening (δ : Type) where
  /-- Bytes arrive in a named pipe. -/
  | feed (path : FilePath) (data : Bytes)
  /-- Reads of a named pipe may fail. -/
  | disturb (path : FilePath) (reads : Schedule ReadFault)
  /-- Time passes. -/
  | elapse (milliseconds : Nat)
  /-- The device goes on by itself. -/
  | device (f : δ → δ)

namespace Happening

variable {δ : Type}

/-- What is left after it. -/
def apply (what : Happening δ) (s : Link × Host δ) : Link × Host δ :=
  match what with
  | feed path data => (s.1, s.2.feed path data)
  | disturb path reads => (s.1, s.2.disturb path reads)
  | elapse milliseconds => (s.1, s.2.sleep milliseconds)
  | device f => (s.1, { s.2 with driver := f s.2.driver })

/-- The bytes that arrived in a named pipe. -/
def fed (path : FilePath) (log : List (Entry (Link × Host δ) (Happening δ))) : Bytes :=
  log.flatMap fun
    | .happened (.feed place data) => if place = path then data else []
    | _ => []

theorem fed_concat (path : FilePath) (log : List (Entry (Link × Host δ) (Happening δ)))
    (entry : Entry (Link × Host δ) (Happening δ)) :
    fed path (log ++ [entry]) = fed path log ++ fed path [entry] := List.flatMap_append

end Happening

namespace Link

variable {δ : Type}

/-! ### Pipes -/

/-- What was released of a pipe and what was not are what was there and what arrived, and what is
left of the last window is at the start of the buffer. -/
def FollowsPipe (start : Pipe) (held : Bytes) (log : List (Entry (Link × Host δ) (Happening δ)))
    (s : Link × Host δ) : Prop :=
  ∃ p, s.1.medium = .pipe p ∧ p.rx = start.rx ∧ shown log <+: p.buffer ∧
    acknowledged log ++ p.unread s.2 = held ++ Happening.fed start.rx log

/-- What was released, with some of what is left of the last window behind it, starts the bytes that
were there and that arrived. -/
theorem FollowsPipe.prefix_of_shown {start : Pipe} {held due : Bytes}
    {log : List (Entry (Link × Host δ) (Happening δ))} {s : Link × Host δ}
    (hf : FollowsPipe start held log s) (hdue : due <+: shown log) :
    acknowledged log ++ due <+: held ++ Happening.fed start.rx log := by
  obtain ⟨p, -, -, hshown, hfollows⟩ := hf
  rw [← hfollows, List.prefix_append_right_inj]
  exact (hdue.trans hshown).trans (List.prefix_append _ _)

variable [Driver δ]

/-- Everything that a copier asks of a link over pipes, and everything that happens around it,
keeps the bytes together. -/
theorem keeps_followsPipe {start : Pipe} (hrx : start.rx ≠ []) (held : Bytes) :
    Keeps source (Happening.apply (δ := δ)) (FollowsPipe start held) where
  waited := by
    rintro log ⟨link, host⟩ timeout answer t ⟨p, hm, hp, hshown, hfollows⟩ hw
    obtain ⟨r, p', host', hx, hp', hbuffer, hunread, hok⟩ :=
      Pipe.wait_cases host (hp ▸ hrx : p.rx ≠ []) timeout
    have hl := exec_onMedium_pipe (Hardware.wait timeout) (Pipe.wait timeout)
      (Socket.wait timeout) host hm
    rw [hx] at hl
    obtain ⟨rfl, rfl⟩ := Prod.mk.inj (hl.symm.trans hw)
    refine ⟨p', rfl, hp'.trans hp, ?_, ?_⟩
    · rw [shown_concat]
      match r with
      | .ok data =>
        obtain ⟨rfl, -⟩ := hok data rfl
        exact List.prefix_rfl
      | .error e => exact hshown.trans hbuffer
    · rw [acknowledged_concat, Happening.fed_concat]
      show _ = held ++ (Happening.fed start.rx log ++ [])
      rw [List.append_nil, ← hfollows]
      match r with
      | .ok _ | .error _ => exact congrArg (acknowledged log ++ ·) hunread
  released := by
    rintro log ⟨link, host⟩ n outcome t ⟨p, hm, hp, hshown, hfollows⟩ - - hle hr
    have hl := exec_acknowledge link host n
    split at hl
    · obtain ⟨rfl, rfl⟩ := Prod.mk.inj (hl.symm.trans hr)
      refine ⟨p, hm, hp, ?_, ?_⟩
      · rw [shown_concat]
        exact hshown
      · rw [acknowledged_concat, Happening.fed_concat]
        show _ = held ++ (Happening.fed start.rx log ++ [])
        rw [List.append_nil]
        exact hfollows
    · rw [releaseBytes, exec_onMedium_pipe _ _ _ _ hm] at hl
      obtain ⟨rfl, rfl⟩ := Prod.mk.inj (hl.symm.trans hr)
      have hn : n ≤ p.buffer.length := Nat.le_trans hle hshown.length_le
      refine ⟨{ p with buffer := p.buffer.drop n }, rfl, hp, ?_, ?_⟩
      · rw [shown_concat]
        obtain ⟨rest, hrest⟩ := hshown
        refine ⟨rest, ?_⟩
        rw [← hrest, List.drop_append_of_le_length hle]
        rfl
      · rw [acknowledged_concat, Happening.fed_concat]
        show acknowledged log ++ (shown log).take n ++ Pipe.unread _ host =
          held ++ (Happening.fed start.rx log ++ [])
        -- the window starts the buffer, so its first bytes are those that leave it
        have htake : (shown log).take n = (p.unread host).take n := by
          obtain ⟨rest, hrest⟩ := hshown
          show _ = (p.buffer ++ _).take n
          rw [List.take_append_of_le_length hn, ← hrest, List.take_append_of_le_length hle]
        rw [List.append_nil, Pipe.unread_acknowledge host hn, htake, List.append_assoc,
          List.take_append_drop]
        exact hfollows
  happened := by
    rintro log ⟨link, host⟩ what ⟨p, hm, hp, hshown, hfollows⟩
    refine ⟨p, ?_, hp, ?_, ?_⟩
    · cases what <;> exact hm
    · rw [shown_concat]
      exact hshown
    · rw [acknowledged_concat, Happening.fed_concat, ← List.append_assoc, ← hfollows]
      cases what with
      | feed path data =>
        show acknowledged log ++ p.unread (host.feed path data) =
          acknowledged log ++ p.unread host ++ ((if path = start.rx then data else []) ++ [])
        rw [Pipe.unread_feed host (hp ▸ hrx : p.rx ≠ []), hp, List.append_nil, List.append_assoc]
      | disturb path reads =>
        show acknowledged log ++ p.unread (host.disturb path reads) = _
        rw [Pipe.unread_disturb host (hp ▸ hrx : p.rx ≠ [])]
        exact (List.append_nil _).symm
      | elapse _ | device _ => exact (List.append_nil _).symm
  word := by
    rintro log ⟨link, host⟩ timeout data t ⟨p, hm, hp, -, -⟩ hw
    obtain ⟨r, p', host', hx, -, -, -, hok⟩ :=
      Pipe.wait_cases host (hp ▸ hrx : p.rx ≠ []) timeout
    have hl := exec_onMedium_pipe (Hardware.wait timeout) (Pipe.wait timeout)
      (Socket.wait timeout) host hm
    rw [hx] at hl
    exact (hok data (Prod.mk.inj (hl.symm.trans hw)).1).2

/-- A copier over pipes stays in order and keeps the bytes together. -/
theorem followsPipe_run {size : Nat} {ring : Ring} (hring : Ring.create size = .ok ring)
    {link : Link} {p : Pipe} (hm : link.medium = .pipe p) (hrx : p.rx ≠ []) (host : Host δ)
    (poll : Nat) (events : List (Event (Happening δ))) :
    let c := run source Happening.apply poll (start (link, host) ring) events
    c.Sound size ∧ FollowsPipe p (p.unread host) c.log c.state :=
  sound_run poll (keeps_followsPipe hrx (p.unread host)) (sound_start hring (link, host))
    ⟨p, hm, rfl, List.nil_prefix, (List.append_nil _).symm⟩ events

/-! ### Adapters -/

variable [MappedMemory δ]

/-- Whenever a window was shown, the region held the bytes of a stream there, each at its place when
the stream goes round the region from the first consumer offset on. -/
def RegionHolds (start : Hardware) (stream : Nat → UInt8)
    (log : List (Entry (Link × Host δ) (Happening δ))) : Prop :=
  ∀ pre window s, pre ++ [.waited (.ok window) s] <+: log → ∀ i < window.length,
    MappedMemory.byte s.2.driver (regionAddress +
      (start.consumer + ((acknowledged pre).length + i)) % start.regionSize) =
        stream ((acknowledged pre).length + i)

/-- The consumer offset has moved by what was released, and what was released and what is left of
the last window are the first bytes of every stream that the region held. -/
def FollowsRegion (start : Hardware) (log : List (Entry (Link × Host δ) (Happening δ)))
    (s : Link × Host δ) : Prop :=
  ∃ h, s.1.medium = .hardware h ∧ h.regionSize = start.regionSize ∧
    h.consumer = (start.consumer + (acknowledged log).length) % start.regionSize ∧
    (shown log).length ≤ h.window ∧
    ∀ stream, RegionHolds start stream log →
      acknowledged log ++ shown log =
        (List.range ((acknowledged log).length + (shown log).length)).map stream

/-- A stream that the region held so far it held before. -/
theorem RegionHolds.of_concat {start : Hardware} {stream : Nat → UInt8}
    {log : List (Entry (Link × Host δ) (Happening δ))}
    {entry : Entry (Link × Host δ) (Happening δ)}
    (hholds : RegionHolds start stream (log ++ [entry])) : RegionHolds start stream log :=
  fun pre window s hpre ↦ hholds pre window s (hpre.trans (List.prefix_append _ _))

theorem FollowsRegion.adapter {start : Hardware} {log : List (Entry (Link × Host δ) (Happening δ))}
    {s : Link × Host δ} (hf : FollowsRegion start log s) :
    ∃ h, s.1.medium = .hardware h ∧ (h.regionSize ≠ 0 → h.consumer < h.regionSize) ∧
      (shown log).length ≤ h.window := by
  obtain ⟨h, hm, hsize, hconsumer, hwindow, -⟩ := hf
  refine ⟨h, hm, fun hz ↦ ?_, hwindow⟩
  rw [hconsumer, ← hsize]
  exact Nat.mod_lt _ (Nat.pos_of_ne_zero hz)

/-- A wait on a link of an adapter only reads; it fails, or it shows the next bytes. -/
theorem wait_hardware_cases {link : Link} {h : Hardware} (hm : link.medium = .hardware h)
    (hc : h.regionSize ≠ 0 → h.consumer < h.regionSize) (host : Host δ) (timeout : Option Nat) :
    ∃ answer h' e, (wait timeout).exec (link, host) =
        (answer, ({ link with medium := .hardware h' }, { host with driver := e })) ∧
      ((∃ x, answer = .error x ∧ h' = h) ∨ ∃ n, answer = .ok (h.cyclic e n) ∧
        alignment ≤ n ∧ h' = { h with window := n }) := by
  have hl := exec_onMedium_hardware (Hardware.wait timeout) (Pipe.wait timeout)
    (Socket.wait timeout) host hm
  by_cases hz : h.regionSize = 0
  · rw [Hardware.exec_wait_of_regionSize_eq_zero _ hz] at hl
    exact ⟨_, h, host.driver, hl, .inl ⟨_, rfl, rfl⟩⟩
  · obtain ⟨e, -, ⟨x, hx⟩ | ⟨producer, hshows, hx⟩⟩ :=
      Hardware.wait_cases host.driver (hc hz) timeout <;> rw [hx] at hl
    · exact ⟨_, h, e, hl, .inl ⟨x, rfl, rfl⟩⟩
    · refine ⟨_, _, e, hl, .inr ⟨h.windowLength producer, rfl, ?_, rfl⟩⟩
      have hmod : h.windowLength producer % 4 = 0 := Hardware.windowLength_mod
      have hpos := hshows.2
      simp only [alignment]
      omega

/-- What neither releases nor shows anything keeps the offset. -/
theorem FollowsRegion.concat {start : Hardware} {log : List (Entry (Link × Host δ) (Happening δ))}
    {entry : Entry (Link × Host δ) (Happening δ)} {s t : Link × Host δ}
    (hf : FollowsRegion start log s) (hentry : ∀ b, entry.tally b = b)
    (hm : t.1.medium = s.1.medium) : FollowsRegion start (log ++ [entry]) t := by
  obtain ⟨h, hs, hsize, hconsumer, hwindow, hfollows⟩ := hf
  have hack : acknowledged (log ++ [entry]) = acknowledged log := by
    rw [acknowledged_concat, hentry]
  have hshow : shown (log ++ [entry]) = shown log := by
    rw [shown_concat, hentry]
  refine ⟨h, hm.trans hs, hsize, ?_, ?_, ?_⟩
  · rw [hack]
    exact hconsumer
  · rw [hshow]
    exact hwindow
  · intro stream hholds
    rw [hack, hshow]
    exact hfollows stream hholds.of_concat

/-- Showing the next bytes of the region keeps the offset. -/
theorem FollowsRegion.concat_waited {start h : Hardware}
    {log : List (Entry (Link × Host δ) (Happening δ))} {s t : Link × Host δ}
    (hf : FollowsRegion start log s) (hs : s.1.medium = .hardware h) {n : Nat}
    (hm : t.1.medium = .hardware { h with window := n }) :
    FollowsRegion start (log ++ [.waited (.ok (h.cyclic t.2.driver n)) t]) t := by
  obtain ⟨h', hs', hsize, hconsumer, -, hfollows⟩ := hf
  obtain rfl : h' = h := Medium.hardware.inj (hs'.symm.trans hs)
  refine ⟨_, hm, hsize, ?_, ?_, ?_⟩
  · rw [acknowledged_concat]
    exact hconsumer
  · rw [shown_concat]
    exact Nat.le_of_eq (Hardware.length_cyclic ..)
  · intro stream hholds
    have hbefore : acknowledged log = (List.range (acknowledged log).length).map stream := by
      have htake := congrArg (List.take (acknowledged log).length)
        (hfollows stream hholds.of_concat)
      rwa [List.take_left, ← List.map_take, List.take_range,
        Nat.min_eq_left (Nat.le_add_right _ _)] at htake
    rw [acknowledged_concat, shown_concat]
    show acknowledged log ++ h'.cyclic t.2.driver n =
      (List.range ((acknowledged log).length + (h'.cyclic t.2.driver n).length)).map stream
    rw [Hardware.length_cyclic, List.range_add, List.map_append, ← hbefore, List.map_map,
      Hardware.cyclic]
    congr 1
    refine List.map_congr_left fun i hi ↦ ?_
    rw [hconsumer, hsize, Nat.mod_add_mod, Nat.add_assoc]
    refine hholds log _ _ List.prefix_rfl i ?_
    rw [Hardware.length_cyclic]
    exact List.mem_range.mp hi

/-- Releasing bytes of the window moves the offset by as many. -/
theorem FollowsRegion.concat_released {start h : Hardware}
    {log : List (Entry (Link × Host δ) (Happening δ))} {s t : Link × Host δ}
    (hf : FollowsRegion start log s) (hs : s.1.medium = .hardware h) {n : Nat}
    (hle : n ≤ (shown log).length)
    (hm : t.1.medium = .hardware
      { h with consumer := (h.consumer + n) % h.regionSize, window := h.window - n }) :
    FollowsRegion start (log ++ [.released n (.ok ())]) t := by
  obtain ⟨h', hs', hsize, hconsumer, hwindow, hfollows⟩ := hf
  obtain rfl : h' = h := Medium.hardware.inj (hs'.symm.trans hs)
  refine ⟨_, hm, hsize, ?_, ?_, ?_⟩
  · rw [acknowledged_concat]
    show (h'.consumer + n) % h'.regionSize =
      (start.consumer + (acknowledged log ++ (shown log).take n).length) % start.regionSize
    rw [List.length_append, List.length_take_of_le hle, hconsumer, hsize, Nat.mod_add_mod,
      Nat.add_assoc]
  · rw [shown_concat]
    show ((shown log).drop n).length ≤ h'.window - n
    rw [List.length_drop]
    exact Nat.sub_le_sub_right hwindow n
  · intro stream hholds
    rw [acknowledged_concat, shown_concat]
    show acknowledged log ++ (shown log).take n ++ (shown log).drop n = (List.range
      ((acknowledged log ++ (shown log).take n).length + ((shown log).drop n).length)).map stream
    rw [← List.length_append, List.append_assoc, List.take_append_drop, List.length_append]
    exact hfollows stream hholds.of_concat

/-- Everything that a copier asks of a link of an adapter, and everything that happens around it,
keeps the offset at what was released. -/
theorem keeps_followsRegion (start : Hardware) :
    Keeps source (Happening.apply (δ := δ)) (FollowsRegion start) where
  waited := by
    rintro log ⟨link, host⟩ timeout answer t hf hw
    obtain ⟨h, hm, hc, -⟩ := hf.adapter
    obtain ⟨r, h', e, hl, hcases⟩ := wait_hardware_cases hm hc host timeout
    obtain ⟨rfl, rfl⟩ := Prod.mk.inj (hl.symm.trans hw)
    rcases hcases with ⟨x, rfl, rfl⟩ | ⟨n, rfl, -, rfl⟩
    · exact hf.concat (fun _ ↦ rfl) hm.symm
    · exact hf.concat_waited hm rfl
  released := by
    rintro log ⟨link, host⟩ n outcome t hf hpos hmod hle hr
    have hl := exec_acknowledge link host n
    split at hl
    · obtain ⟨rfl, rfl⟩ := Prod.mk.inj (hl.symm.trans hr)
      exact hf.concat (fun _ ↦ rfl) rfl
    · obtain ⟨h, hm, -, hwindow⟩ := hf.adapter
      have hmin : min n h.window = n := Nat.min_eq_left (Nat.le_trans hle hwindow)
      rw [releaseBytes, exec_onMedium_hardware _ _ _ _ hm] at hl
      rcases h.acknowledge_cases host.driver n with
        ⟨hne, -⟩ | ⟨-, hz, -⟩ | ⟨-, -, ⟨k, e, -, hx⟩ | ⟨x, e, -, hx⟩⟩
      · exact absurd hmod hne
      · exact absurd (hmin.symm.trans hz) (Nat.ne_of_gt hpos)
      · rw [hx, hmin] at hl
        obtain ⟨rfl, rfl⟩ := Prod.mk.inj (hl.symm.trans hr)
        exact hf.concat_released hm hle rfl
      · rw [hx] at hl
        obtain ⟨rfl, rfl⟩ := Prod.mk.inj (hl.symm.trans hr)
        exact hf.concat (fun _ ↦ rfl) hm.symm
  happened what hf := by
    refine hf.concat (fun _ ↦ rfl) ?_
    cases what <;> rfl
  word := by
    rintro log ⟨link, host⟩ timeout data t hf hw
    obtain ⟨h, hm, hc, -⟩ := hf.adapter
    obtain ⟨r, h', e, hl, hcases⟩ := wait_hardware_cases hm hc host timeout
    obtain ⟨rfl, -⟩ := Prod.mk.inj (hl.symm.trans hw)
    rcases hcases with ⟨x, hx, -⟩ | ⟨n, hn, hword, -⟩
    · cases hx
    · cases hn
      rwa [Hardware.length_cyclic]

/-- Some of what was released and what is left of the last window, from the start on, is the start
of every stream that the region held. -/
theorem FollowsRegion.eq_map_of_prefix {start : Hardware} {stream : Nat → UInt8} {taken : Bytes}
    {log : List (Entry (Link × Host δ) (Happening δ))} {s : Link × Host δ}
    (hf : FollowsRegion start log s) (hholds : RegionHolds start stream log)
    (htaken : taken <+: acknowledged log ++ shown log) :
    taken = (List.range taken.length).map stream := by
  obtain ⟨_, -, -, -, -, hfollows⟩ := hf
  have hlen := htaken.length_le
  rw [hfollows stream hholds, List.prefix_iff_eq_take, ← List.map_take, List.take_range] at htaken
  rw [List.length_append] at hlen
  rwa [Nat.min_eq_left hlen] at htaken

/-- A copier of an adapter stays in order and keeps the offset at what was released. -/
theorem followsRegion_run {size : Nat} {ring : Ring} (hring : Ring.create size = .ok ring)
    {link : Link} {h : Hardware} (hm : link.medium = .hardware h)
    (hc : h.regionSize ≠ 0 → h.consumer < h.regionSize) (host : Host δ) (poll : Nat)
    (events : List (Event (Happening δ))) :
    let c := run source Happening.apply poll (start (link, host) ring) events
    c.Sound size ∧ FollowsRegion h c.log c.state := by
  refine sound_run poll (keeps_followsRegion h) (sound_start hring (link, host))
    ⟨h, hm, rfl, ?_, Nat.zero_le _, fun _ _ ↦ rfl⟩ events
  show h.consumer = h.consumer % h.regionSize
  by_cases hz : h.regionSize = 0
  · rw [hz, Nat.mod_zero]
  · exact (Nat.mod_eq_of_lt (hc hz)).symm

/-! ### Runs of a copier -/

/-- A copier between a link and a ring, after any steps of its own, any consuming, and anything
around the link, and whenever it is told to stop. The ring has accepted what was released of the
link, and perhaps the piece behind it whose release is due or failed. These are the first bytes that
were in the pipe or came into it, or the first ones of any stream that the region held. A push
always finds room, the ring has no error while the copier runs, and then the first one that ended
it, or else that it was shut down. -/
theorem run_copies {size : Nat} {ring : Ring} (hring : Ring.create size = .ok ring) {link : Link}
    (hready : link.Ready) (host : Host δ) (poll : Nat) (events : List (Event (Happening δ))) :
    let c := run source Happening.apply poll (start (link, host) ring) events
    c.history.ring.pending = c.history.accepted.drop c.history.consumed ∧
    (∃ due, c.history.accepted = acknowledged c.log ++ due ∧
      (due ≠ [] → c.place = .releasing due.length ∨
        c.place = .ended ∧ ReleaseFailed c.log due.length)) ∧
    (∀ p, link.medium = .pipe p →
      c.history.accepted <+: p.unread host ++ Happening.fed p.rx c.log ∧
      ∃ p', c.state.1.medium = .pipe p' ∧
        acknowledged c.log ++ p'.unread c.state.2 = p.unread host ++ Happening.fed p.rx c.log) ∧
    (∀ h, link.medium = .hardware h →
      (∀ stream, RegionHolds h stream c.log →
        c.history.accepted = (List.range c.history.accepted.length).map stream) ∧
      ∃ h', c.state.1.medium = .hardware h' ∧
        h'.consumer = (h.consumer + (acknowledged c.log).length) % h.regionSize) ∧
    (∀ data, c.place = .holding data → 0 < (c.history.ring.push data).1) ∧
    (c.place ≠ .ended → c.history.ring.error = none) ∧
    (c.place = .ended → c.history.ring.error = some ((fatal? c.log).getD .shutdown)) := by
  intro c
  have hpipe (p : Pipe) (hm : link.medium = .pipe p) :
      c.Sound size ∧ FollowsPipe p (p.unread host) c.log c.state := by
    rw [Ready, hm] at hready
    exact followsPipe_run hring hm hready host poll events
  have hhardware (h : Hardware) (hm : link.medium = .hardware h) :
      c.Sound size ∧ FollowsRegion h c.log c.state := by
    rw [Ready, hm] at hready
    exact followsRegion_run hring hm hready host poll events
  have hsound : c.Sound size := by
    rcases hm : link.medium with h | p | socket
    · exact (hhardware h hm).1
    · exact (hpipe p hm).1
    · rw [Ready, hm] at hready
      exact hready.elim
  obtain ⟨due, haccepted, hdue, hplace⟩ := hsound.accepted_eq
  refine ⟨hsound.history.pending, ⟨due, haccepted, hplace⟩, ?_, ?_,
    fun data hd ↦ hsound.push_pos hd, hsound.error_of_ne_ended, hsound.error_of_ended⟩
  · intro p hm
    have hf := (hpipe p hm).2
    have hprefix := hf.prefix_of_shown hdue
    obtain ⟨p', hm', -, -, hfollows⟩ := hf
    exact ⟨haccepted ▸ hprefix, p', hm', hfollows⟩
  · intro h hm
    have hf := (hhardware h hm).2
    have hprefix : c.history.accepted <+: acknowledged c.log ++ shown c.log := by
      rw [haccepted, List.prefix_append_right_inj]
      exact hdue
    have hstream (stream : Nat → UInt8) (hholds : RegionHolds h stream c.log) :=
      hf.eq_map_of_prefix hholds hprefix
    obtain ⟨h', hm', -, hconsumer, -⟩ := hf
    exact ⟨hstream, h', hm', hconsumer⟩

/-- The first `n` bytes of the region as a wait left them. -/
def regionAfter (n : Nat) :
    Entry (Link × Host δ) (Happening δ) → Option Bytes
  | .waited _ s =>
    some ((List.range n).map fun i ↦ MappedMemory.byte s.2.driver (regionAddress + i))
  | _ => none

/-- A copier that is told to stop after ten bytes of a pipe went through a ring with room for four,
one that ends because its second read fails, and one that takes the bytes around the end of a region
of twelve. -/
theorem run_copies_piecewise :
    (let p : Pipe := ⟨["r"], ["t"], true, []⟩
      let host : Host Board := .bare (.fresh 64 [])
      let c := run source Happening.apply 100
        (start ((⟨.pipe p, false, true⟩ : Link), host) ⟨.empty 8, .empty, none⟩)
        (.outside (.feed ["r"] [1, 2, 3, 4, 5, 6, 7, 8, 9, 10]) :: List.replicate 5 .copier ++
          .consume 4 :: List.replicate 4 .copier ++ [.stop, .copier])
      c.history.accepted = [1, 2, 3, 4, 5, 6, 7, 8] ∧
        c.history.accepted <+: p.unread host ++ Happening.fed ["r"] c.log ∧
        c.history.ring.error = some .shutdown) ∧
    (let p : Pipe := ⟨["r"], ["t"], true, []⟩
      let c := run source Happening.apply 100
        (start ((⟨.pipe p, false, true⟩ : Link), (.bare (.fresh 64 []) : Host Board))
          ⟨.empty 8, .empty, none⟩)
        (.outside (.feed ["r"] [1, 2, 3, 4, 5, 6]) ::
          .outside (.disturb ["r"] [none, some (.read (.system ⟨5⟩))]) ::
          List.replicate 4 .copier ++ .outside (.feed ["r"] [7, 8]) :: .consume 4 ::
          List.replicate 4 .copier)
      c.history.accepted = [1, 2, 3, 4] ∧ acknowledged c.log = [1, 2, 3, 4] ∧
        c.history.ring.error = some (.ofSystem ⟨5⟩)) ∧
    (let h : Hardware := ⟨.optical, 12, 8, 0, []⟩
      let board := { Board.fresh 12 [.ofState 4 0x20 false] with memory := ⟨UInt8.ofNat⟩ }
      let c := run source Happening.apply 100
        (start ((⟨.hardware h, false, true⟩ : Link), (.bare board : Host Board))
          ⟨.empty 12, .empty, none⟩) (List.replicate 4 .copier)
      c.history.accepted = (List.range 8).map fun k ↦ UInt8.ofNat ((8 + k) % 12)) := by
  refine ⟨?_, ?_, ?_⟩
  · intro p host c
    have hring : Ring.create 8 = .ok ⟨.empty 8, .empty, none⟩ := by rfl
    have hready : (⟨.pipe p, false, true⟩ : Link).Ready := List.cons_ne_nil _ _
    obtain ⟨-, -, hpipe, -, -, -, hended⟩ := run_copies hring hready host 100
      (.outside (.feed ["r"] [1, 2, 3, 4, 5, 6, 7, 8, 9, 10]) :: List.replicate 5 .copier ++
        .consume 4 :: List.replicate 4 .copier ++ [.stop, .copier])
    have hplace : c.place = .ended := by decide +kernel
    have hfatal : fatal? c.log = none := by decide +kernel
    have herror : c.history.ring.error = some ((fatal? c.log).getD .shutdown) := hended hplace
    rw [hfatal] at herror
    exact ⟨by decide +kernel, (hpipe p rfl).1, herror⟩
  · intro p c
    have hring : Ring.create 8 = .ok ⟨.empty 8, .empty, none⟩ := by rfl
    have hready : (⟨.pipe p, false, true⟩ : Link).Ready := List.cons_ne_nil _ _
    obtain ⟨-, -, -, -, -, -, hended⟩ := run_copies hring hready (.bare (.fresh 64 []) : Host Board)
      100 (.outside (.feed ["r"] [1, 2, 3, 4, 5, 6]) ::
        .outside (.disturb ["r"] [none, some (.read (.system ⟨5⟩))]) ::
        List.replicate 4 .copier ++ .outside (.feed ["r"] [7, 8]) :: .consume 4 ::
        List.replicate 4 .copier)
    have hplace : c.place = .ended := by decide +kernel
    have hfatal : fatal? c.log = some (.ofSystem ⟨5⟩) := by decide +kernel
    have herror : c.history.ring.error = some ((fatal? c.log).getD .shutdown) := hended hplace
    rw [hfatal] at herror
    exact ⟨by decide +kernel, by decide +kernel, herror⟩
  · intro h board c
    have hring : Ring.create 12 = .ok ⟨.empty 12, .empty, none⟩ := by rfl
    have hready : (⟨.hardware h, false, true⟩ : Link).Ready := fun _ ↦ (by decide : 8 < 12)
    obtain ⟨-, -, -, hhardware, -⟩ := run_copies hring hready (.bare board) 100
      (List.replicate 4 .copier)
    have hregion : ∀ entry ∈ c.log, ∀ region ∈ regionAfter 12 entry,
        region = (List.range 12).map UInt8.ofNat := by
      decide +kernel
    have hholds : RegionHolds h (fun k ↦ UInt8.ofNat ((8 + k) % 12)) c.log := by
      intro pre window s hpre i hi
      have hs := hregion _ (hpre.subset (List.mem_append_right _ (List.mem_singleton_self _))) _ rfl
      have hlt : (8 + ((acknowledged pre).length + i)) % 12 < 12 := Nat.mod_lt _ (by decide)
      have hk := congrArg (·[(8 + ((acknowledged pre).length + i)) % 12]?) hs
      simp only [List.getElem?_map, List.getElem?_range hlt, Option.map_some,
        Option.some.injEq] at hk
      exact hk
    have hlen : c.history.accepted.length = 8 := by decide +kernel
    have haccepted := (hhardware h rfl).1 _ hholds
    change c.history.accepted = (List.range c.history.accepted.length).map _ at haccepted
    rwa [hlen] at haccepted

/-- A read that fails because it timed out is passed over as a wait that timed out is, and it is not
the error that the ring is left with. -/
theorem run_passes_over_timed_out_read :
    let board := { Board.fresh 64 [] with fault := some ⟨110⟩ }
    let c := run source Happening.apply 100
      (start ((⟨.hardware ⟨.optical, 64, 0, 0, []⟩, false, true⟩ : Link),
        (.bare board : Host Board)) ⟨.empty 8, .empty, none⟩)
      (List.replicate 5 .copier)
    c.place = .ended ∧ c.log.findSome? Entry.error? = some .timeout ∧
      c.history.ring.error ≠ some ((c.log.findSome? Entry.error?).getD .shutdown) := by
  decide +kernel

end Link

end DetectorLink
