import DetectorLink.Proofs.Link.Hardware

/-!
# Reading the receive region

A reader of an adapter waits for windows and releases bytes of them, and may reset the adapter. The
adapter and its driver never say anything to each other about the consumer offset but how far it
moves, so both keep it right only if everything that is released is told: after a reset the offset
is the sum of what was told, going round at the end of the region. What is released after a window
was shown stays within the window.
-/

namespace DetectorLink

/-- An adapter with its driver and what was shown to its reader. -/
structure Reading (δ : Type) where
  /-- The adapter. -/
  adapter : Hardware
  /-- The driver and the commands that it took. -/
  driver : Recorded δ
  /-- Number of commands up to the end of the last reset. -/
  resetMark : Nat
  /-- The last window since then; none is the empty one. -/
  shown : Bytes
  /-- Number of commands up to the last window. -/
  windowMark : Nat

namespace Reading

/-- What a reader does. -/
inductive Action where
  /-- Reset the adapter. -/
  | reset
  /-- Wait for a window. -/
  | wait (timeout : Option Nat)
  /-- Release bytes. -/
  | acknowledge (n : Nat)
  deriving DecidableEq, Repr

variable {δ : Type}

/-- A reader of an adapter that was just opened or reset. -/
def start (adapter : Hardware) (driver : Recorded δ) : Reading δ :=
  ⟨adapter, driver, driver.written.length, [], driver.written.length⟩

variable (s : Reading δ)

/-- Bytes that were released since the last reset. -/
def releasedSinceReset : Nat := Recorded.released (s.driver.written.drop s.resetMark)

/-- Bytes that were released since the last window. -/
def releasedOfWindow : Nat := Recorded.released (s.driver.written.drop s.windowMark)

/-- What is kept of an adapter with a region of `size` bytes: its offset is what was released, and
the rest of the last window is what may still be released of it. -/
structure Sound (size : Nat) (s : Reading δ) : Prop where
  regionSize : s.adapter.regionSize = size
  window_le : s.adapter.window ≤ size
  resetMark_le : s.resetMark ≤ s.driver.written.length
  windowMark_le : s.windowMark ≤ s.driver.written.length
  consumer : s.adapter.consumer = s.releasedSinceReset % size
  window : s.releasedOfWindow + s.adapter.window = s.shown.length

variable {s} {size : Nat}

/-- An adapter that starts at the beginning of its region with no window. -/
theorem sound_start {h : Hardware} (hsize : h.regionSize = size) (hc : h.consumer = 0)
    (hw : h.window = 0) (driver : Recorded δ) : (start h driver).Sound size := by
  have hnone : Recorded.released (driver.written.drop driver.written.length) = 0 := by
    rw [List.drop_length]
    rfl
  refine ⟨hsize, hw ▸ Nat.zero_le _, Nat.le_refl _, Nat.le_refl _, ?_, ?_⟩
  · show h.consumer = Recorded.released (driver.written.drop driver.written.length) % size
    rw [hnone, hc, Nat.zero_mod]
  · show Recorded.released (driver.written.drop driver.written.length) + h.window = 0
    rw [hnone, hw]

theorem Sound.consumer_lt (hs : s.Sound size) (hn : 0 < size) :
    s.adapter.consumer < s.adapter.regionSize := by
  rw [hs.regionSize, hs.consumer]
  exact Nat.mod_lt _ hn

/-- The driver took commands that released `n` bytes of the window, and the adapter goes on by as
many. -/
theorem Sound.advance (hs : s.Sound size) {driver : Recorded δ} {more : List (Nat × Bytes)}
    (hw : driver.written = s.driver.written ++ more)
    (hle : Recorded.released more ≤ s.adapter.window) :
    Sound size { s with
      adapter := { s.adapter with
        consumer := (s.adapter.consumer + Recorded.released more) % s.adapter.regionSize
        window := s.adapter.window - Recorded.released more }
      driver } := by
  have hlen : s.driver.written.length ≤ driver.written.length := by
    rw [hw, List.length_append]
    exact Nat.le_add_right _ _
  refine ⟨hs.regionSize, Nat.le_trans (Nat.sub_le _ _) hs.window_le,
    Nat.le_trans hs.resetMark_le hlen, Nat.le_trans hs.windowMark_le hlen, ?_, ?_⟩
  · show _ = Recorded.released (driver.written.drop s.resetMark) % size
    rw [hw, List.drop_append_of_le_length hs.resetMark_le, Recorded.released_append,
      hs.regionSize, hs.consumer, Nat.mod_add_mod]
    rfl
  · show Recorded.released (driver.written.drop s.windowMark) +
      (s.adapter.window - Recorded.released more) = _
    rw [hw, List.drop_append_of_le_length hs.windowMark_le, Recorded.released_append, Nat.add_assoc,
      Nat.add_sub_cancel' hle]
    exact hs.window

/-- The driver took commands that release nothing, or none. -/
theorem Sound.of_released_eq_zero (hs : s.Sound size) (hn : 0 < size) {driver : Recorded δ}
    (more : List (Nat × Bytes)) (hw : driver.written = s.driver.written ++ more)
    (hm : Recorded.released more = 0) : Sound size { s with driver } := by
  have h := hs.advance hw (hm ▸ Nat.zero_le _)
  rwa [hm, Nat.add_zero, Nat.mod_eq_of_lt (hs.consumer_lt hn), Nat.sub_zero] at h

variable [Driver δ]

/-- Go on with an action. -/
def step (s : Reading δ) : Action → Reading δ
  | .reset =>
    match Hardware.reset.exec (s.adapter, s.driver) with
    | (.ok (), (adapter, driver)) => start adapter driver
    | (.error _, (adapter, driver)) => { s with adapter, driver }
  | .wait timeout =>
    match (Hardware.wait timeout).exec (s.adapter, s.driver) with
    | (.ok shown, (adapter, driver)) =>
      { s with adapter, driver, shown, windowMark := driver.written.length }
    | (.error _, (adapter, driver)) => { s with adapter, driver }
  | .acknowledge n =>
    let (_, (adapter, driver)) := (Hardware.acknowledge n).exec (s.adapter, s.driver)
    { s with adapter, driver }

/-- Go on with actions, one after the other. -/
def run (s : Reading δ) (actions : List Action) : Reading δ := actions.foldl step s

theorem Sound.of_reads (hs : s.Sound size) (hn : 0 < size) {driver : Recorded δ}
    (hr : Driver.Reads s.driver driver) : Sound size { s with driver } :=
  hs.of_released_eq_zero hn [] ((Recorded.written_of_reads hr).trans (List.append_nil _).symm) rfl

theorem sound_reset (hn : 0 < size) (hs : s.Sound size) : (s.step .reset).Sound size := by
  rcases s.adapter.reset_cases s.driver with ⟨x, e, hd, hx⟩ | ⟨n, e, f, hd, hr, hend⟩
  · simp only [step, hx]
    exact hs.of_released_eq_zero hn []
      ((Recorded.written_of_writeAt_error hd).trans (List.append_nil _).symm) rfl
  · have hw := (Recorded.written_of_reads hr).trans (Recorded.written_of_writeAt_ok hd)
    rcases hend with ⟨x, hx⟩ | hx
    · simp only [step, hx]
      exact hs.of_released_eq_zero hn _ hw rfl
    · simp only [step, hx]
      refine sound_start ?_ rfl rfl f
      exact hs.regionSize

theorem sound_acknowledge (hn : 0 < size) (hlt : size < UInt32.size) (hs : s.Sound size) (n : Nat) :
    (s.step (.acknowledge n)).Sound size := by
  rcases s.adapter.acknowledge_cases s.driver n with
    ⟨_, hx⟩ | ⟨_, _, hx⟩ | ⟨_, _, ⟨k, e, hd, hx⟩ | ⟨x, e, hd, hx⟩⟩
  · simp only [step, hx]
    exact hs
  · simp only [step, hx]
    exact hs
  · -- the word that is told is the number of bytes, as no window is longer than the region
    have hle : min n s.adapter.window ≤ s.adapter.window := Nat.min_le_right _ _
    have hval : (UInt32.ofNat (min n s.adapter.window)).toNat = min n s.adapter.window :=
      UInt32.toNat_ofNat_of_lt' (Nat.lt_of_le_of_lt (Nat.le_trans hle hs.window_le) hlt)
    have hm : Recorded.released
        [(DriverCommand.advance, Word.toBytes (UInt32.ofNat (min n s.adapter.window)))] =
          min n s.adapter.window :=
      (Recorded.released_concat_advance [] _).trans ((Nat.zero_add _).trans hval)
    have h := hs.advance (Recorded.written_of_writeAt_ok hd) (Nat.le_trans (Nat.le_of_eq hm) hle)
    rw [hm] at h
    simp only [step, hx]
    exact h
  · simp only [step, hx]
    exact hs.of_released_eq_zero hn []
      ((Recorded.written_of_writeAt_error hd).trans (List.append_nil _).symm) rfl

variable [MappedMemory δ]

theorem sound_wait (hn : 0 < size) (hs : s.Sound size) (timeout : Option Nat) :
    (s.step (.wait timeout)).Sound size := by
  have hc := hs.consumer_lt hn
  obtain ⟨e, hr, ⟨x, hx⟩ | ⟨producer, _, hx⟩⟩ := Hardware.wait_cases s.driver hc timeout
  · simp only [step, hx]
    exact hs.of_reads hn hr
  · have he := hs.of_reads hn hr
    have hle := Nat.le_trans (Hardware.windowLength_le hc)
      (Nat.le_of_lt (Hardware.available_lt hc producer))
    simp only [step, hx]
    refine ⟨he.regionSize, hs.regionSize ▸ hle, he.resetMark_le, Nat.le_refl _, he.consumer, ?_⟩
    show Recorded.released (e.written.drop e.written.length) + _ = _
    rw [List.drop_length, Hardware.length_cyclic]
    exact Nat.zero_add _

/-- Every action keeps the offsets right. -/
theorem sound_step (hn : 0 < size) (hlt : size < UInt32.size) (hs : s.Sound size)
    (action : Action) : (s.step action).Sound size := by
  cases action with
  | reset => exact sound_reset hn hs
  | wait timeout => exact sound_wait hn hs timeout
  | acknowledge n => exact sound_acknowledge hn hlt hs n

/-- Any actions keep the offsets right. -/
theorem sound_run (hn : 0 < size) (hlt : size < UInt32.size) (hs : s.Sound size)
    (actions : List Action) : (s.run actions).Sound size := by
  induction actions generalizing s with
  | nil => exact hs
  | cons action rest ih => exact ih (sound_step hn hlt hs action)

/-- A wait that the driver answers with at least a word shows the next whole words of the region, up
to the end of a packet that starts there. In a run from opening an adapter, its offset is always
what was released since the last reset, and what was released since the last window is never more
than that window. -/
theorem shows_next_and_keeps_offset :
    (∀ (h : Hardware) (timeout : Option Nat) (rounds : Nat) (d e f g : δ) (producer : UInt32),
      h.consumer < h.regionSize → h.IdleRounds timeout rounds d e → rounds ≤ Driver.patience d →
      Driver.await timeout e = (.ready, f) → Driver.Tells f g producer →
      let waiting :=
        (h.regionSize + producer.toNat % h.regionSize - h.consumer) % h.regionSize
      4 ≤ waiting →
      ∃ length, (Hardware.wait timeout).exec (h, d) =
          (.ok (h.cyclic g length), ({ h with window := length }, g)) ∧
        length % 4 = 0 ∧ 0 < length ∧ length ≤ waiting ∧
        ∀ n, Packet.validLength? (h.cyclic g waiting) = some n → n ≤ length) ∧
    ∀ (interface : Interface) (debug : Bool) (h : Hardware) (r₀ r : Recorded δ)
      (actions : List Action),
      Hardware.openDriver interface debug r₀ = (.ok h, r) → 0 < h.regionSize →
      let s := (start h r).run actions
      s.adapter.consumer = s.releasedSinceReset % h.regionSize ∧
        s.releasedOfWindow ≤ s.shown.length := by
  constructor
  · intro h timeout rounds d e f g producer hc hidle hrounds hready ht waiting hw
    have hpos := Hardware.windowLength_pos hc (show alignment ≤ h.available producer from hw)
    exact ⟨h.windowLength producer, Hardware.exec_wait_of_tells hc hidle hrounds hready ht hpos,
      Hardware.windowLength_mod, hpos, Hardware.windowLength_le hc,
      fun n hn ↦ Hardware.validLength?_le_windowLength g hc hn⟩
  · intro interface debug h r₀ r actions ho hn
    obtain ⟨⟨size, rfl⟩, -⟩ := Hardware.openDriver_ok ho
    have hs := sound_run hn size.toNat_lt (sound_start rfl rfl rfl r) actions
    exact ⟨hs.consumer, hs.window ▸ Nat.le_add_right _ _⟩

/-- Two packets in a region of 36 bytes. The second one goes round the end, and not all of it is
released. -/
theorem shows_next_and_keeps_offset_across_end :
    (∃ length, (Hardware.wait none).exec
        ((⟨.optical, 36, 24, 0, []⟩ : Hardware), Board.fresh 36 [.ofState 12 0x20 false]) =
          (.ok (Hardware.cyclic ⟨.optical, 36, 24, 0, []⟩ (Board.fresh 36 []) length),
            ((⟨.optical, 36, 24, length, []⟩ : Hardware), Board.fresh 36 [])) ∧
      length % 4 = 0 ∧ 24 ≤ length) ∧
    let s := (start ⟨.optical, 36, 0, 0, []⟩
        (Hardware.openDriver .optical false
          (Recorded.start (Board.fresh 36 [.ofState 24 0x20 false, .ofState 12 0x20 false]))).2).run
      [.wait none, .acknowledge 24, .wait none, .acknowledge 8]
    s.releasedSinceReset = 32 ∧ s.adapter.consumer = s.releasedSinceReset % 36 ∧
      s.releasedOfWindow ≤ s.shown.length := by
  constructor
  · obtain ⟨length, hw, hm, -, -, hp⟩ := shows_next_and_keeps_offset.1
      (⟨.optical, 36, 24, 0, []⟩ : Hardware) none 0
      (Board.fresh 36 [.ofState 12 0x20 false]) _ _ (Board.fresh 36 []) 12
      (by decide) (.zero _) (Nat.zero_le _) rfl ⟨_, 0x20, rfl, rfl, rfl⟩ (by decide)
    exact ⟨length, hw, hm, hp 24 (by decide +kernel)⟩
  · have ho : Hardware.openDriver .optical false
        (Recorded.start (Board.fresh 36 [.ofState 24 0x20 false, .ofState 12 0x20 false])) =
          (.ok ⟨.optical, 36, 0, 0, []⟩, _) := rfl
    exact ⟨by decide +kernel,
      shows_next_and_keeps_offset.2 .optical false _ _ _ _ ho (by decide)⟩

end Reading

end DetectorLink
