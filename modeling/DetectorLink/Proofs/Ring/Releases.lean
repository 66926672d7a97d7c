import DetectorLink.Proofs.Link.Simulated
import DetectorLink.Proofs.Ring.Queue
import DetectorLink.Ring.Direct

/-!
# What a consume releases

A reader waits for windows of a ring and reports how much of them it has used, perhaps more than it
was shown. A ledger keeps the last window beside what was reported and released since. A direct ring
remembers how long its window is and releases nothing behind it. A ring with memory of its own
remembers no window: it releases what is waiting from the start, as much as is reported, and so goes
beyond the window if more came in behind it.
-/

namespace DetectorLink

/-- A wait may add to the buffer of a pipe, and shows all of it. -/
theorem Pipe.buffer_wait {δ : Type} (p : Pipe) (host : Host δ) (timeout : Option Nat) :
    ∃ answer p' host', (Pipe.wait timeout).exec (p, host) = (answer, (p', host')) ∧
      p.buffer <+: p'.buffer ∧ ∀ data, answer = .ok data → data = p'.buffer := by
  by_cases he : p.enabled = true
  · have hc := (p.intake host).collects_wait Pipe.capacity (timeout.map (host.clock + ·))
    exact ⟨_, _, _, ite_cond_eq_true _ _ (eq_true he), hc.1.buffer, fun data h ↦ (hc.2 data h).1⟩
  · exact ⟨_, p, host, ite_cond_eq_false _ _ (eq_false he), List.prefix_rfl, nofun⟩

/-- What a reader of a source was shown last, and what it released since then. -/
structure Ledger (σ : Type) where
  /-- The source. -/
  state : σ
  /-- The last window. -/
  window : Bytes
  /-- What was released since the last window. -/
  released : Bytes
  /-- Number of bytes reported since the last window, in whole units. -/
  reported : Nat

namespace Ledger

/-- What happens to a source. -/
inductive Event (ω : Type) where
  /-- The reader waits for a window. -/
  | wait (timeout : Option Nat)
  /-- The reader reports bytes as used. -/
  | consume (n : Nat)
  /-- Something else happens. -/
  | outside (what : ω)
  deriving DecidableEq, Repr

/-- True where the reader reports bytes as used. -/
def Event.isConsume {ω : Type} : Event ω → Bool
  | consume _ => true
  | _ => false

/-- What a ledger is kept of. -/
structure Setting (σ ω : Type) where
  /-- The source. -/
  source : Source σ
  /-- The bytes that wait in it. -/
  waiting : σ → Bytes
  /-- What becomes of it when something else happens. -/
  outside : ω → σ → σ

section Steps

variable {σ ω : Type} (setting : Setting σ ω)

/-- A ledger of a source that has shown nothing. -/
def start (s : σ) : Ledger σ := ⟨s, [], [], 0⟩

/-- Go on with an event. What a consume released is by how much there is less waiting after it. -/
def step (l : Ledger σ) : Event ω → Ledger σ
  | .wait timeout =>
    match (setting.source.wait timeout).exec l.state with
    | (.ok window, state) => ⟨state, window, [], 0⟩
    | (.error _, state) => { l with state }
  | .consume n =>
    let state := ((setting.source.release n).exec l.state).2
    let less := (setting.waiting l.state).length - (setting.waiting state).length
    { l with
      state
      released := l.released ++ (setting.waiting l.state).take less
      reported := l.reported + alignDown n }
  | .outside what => { l with state := setting.outside what l.state }

/-- Go on with events, one after the other. -/
def run (l : Ledger σ) (events : List (Event ω)) : Ledger σ := events.foldl (step setting) l

variable {setting} {l : Ledger σ} {s : σ}

/-- What every event keeps, every run keeps. -/
theorem run_induction {P : Ledger σ → Prop} (hstep : ∀ l event, P l → P (l.step setting event))
    (h : P l) (events : List (Event ω)) : P (l.run setting events) := by
  induction events generalizing l with
  | nil => exact h
  | cons event rest ih => exact ih (hstep l event h)

theorem step_wait_ok {timeout : Option Nat} {window : Bytes}
    (h : (setting.source.wait timeout).exec l.state = (.ok window, s)) :
    l.step setting (.wait timeout) = ⟨s, window, [], 0⟩ := by
  rw [step, h]

theorem step_wait_error {timeout : Option Nat} {e : LinkError}
    (h : (setting.source.wait timeout).exec l.state = (.error e, s)) :
    l.step setting (.wait timeout) = { l with state := s } := by
  rw [step, h]

theorem state_step_wait (timeout : Option Nat) :
    (l.step setting (.wait timeout)).state = ((setting.source.wait timeout).exec l.state).2 := by
  rcases h : (setting.source.wait timeout).exec l.state with ⟨e | window, s⟩
  · rw [step_wait_error h]
  · rw [step_wait_ok h]

variable (setting) in
/-- A consume that takes bytes from the front of those waiting has released them. -/
theorem step_consume {n k : Nat} (h : ((setting.source.release n).exec l.state).2 = s)
    (hs : setting.waiting s = (setting.waiting l.state).drop k) :
    l.step setting (.consume n) =
      ⟨s, l.window, l.released ++ (setting.waiting l.state).take k, l.reported + alignDown n⟩ := by
  have htake : (setting.waiting l.state).take
      ((setting.waiting l.state).length - (setting.waiting s).length) =
        (setting.waiting l.state).take k := by
    rw [hs, List.length_drop, List.take_eq_take_iff]
    omega
  rw [step, h, htake]

end Steps

/-! ### Rings without memory of their own -/

section Direct

variable {δ : Type} [Driver δ]

/-- A direct ring over a link. Anything may happen on the host. -/
def direct : Setting (DirectRing × (Link × Host δ)) (Host δ → Host δ) where
  source := DirectRing.source Link.source
  waiting s := s.2.1.buffered
  outside f s := (s.1, (s.2.1, f s.2.2))

/-- A link over pipes is in charge. Of the last window the reported bytes were released, as far as
it goes, and the rest of it is what is buffered next. -/
structure Within (l : Ledger (DirectRing × (Link × Host δ))) : Prop where
  state : ∃ d p on host, l.state = (d, (⟨.pipe p, false, on⟩, host))
  released : l.released = l.window.take l.reported
  left : l.state.1.window = l.window.length - l.reported
  next : l.window.drop l.reported <+: l.state.2.1.buffered

/-- A wait on a direct ring over pipes may add to what is buffered, and shows the start of it. -/
theorem exec_wait_direct (d : DirectRing) (p : Pipe) (on : Bool) (host : Host δ)
    (timeout : Option Nat) :
    ∃ answer d' p' host', (direct.source.wait timeout).exec (d, (⟨.pipe p, false, on⟩, host)) =
        (answer, (d', (⟨.pipe p', false, on⟩, host'))) ∧ p.buffer <+: p'.buffer ∧
      match answer with
      | .ok window => window <+: p'.buffer ∧ d'.window = window.length
      | .error _ => d'.window = d.window := by
  cases he : d.error with
  | some e =>
    refine ⟨.error e, d, p, host, ?_, List.prefix_rfl, rfl⟩
    simp only [direct, DirectRing.source, DirectRing.wait, LinkM.exec_ofFun, he]
  | none =>
    obtain ⟨answer, p', host', hexec, hbuffer, hshown⟩ := p.buffer_wait host timeout
    have hlink : (Link.wait timeout).exec ((⟨.pipe p, false, on⟩ : Link), host) =
        (answer, ((⟨.pipe p', false, on⟩ : Link), host')) :=
      (Link.exec_onMedium_pipe _ _ _ _ rfl).trans (by rw [hexec])
    refine ⟨(d.present answer).1, (d.present answer).2, p', host', ?_, hbuffer, ?_⟩
    · simp only [direct, Link.source, DirectRing.source, DirectRing.wait, LinkM.exec_ofFun, he,
        hlink]
    · cases answer with
      | ok data =>
        obtain rfl := hshown data rfl
        exact ⟨List.take_prefix _ _, (List.length_take_of_le (alignDown_le _)).symm⟩
      | error e => cases e <;> rfl

/-- A consume on a direct ring over pipes takes from the front of what is buffered, at most what is
left of the window. -/
theorem exec_release_direct (d : DirectRing) (p : Pipe) (on : Bool) (host : Host δ) (n : Nat) :
    let k := min (alignDown n) d.window
    (direct.source.release n).exec (d, (⟨.pipe p, false, on⟩, host)) =
      (.ok (), ({ d with window := d.window - k },
        (⟨.pipe { p with buffer := p.buffer.drop k }, false, on⟩, host))) := rfl

variable {l : Ledger (DirectRing × (Link × Host δ))}

omit [Driver δ] in
theorem within_start (capacity : Nat) (p : Pipe) (on : Bool) (host : Host δ) :
    (start (DirectRing.ofSize capacity, ((⟨.pipe p, false, on⟩ : Link), host))).Within :=
  ⟨⟨_, p, on, host, rfl⟩, rfl, rfl, List.nil_prefix⟩

theorem Within.step_wait (h : l.Within) (timeout : Option Nat) :
    (l.step direct (.wait timeout)).Within ∧
      l.state.2.1.buffered <+: (l.step direct (.wait timeout)).state.2.1.buffered := by
  obtain ⟨d, p, on, host, hs⟩ := h.state
  obtain ⟨answer, d', p', host', hexec, hbuffer, hshown⟩ := exec_wait_direct d p on host timeout
  rw [← hs] at hexec
  have hbuffer : l.state.2.1.buffered <+: p'.buffer := by rwa [hs]
  cases answer with
  | ok window =>
    obtain ⟨hwindow, hlength⟩ := hshown
    rw [Ledger.step_wait_ok hexec]
    exact ⟨⟨⟨d', p', on, host', rfl⟩, rfl, hlength, hwindow⟩, hbuffer⟩
  | error e =>
    have hleft := h.left
    rw [hs] at hleft
    rw [Ledger.step_wait_error hexec]
    exact ⟨⟨⟨d', p', on, host', rfl⟩, h.released, hshown.trans hleft, h.next.trans hbuffer⟩,
      hbuffer⟩

/-- Of the front of some bytes and of all of them the same are taken, cut to the front. -/
private theorem take_min_length {front all : Bytes} (h : front <+: all) (n : Nat) :
    all.take (min n front.length) = front.take n := by
  obtain ⟨rest, rfl⟩ := h
  rw [List.take_append_of_le_length (Nat.min_le_right _ _), ← List.take_eq_take_min]

private theorem drop_min_length {front all : Bytes} (h : front <+: all) (n : Nat) :
    front.drop n <+: all.drop (min n front.length) := by
  obtain ⟨rest, rfl⟩ := h
  rw [List.drop_append_of_le_length (Nat.min_le_right _ _), ← List.drop_eq_drop_min]
  exact List.prefix_append _ _

/-- A consume goes on with the window, and not behind it. -/
theorem Within.step_consume (h : l.Within) (n : Nat) :
    (l.step direct (.consume n)).Within ∧
      (l.step direct (.consume n)).released ++ (l.step direct (.consume n)).state.2.1.buffered =
        l.released ++ l.state.2.1.buffered := by
  obtain ⟨d, p, on, host, hs⟩ := h.state
  have hleft : d.window = (l.window.drop l.reported).length := by
    have := h.left
    rwa [hs, ← List.length_drop] at this
  have hnext : l.window.drop l.reported <+: p.buffer := by
    have := h.next
    rwa [hs] at this
  have hbuffer : direct.waiting l.state = p.buffer := by rw [hs]; rfl
  have hexec := exec_release_direct d p on host n
  rw [← hs, hleft] at hexec
  rw [Ledger.step_consume direct (congrArg Prod.snd hexec) (by rw [hbuffer]; rfl), hbuffer]
  refine ⟨⟨⟨_, _, on, host, rfl⟩, ?_, ?_, ?_⟩, ?_⟩
  · show l.released ++ _ = l.window.take (l.reported + alignDown n)
    rw [take_min_length hnext, h.released]
    exact List.take_add.symm
  · show _ - _ = l.window.length - (l.reported + alignDown n)
    rw [List.length_drop]
    omega
  · show l.window.drop (l.reported + alignDown n) <+: p.buffer.drop _
    rw [← List.drop_drop]
    exact drop_min_length hnext (alignDown n)
  · show l.released ++ _ ++ p.buffer.drop _ = l.released ++ direct.waiting l.state
    rw [hbuffer, List.append_assoc, List.take_append_drop]

theorem within_step (h : l.Within) (event : Event (Host δ → Host δ)) :
    (l.step direct event).Within := by
  cases event with
  | wait timeout => exact (h.step_wait timeout).1
  | consume n => exact (h.step_consume n).1
  | outside f =>
    obtain ⟨d, p, on, host, hs⟩ := h.state
    exact ⟨⟨d, p, on, f host, by rw [step, hs]; rfl⟩, h.released, h.left, h.next⟩

/-- Only a consume takes bytes away. -/
theorem Within.prefix_step (h : l.Within) {event : Event (Host δ → Host δ)}
    (he : event.isConsume = false) :
    l.state.2.1.buffered <+: (l.step direct event).state.2.1.buffered := by
  cases event with
  | wait timeout => exact (h.step_wait timeout).2
  | consume n => contradiction
  | outside f => exact List.prefix_rfl

end Direct

/-! ### Rings with memory of their own -/

section Owned

/-- What the producer of a ring does. -/
inductive Production where
  /-- It pushes bytes. -/
  | push (data : Bytes)
  /-- It records an error. -/
  | fail (e : LinkError)
  deriving DecidableEq, Repr

/-- A ring with memory of its own, and its producer. -/
def owned : Setting Ring Production where
  source := Ring.source
  waiting := Ring.pending
  outside
    | .push data, r => (r.push data).2
    | .fail e, r => r.setError e

/-- What was released and what is waiting begin with the last window, and no more was released than
was reported; just that, if it was no more than the window. -/
structure Covers (l : Ledger Ring) : Prop where
  ring : l.state.WellFormed
  window : l.window <+: l.released ++ l.state.pending
  released_le : l.released.length ≤ l.reported
  released_eq : l.reported ≤ l.window.length → l.released.length = l.reported

variable {l : Ledger Ring}

theorem covers_start {size : Nat} {r : Ring} (hr : Ring.create size = .ok r) :
    (start r).Covers :=
  ⟨Ring.wellFormed_create hr, List.nil_prefix, Nat.le_refl _, fun _ ↦ rfl⟩

/-- A consume takes the reported units from the front of what is waiting, as far as that goes. -/
theorem pending_consume {r : Ring} (h : r.WellFormed) (n : Nat) :
    (r.consume n).pending = r.pending.drop (alignDown n) := by
  rw [Ring.pending_consume h, ← Ring.length_pending h, ← List.drop_eq_drop_min]

theorem Covers.step_consume (h : l.Covers) (n : Nat) :
    l.step owned (.consume n) =
      ⟨l.state.consume n, l.window, l.released ++ l.state.pending.take (alignDown n),
        l.reported + alignDown n⟩ :=
  Ledger.step_consume owned rfl (pending_consume h.ring n)

theorem Covers.wait (h : l.Covers) (timeout : Option Nat) :
    (l.step owned (.wait timeout)).Covers := by
  have hwait : (owned.source.wait timeout).exec l.state = (l.state.wait, l.state) := rfl
  cases hw : l.state.wait with
  | error e =>
    rw [step_wait_error (hwait.trans (congrArg (·, _) hw))]
    exact h
  | ok window =>
    rw [step_wait_ok (hwait.trans (congrArg (·, _) hw))]
    obtain ⟨_, _, rfl⟩ := (Ring.wait_eq_ok_iff h.ring).mp hw
    exact ⟨h.ring, Ring.isPrefix_window h.ring, Nat.le_refl 0, fun _ ↦ rfl⟩

theorem Covers.consume (h : l.Covers) (n : Nat) : (l.step owned (.consume n)).Covers := by
  have hlength := h.window.length_le
  have hle := h.released_le
  have heq := h.released_eq
  rw [List.length_append] at hlength
  rw [h.step_consume n]
  refine ⟨Ring.wellFormed_consume h.ring n, ?_, ?_, ?_⟩
  · show l.window <+: _ ++ (l.state.consume n).pending
    rw [pending_consume h.ring, List.append_assoc, List.take_append_drop]
    exact h.window
  · show (l.released ++ _).length ≤ l.reported + alignDown n
    rw [List.length_append, List.length_take]
    omega
  -- a report that fits the window is never cut: what is left of the window is still waiting
  · show l.reported + alignDown n ≤ l.window.length →
      (l.released ++ _).length = l.reported + alignDown n
    rw [List.length_append, List.length_take]
    omega

theorem Covers.outside (h : l.Covers) (what : Production) :
    (l.step owned (.outside what)).Covers := by
  cases what with
  | push data =>
    refine ⟨Ring.wellFormed_push h.ring data, ?_, h.released_le, h.released_eq⟩
    show l.window <+: l.released ++ (l.state.push data).2.pending
    rw [Ring.pending_push h.ring, ← List.append_assoc]
    exact h.window.trans (List.prefix_append _ _)
  | fail e => exact ⟨Ring.wellFormed_setError h.ring e, h.window, h.released_le, h.released_eq⟩

theorem covers_step (h : l.Covers) (event : Event Production) : (l.step owned event).Covers := by
  cases event with
  | wait timeout => exact h.wait timeout
  | consume n => exact h.consume n
  | outside what => exact h.outside what

/-- A reader that reports no more than its window has released just what it reported. -/
theorem Covers.released_eq_take (h : l.Covers) (hle : l.reported ≤ l.window.length) :
    l.released = l.window.take l.reported := by
  have hlength := h.released_eq hle
  have hprefix : l.released <+: l.window :=
    List.prefix_of_prefix_length_le (List.prefix_append _ _) h.window (hlength ▸ hle)
  rw [← hlength]
  exact List.prefix_iff_eq_take.mp hprefix

/-- What is released stays in the window just if no more is reported than is left of it, or nothing
waits behind it. -/
theorem Covers.released_prefix_iff (h : l.Covers) (n : Nat) :
    (l.step owned (.consume n)).released <+: l.window ↔
      l.released.length + alignDown n ≤ l.window.length ∨
        l.window = l.released ++ l.state.pending := by
  have hprefix : l.released ++ l.state.pending.take (alignDown n) <+:
      l.released ++ l.state.pending :=
    (List.prefix_append_right_inj _).mpr (List.take_prefix _ _)
  rw [h.step_consume n]
  constructor
  · intro hr
    have hlength := hr.length_le
    rw [List.length_append, List.length_take] at hlength
    by_cases hn : alignDown n ≤ l.state.pending.length
    · exact .inl (by rwa [Nat.min_eq_left hn] at hlength)
    · rw [Nat.min_eq_right (Nat.le_of_not_le hn)] at hlength
      exact .inr (h.window.eq_of_length_le (by rwa [List.length_append]))
  · rintro (hn | hall)
    · refine List.prefix_of_prefix_length_le hprefix h.window ?_
      rw [List.length_append, List.length_take]
      omega
    · exact hall ▸ hprefix

/-- Only a consume takes bytes away. -/
theorem Covers.prefix_step (h : l.Covers) {event : Event Production}
    (he : event.isConsume = false) :
    l.state.pending <+: (l.step owned event).state.pending := by
  cases event with
  | wait timeout =>
    rw [state_step_wait]
    exact List.prefix_rfl
  | consume n => contradiction
  | outside what =>
    cases what with
    | push data =>
      show _ <+: (l.state.push data).2.pending
      rw [Ring.pending_push h.ring]
      exact List.prefix_append _ _
    | fail e => exact List.prefix_rfl

end Owned

/-- In any use of a direct ring over pipes, what was released since the last window is just what was
reported of it, as far as the window goes. In any use of a ring with memory of its own, a consume
releases what is waiting from the start, as far as that goes: the last window comes first, no more
is released than was reported, and what is released stays in the window just if no more is reported
than is left of it or nothing waits behind it. In both, only a consume takes bytes away. -/
theorem run_releases {δ : Type} [Driver δ] (capacity : Nat) (p : Pipe) (on : Bool) (host : Host δ)
    (events : List (Event (Host δ → Host δ))) {size : Nat} {r : Ring}
    (hr : Ring.create size = .ok r) (events' : List (Event Production)) :
    let l := (start (DirectRing.ofSize capacity, ((⟨.pipe p, false, on⟩ : Link), host))).run
      direct events
    let l' := (start r).run owned events'
    (l.released = l.window.take l.reported ∧
      l.window.drop l.reported <+: l.state.2.1.buffered ∧
      (∀ n, (l.step direct (.consume n)).released ++
        (l.step direct (.consume n)).state.2.1.buffered = l.released ++ l.state.2.1.buffered) ∧
      ∀ event, event.isConsume = false →
        l.state.2.1.buffered <+: (l.step direct event).state.2.1.buffered) ∧
    l'.window <+: l'.released ++ l'.state.pending ∧
    (l'.released.length ≤ l'.reported ∧
      (l'.reported ≤ l'.window.length → l'.released = l'.window.take l'.reported)) ∧
    (∀ n,
      (l'.step owned (.consume n)).released =
        l'.released ++ l'.state.pending.take (alignDown n) ∧
      (l'.step owned (.consume n)).state.pending = l'.state.pending.drop (alignDown n) ∧
      ((l'.step owned (.consume n)).released <+: l'.window ↔
        l'.released.length + alignDown n ≤ l'.window.length ∨
          l'.window = l'.released ++ l'.state.pending)) ∧
    ∀ event, event.isConsume = false →
      l'.state.pending <+: (l'.step owned event).state.pending := by
  intro l l'
  have h : l.Within := run_induction (P := Within) (fun _ event h ↦ within_step h event)
    (within_start capacity p on host) events
  have h' : l'.Covers := run_induction (P := Covers) (fun _ event h ↦ covers_step h event)
    (covers_start hr) events'
  refine ⟨⟨h.released, h.next, fun n ↦ (h.step_consume n).2, fun event ↦ h.prefix_step⟩,
    h'.window, ⟨h'.released_le, h'.released_eq_take⟩, fun n ↦ ⟨?_, ?_, h'.released_prefix_iff n⟩,
    fun event ↦ h'.prefix_step⟩
  · rw [h'.step_consume n]
  · rw [h'.step_consume n]
    exact pending_consume h'.ring n

/-- Eight bytes are reported of a window of four while four more wait behind it: a direct ring over
pipes stays in the window, a ring with memory of its own does not. -/
theorem run_releases_behind_window :
    let p : Pipe := ⟨["r"], ["t"], true, [1, 2, 3, 4]⟩
    let host : Host Board := .ofFiles ⟨[(["r"], .fifo .empty)], []⟩ (.fresh 64 [])
    let r : Ring := ⟨.empty 64, .empty, none⟩
    let l := (start (DirectRing.ofSize 64, ((⟨.pipe p, false, true⟩ : Link), host))).run direct
      [.wait none, .outside fun host ↦ host.feed ["r"] [5, 6, 7, 8], .consume 8]
    let l' := (start r).run owned
      [.outside (.push [1, 2, 3, 4]), .wait none, .outside (.push [5, 6, 7, 8])]
    Ring.create 64 = .ok r ∧
      (l.window = [1, 2, 3, 4] ∧ l.reported = 8 ∧ l.released = l.window.take l.reported) ∧
      l'.window = [1, 2, 3, 4] ∧ l'.window <+: l'.released ++ l'.state.pending ∧
      ¬(l'.step owned (.consume 8)).released <+: l'.window := by
  intro p host r l l'
  have hr : Ring.create 64 = .ok r := by rfl
  obtain ⟨⟨hreleased, -⟩, hwindow, -, hconsume, -⟩ := run_releases 64 p true host
    [.wait none, .outside fun host ↦ host.feed ["r"] [5, 6, 7, 8], .consume 8] hr
    [.outside (.push [1, 2, 3, 4]), .wait none, .outside (.push [5, 6, 7, 8])]
  refine ⟨hr, ⟨by decide +kernel, by decide +kernel, hreleased⟩, by decide +kernel, hwindow, ?_⟩
  rw [(hconsume 8).2.2]
  decide +kernel

/-- A ring with memory of its own releases eight bytes, of which the last window showed four. -/
theorem released_length_gt_window :
    let r : Ring := ⟨.empty 64, .empty, none⟩
    let l := (start r).run owned
      [.outside (.push [1, 2, 3, 4]), .wait none, .outside (.push [5, 6, 7, 8]), .consume 8]
    Ring.create 64 = .ok r ∧ l.window = [1, 2, 3, 4] ∧ l.released = [1, 2, 3, 4, 5, 6, 7, 8] ∧
      ¬l.released.length ≤ l.window.length :=
  ⟨rfl, by decide +kernel, by decide +kernel, by decide +kernel⟩

end Ledger

end DetectorLink
