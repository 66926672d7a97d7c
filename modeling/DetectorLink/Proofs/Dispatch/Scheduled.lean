import DetectorLink.Proofs.Dispatch.Copied
import DetectorLink.Proofs.Dispatch.Direct

/-!
# Sources that go on while they are read

A reader does not decide what happens around its source. Here that is laid down beforehand, in
batches: before everything that the reader asks of the source, and so also while it looks at a
window, the next batch happens. What is known of the source stays known, where its unread bytes are
taken together with those that are still to come. Two counts tell how much of both was released, and
how far the windows went that the reader was shown.
-/

namespace DetectorLink.Dispatch

/-- A source with what is to happen around it. -/
structure Scheduled (σ ω : Type) where
  /-- State of the source. -/
  state : σ
  /-- What is to happen, a batch before each wait and each release. -/
  due : List (List ω)
  /-- Number of released bytes. -/
  released : Nat
  /-- Where the furthest window ended, counted from the first byte. -/
  offered : Nat

namespace Scheduled

variable {σ ω : Type}

/-- A source of which nothing was released. -/
def start (s : σ) (due : List (List ω)) : Scheduled σ ω := ⟨s, due, 0, 0⟩

/-- The source that is scheduled. -/
def statePart : Part (Scheduled σ ω) σ := ⟨state, fun s c ↦ { c with state := s }⟩

variable (around : Surroundings σ ω)

/-- Let the next batch happen. -/
def goOn (c : Scheduled σ ω) : Scheduled σ ω :=
  { c with
    state := (c.due.headD []).foldl (fun s what ↦ around.apply what s) c.state
    due := c.due.tail }

/-- Wait for a window of the source. -/
def wait (inner : Source σ) (timeout : Option Nat) : LinkM (Scheduled σ ω) Bytes :=
  .ofFun fun c ↦
    let c := c.goOn around
    let (answer, s) := (inner.wait timeout).exec c.state
    let reached := match answer with
      | .ok window => c.released + window.length
      | .error _ => 0
    (answer, { c with state := s, offered := max c.offered reached })

/-- Release bytes of the source. -/
def release (inner : Source σ) (n : Nat) : LinkM (Scheduled σ ω) Unit :=
  .ofFun fun c ↦
    let c := c.goOn around
    let (outcome, s) := (inner.release n).exec c.state
    let count := match outcome with
      | .ok () => n
      | .error _ => 0
    (outcome, { c with state := s, released := c.released + count })

/-- The source with what happens around it. -/
def source (inner : Source σ) : Source (Scheduled σ ω) := ⟨wait around inner, release around inner⟩

/-- The unread bytes of the source, and those that are to come. -/
def unread (bytes : σ → Bytes) (c : Scheduled σ ω) : Bytes :=
  bytes c.state ++ c.due.flatten.flatMap around.fed

variable {around} {inner : Source σ} {bytes : σ → Bytes} {holds : Bytes → σ → Prop}
  {left : Bytes} {c : Scheduled σ ω}

/-- What happens around a source one after the other adds what is fed to the unread bytes. -/
theorem shows_batch (h : Shows inner around bytes holds) (batch : List ω) {s : σ}
    (hs : holds left s) :
    let t := batch.foldl (fun s what ↦ around.apply what s) s
    holds left t ∧ bytes t = bytes s ++ batch.flatMap around.fed := by
  induction batch generalizing s with
  | nil => exact ⟨hs, (List.append_nil _).symm⟩
  | cons what batch ih =>
    obtain ⟨hnext, hbytes⟩ := h.happen what hs
    obtain ⟨hlast, hall⟩ := ih hnext
    refine ⟨hlast, hall.trans ?_⟩
    rw [hbytes, List.append_assoc, List.flatMap_cons]

/-- A batch that happens was to come before, so that nothing is added. -/
theorem shows_goOn (h : Shows inner around bytes holds) (hc : holds left c.state) :
    holds left (c.goOn around).state ∧
      unread around bytes (c.goOn around) = unread around bytes c := by
  obtain ⟨hnext, hbytes⟩ := shows_batch h (c.due.headD []) hc
  refine ⟨hnext, ?_⟩
  have hdue : c.due.flatten = c.due.headD [] ++ c.due.tail.flatten := by
    cases c.due <;> rfl
  rw [unread, unread, hdue, List.flatMap_append, ← List.append_assoc]
  exact congrArg (· ++ _) hbytes

/-- The window of a wait starts the unread bytes, and is offered from where the released ones
end. -/
theorem shows_wait (h : Shows inner around bytes holds) (hc : holds left c.state)
    (timeout : Option Nat) :
    ∃ answer d, ((source around inner).wait timeout).exec c = (answer, d) ∧
      holds (answer.toOption.getD left) d.state ∧
      unread around bytes d = unread around bytes c ∧ d.released = c.released ∧
      d.offered = max c.offered (match answer with
        | .ok window => c.released + window.length
        | .error _ => 0) := by
  obtain ⟨hnext, hunread⟩ := shows_goOn h hc
  rcases hw : (inner.wait timeout).exec (c.goOn around).state with ⟨answer, s⟩
  obtain ⟨hs, hbytes⟩ := h.wait hnext hw
  refine ⟨answer, { c.goOn around with state := s, offered := _ }, ?_, hs, ?_, rfl, rfl⟩
  · simp only [source, wait, LinkM.exec_ofFun, hw]
    rfl
  · rw [← hunread, unread, unread, hbytes]

/-- What is left of a window starts the unread bytes. -/
theorem left_prefix_unread (h : Shows inner around bytes holds) (hc : holds left c.state) :
    left <+: unread around bytes c := (h.left hc).trans (List.prefix_append _ _)

/-- Releasing whole units of a window takes them from the front of the unread bytes. -/
theorem shows_release (h : Shows inner around bytes holds) (hc : holds left c.state) {n : Nat}
    (hmod : n % 4 = 0) (hn : n ≤ left.length) :
    ∃ d, (if n = 0 then (.ok (), c) else ((source around inner).release n).exec c) = (.ok (), d) ∧
      holds (left.drop n) d.state ∧
      unread around bytes d = (unread around bytes c).drop n ∧
      d.released = c.released + n ∧ d.offered = c.offered := by
  by_cases hz : n = 0
  · subst hz
    exact ⟨c, rfl, hc, rfl, rfl, rfl⟩
  · obtain ⟨hnext, hunread⟩ := shows_goOn h hc
    obtain ⟨s, hr, hs, hbytes⟩ := h.release hnext (Nat.pos_of_ne_zero hz) hmod hn
    refine ⟨{ c.goOn around with state := s, released := c.released + n }, ?_, hs, ?_, rfl, rfl⟩
    · rw [ite_cond_eq_false _ _ (eq_false hz)]
      simp only [source, release, LinkM.exec_ofFun, hr]
      rfl
    · have hle : n ≤ (bytes (c.goOn around).state).length :=
        Nat.le_trans hn (h.left hnext).length_le
      rw [← hunread, unread, unread, hbytes, List.drop_append_of_le_length hle]

/-! Where nothing is due, the source is used as it is. -/

variable (around inner)

theorem goOn_of_due_eq_nil {c : Scheduled σ ω} (h : c.due = []) : c.goOn around = c := by
  obtain ⟨s, due, r, o⟩ := c
  obtain rfl : due = [] := h
  rfl

theorem mirrors_wait (timeout : Option Nat) :
    Mirrors (fun c ↦ c.due = []) state (wait around inner timeout) (inner.wait timeout) := by
  intro c hc
  simp only [wait, LinkM.exec_ofFun, goOn_of_due_eq_nil around hc]
  exact ⟨trivial, hc⟩

theorem mirrors_release (n : Nat) :
    Mirrors (fun c ↦ c.due = []) state (release around inner n) (inner.release n) := by
  intro c hc
  simp only [release, LinkM.exec_ofFun, goOn_of_due_eq_nil around hc]
  exact ⟨trivial, hc⟩

end Scheduled

/-! ### A ring and its producer -/

/-- A ring with a producer that has bytes for it, while time passes. -/
structure Pushing where
  /-- The ring. -/
  ring : Ring
  /-- What the ring has not accepted yet. -/
  ahead : Bytes
  /-- Milliseconds since the start. -/
  clock : Nat

namespace Pushing

/-- What can happen around a ring with memory of its own. -/
inductive Event where
  /-- The producer pushes its next bytes. -/
  | push (n : Nat)
  /-- The producer records an error. -/
  | fail (e : LinkError)
  /-- Milliseconds pass. -/
  | elapse (n : Nat)
  deriving DecidableEq, Repr

/-- What is left after it. What the ring did not accept is kept to be pushed again. -/
def apply : Event → Pushing → Pushing
  | .push n, p =>
    let (accepted, ring) := p.ring.push (p.ahead.take n)
    { p with ring, ahead := p.ahead.drop accepted }
  | .fail e, p => { p with ring := p.ring.setError e }
  | .elapse n, p => { p with clock := p.clock + n }

/-- What happens around the ring. What is pushed was there before. -/
def surroundings : Surroundings Pushing Event := ⟨apply, fun _ ↦ []⟩

/-- The ring as its reader has it. -/
def source : Source Pushing := Ring.source.within ⟨ring, fun r p ↦ { p with ring := r }⟩

/-- The clock of the reader. -/
def time : Clock Pushing := ⟨clock, fun n p ↦ apply (.elapse n) p⟩

/-- What was not released. -/
def unread (p : Pushing) : Bytes := p.ring.pending ++ p.ahead

/-- A ring in order, with what is left of the last window. -/
structure Facing (left : Bytes) (p : Pushing) : Prop where
  ring : p.ring.WellFormed
  left : left <+: p.ring.pending

variable {left : Bytes} {p : Pushing}

/-- What happens around the ring moves bytes into it, and adds none. -/
theorem Facing.event (h : Facing left p) (event : Event) :
    Facing left (apply event p) ∧ (apply event p).unread = p.unread := by
  cases event with
  | push n =>
    have hpending := Ring.pending_push h.ring (p.ahead.take n)
    have haccepted : (p.ring.push (p.ahead.take n)).1 ≤ n :=
      Nat.le_trans (Ring.fst_push_le _ _) (List.length_take_le n p.ahead)
    rw [List.take_take, Nat.min_eq_left haccepted] at hpending
    refine ⟨⟨Ring.wellFormed_push h.ring _, ?_⟩, ?_⟩
    · exact h.left.trans (hpending ▸ List.prefix_append _ _)
    · show (p.ring.push (p.ahead.take n)).2.pending ++
        p.ahead.drop (p.ring.push (p.ahead.take n)).1 = _
      rw [hpending, List.append_assoc, List.take_append_drop, unread]
  | fail e => exact ⟨⟨Ring.wellFormed_setError h.ring e, h.left⟩, rfl⟩
  | elapse n => exact ⟨⟨h.ring, h.left⟩, rfl⟩

/-- A ring shows what was not released, however its producer pushes it. -/
theorem shows : Shows source surroundings unread Facing where
  left h := h.left.trans (List.prefix_append _ _)
  wait {left p timeout answer q} h hw := by
    obtain ⟨rfl, rfl⟩ := Prod.mk.inj hw
    refine ⟨⟨h.ring, ?_⟩, rfl⟩
    show p.ring.wait.toOption.getD left <+: p.ring.pending
    rw [Ring.wait_eq h.ring]
    split
    · exact h.left
    · split
      · exact h.left
      · exact Ring.isPrefix_window h.ring
  release {left p n} h hpos hmod hn := by
    have hle := Nat.le_trans hn h.left.length_le
    obtain ⟨hring, hpending⟩ := Ring.pending_release h.ring hmod hle
    rw [ite_cond_eq_false _ _ (eq_false (Nat.ne_of_gt hpos))] at hring hpending
    refine ⟨{ p with ring := p.ring.consume n }, rfl, ⟨hring, ?_⟩, ?_⟩
    · exact hpending ▸ h.left.drop n
    · show (p.ring.consume n).pending ++ p.ahead = _
      rw [hpending, unread, List.drop_append_of_le_length hle]
  happen event h := by
    obtain ⟨hfacing, hunread⟩ := h.event event
    exact ⟨hfacing, hunread.trans (List.append_nil _).symm⟩

end Pushing

end DetectorLink.Dispatch
