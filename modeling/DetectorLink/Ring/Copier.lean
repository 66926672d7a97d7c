import DetectorLink.Link.Source
import DetectorLink.Ring.Basic

/-!
# Copying a source into a ring

A copier moves what a source shows into a ring with memory of its own, so that a slow reader stalls
the ring and not the source. Every accepted byte is released once. The first error of the source
ends the copier and is recorded in the ring; a copier that ended leaves the ring shut down.
-/

namespace DetectorLink

/-- What became of one round of copying. -/
inductive CopyStep where
  /-- Bytes were moved. -/
  | moved
  /-- Nothing arrived in time. -/
  | idle
  /-- The ring is full. -/
  | full
  /-- The copier ended. -/
  | ended
  deriving DecidableEq, Repr

namespace Copier

variable {σ : Type}

/-- Milliseconds that one wait of the source lasts, unless something else is asked for. -/
def defaultPoll : Nat := 100

/-- End, recording why unless an error is recorded already. -/
def finish (ring : Ring) (cause : Option LinkError) : Ring :=
  let ring := match cause with
    | some e => ring.setError e
    | none => ring
  ring.setError .shutdown

/-- Move a window of the source into the ring, releasing what was accepted. -/
def move (source : Source σ) (data : Bytes) (ring : Ring) (s : σ) : CopyStep × Ring × σ :=
  if data.isEmpty then (.idle, ring, s)
  else
    let (accepted, ring) := ring.push data
    if accepted = 0 then (.ended, finish ring none, s)
    else match (source.release accepted).exec s with
      | (.error e, s) => (.ended, finish ring (some e), s)
      | (.ok (), s) => (.moved, ring, s)

/-- One round of copying, waiting at most `poll` milliseconds. -/
def step (source : Source σ) (poll : Nat) (ring : Ring) (s : σ) : CopyStep × Ring × σ :=
  if ring.isFull then (.full, ring, s)
  else match (source.wait (some poll)).exec s with
    | (.ok data, s) => move source data ring s
    | (.error .timeout, s) => (.idle, ring, s)
    | (.error e, s) => (.ended, finish ring (some e), s)

end Copier

/-- A ring with the copier that fills it. -/
structure CopiedRing where
  /-- The ring. -/
  ring : Ring
  /-- The copier runs. -/
  running : Bool

namespace CopiedRing

variable {σ : Type}

/-- A ring of the given size with a running copier. -/
def start (size : Nat) : Except LinkError CopiedRing := (Ring.create size).map (⟨·, true⟩)

/-- Let the copier do one round. -/
def step (source : Source σ) (poll : Nat) (c : CopiedRing) (s : σ) :
    CopyStep × CopiedRing × σ :=
  if c.running then
    let (outcome, ring, s) := Copier.step source poll c.ring s
    (outcome, ⟨ring, outcome != .ended⟩, s)
  else (.ended, c, s)

/-- Let the copier work without waiting until it ended or the ring is full, for at most the given
rounds. A round in which nothing arrived is followed by the next one. -/
def settle (source : Source σ) : Nat → CopiedRing → σ → CopiedRing × σ
  | 0, c, s => (c, s)
  | rounds + 1, c, s =>
    match c.step source 0 s with
    | (.ended, c, s) | (.full, c, s) => (c, s)
    | (_, c, s) => settle source rounds c s

/-- Stop the copier. -/
def stop (c : CopiedRing) : CopiedRing :=
  ⟨if c.running then Copier.finish c.ring none else c.ring, false⟩

/-- Let the copier work until it moved something, cannot go on, or the time is over, for at most the
given rounds. -/
def work (source : Source σ) (clock : Clock σ) (deadline : Option Nat) :
    Nat → CopiedRing → σ → CopiedRing × σ
  | 0, c, s => (c, s)
  | rounds + 1, c, s =>
    match c.step source (deadline.elim Copier.defaultPoll (· - clock.now s)) s with
    | (.idle, c, s) =>
      if deadline.any (· ≤ clock.now s) then (c, s) else work source clock deadline rounds c s
    | (_, c, s) => (c, s)

/-- Wait for a window of the ring while the copier works. If there is one already, the copier does
not wait for more. -/
def wait (source : Source σ) (clock : Clock σ) (rounds : Nat) (timeout : Option Nat) :
    LinkM (CopiedRing × σ) Bytes :=
  .ofFun fun (c, s) =>
    let patience := if c.ring.isEmpty then timeout else some 0
    let (c, s) := work source clock (patience.map (clock.now s + ·)) rounds c s
    (c.ring.wait, (c, s))

/-- Release bytes of the ring. -/
def consume (n : Nat) : LinkM (CopiedRing × σ) Unit :=
  .change fun (c, s) => ({ c with ring := c.ring.consume n }, s)

/-- The ring as a source. -/
def source (inner : Source σ) (clock : Clock σ) (rounds : Nat) : Source (CopiedRing × σ) :=
  ⟨wait inner clock rounds, consume⟩

/-- Take `n` bytes, in at most the given number of waits of `patience` milliseconds. What was taken
before a failure is answered too. -/
def collect (inner : Source σ) (clock : Clock σ) (patience n : Nat) :
    Nat → Bytes → CopiedRing × σ → Except (Bytes × LinkError) Bytes × (CopiedRing × σ)
  | 0, taken, s => (.ok taken, s)
  | waits + 1, taken, s =>
    if n ≤ taken.length then (.ok taken, s)
    else match (wait inner clock (waits + 1) (some patience)).exec s with
      | (.error e, s) => (.error (taken, e), s)
      | (.ok window, s) =>
        let part := window.take (n - taken.length)
        collect inner clock patience n waits (taken ++ part) ((consume part.length).exec s).2

end CopiedRing

end DetectorLink
