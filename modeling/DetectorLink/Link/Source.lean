import DetectorLink.Bytes
import DetectorLink.Link.Effect

/-!
# Sources, sinks and clocks

What a reader needs of a link or a ring is small: it waits for a window of contiguous bytes and
gives bytes from its start back. What a sender needs is smaller still. Both are records of
operations on a state `σ`, so that the same reader works on every kind of link and on every ring,
and a clock is one too.
-/

namespace DetectorLink

/-- Shows windows of bytes that are waiting. -/
structure Source (σ : Type) where
  /-- Wait at most the given milliseconds for a window. -/
  wait : Option Nat → LinkM σ Bytes
  /-- Release bytes from the start of the last window. -/
  release : Nat → LinkM σ Unit

/-- Takes packets to be sent. -/
structure Sink (σ : Type) where
  /-- Send bytes; the answer is how many were taken. -/
  send : Bytes → LinkM σ Nat

/-- Tells the time in a state `σ`. -/
structure Clock (σ : Type) where
  /-- Milliseconds since the start. -/
  now : σ → Nat
  /-- Let milliseconds pass. -/
  sleep : Nat → σ → σ

/-- Packets that were sent, and the error with which sending fails. -/
structure Recorder where
  /-- The packets, in order. -/
  sent : List Bytes
  /-- The error, if sending fails. -/
  refusal : Option LinkError

/-- Records what is sent, unless sending fails. -/
def Recorder.sink : Sink Recorder where
  send data := .ofFun fun r =>
    match r.refusal with
    | some e => (.error e, r)
    | none => (.ok data.length, { r with sent := r.sent ++ [data] })

/-- A part of a larger state. -/
structure Part (τ σ : Type) where
  /-- The part. -/
  get : τ → σ
  /-- Replace the part. -/
  set : σ → τ → τ

namespace Part

variable {ρ σ τ : Type}

/-- The whole state. -/
def whole : Part σ σ := ⟨id, fun s _ => s⟩

/-- First component. -/
def first : Part (σ × τ) σ := ⟨Prod.fst, fun s t => (s, t.2)⟩

/-- Second component. -/
def second : Part (σ × τ) τ := ⟨Prod.snd, fun s t => (t.1, s)⟩

/-- A part of a part. -/
def comp (outer : Part ρ τ) (inner : Part τ σ) : Part ρ σ :=
  ⟨fun r => inner.get (outer.get r), fun s r => outer.set (inner.set s (outer.get r)) r⟩

end Part

variable {σ τ : Type}

/-- Work on a part of the state. -/
def LinkM.within {α : Type} (p : Part τ σ) (m : LinkM σ α) : LinkM τ α := m.zoom p.get p.set

/-- A source in a part of the state. -/
def Source.within (p : Part τ σ) (s : Source σ) : Source τ where
  wait timeout := (s.wait timeout).within p
  release n := (s.release n).within p

/-- A sink in a part of the state. -/
def Sink.within (p : Part τ σ) (s : Sink σ) : Sink τ where
  send data := (s.send data).within p

/-- The clock of a part of the state. -/
def Clock.within (p : Part τ σ) (c : Clock σ) : Clock τ where
  now t := c.now (p.get t)
  sleep n t := p.set (c.sleep n (p.get t)) t

end DetectorLink
