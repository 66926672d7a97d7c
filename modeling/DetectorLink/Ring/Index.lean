import DetectorLink.Bytes

/-!
# Ring offsets

A ring of `size` bytes keeps a producer and a consumer offset. One alignment unit always stays
free, so equal offsets mean that nothing is waiting. The pending bytes run from the consumer to the
producer, wrapping at the end; `window` describes how many of them can be shown in one piece.

Offsets have 64 bits, and so have the sums that are made of them: a size and an offset may add up to
more. The checked operations stop there; the others are exact, and agree with them for any ring that
fits into memory.
-/

namespace DetectorLink

/-- Offsets of a ring. -/
structure RingIndex where
  /-- Capacity in bytes. -/
  size : Nat
  /-- Where the next byte is written. -/
  producer : Nat
  /-- Where the next byte is read. -/
  consumer : Nat
  deriving DecidableEq, Repr

/-- Where the next readable bytes lie. -/
inductive RingSpan where
  /-- In one piece. -/
  | direct (offset length : Nat)
  /-- At the end of the ring, going on at its start. -/
  | rollover (head tail : Nat)
  deriving DecidableEq, Repr

/-- Number of bytes of a span. -/
def RingSpan.length : RingSpan → Nat
  | .direct _ length => length
  | .rollover head tail => head + tail

/-- True for a span of no bytes. -/
def RingSpan.isEmpty (s : RingSpan) : Bool := s.length == 0

/-- What any ring tells of itself, also one that keeps no offsets. -/
structure RingLevel where
  /-- Bytes that wait to be consumed. -/
  used : Nat
  /-- Capacity in bytes. -/
  size : Nat
  deriving DecidableEq, Repr

namespace RingLevel

/-- True if nothing is waiting. -/
def isEmpty (l : RingLevel) : Bool := l.used == 0

/-- True if no unit can be added beside the one that stays free. -/
def isFull (l : RingLevel) : Bool := decide (l.size ≤ l.used + alignment)

end RingLevel

namespace RingIndex

/-- Offsets of an empty ring. -/
def empty (size : Nat) : RingIndex := ⟨size, 0, 0⟩

variable (i : RingIndex)

/-- Bytes written and not yet consumed. -/
def used : Nat := (i.size + i.producer - i.consumer) % i.size

/-- Bytes that may still be written. -/
def free : Nat := (i.size + i.consumer - i.producer - alignment) % i.size

/-- True if nothing is waiting. -/
def isEmpty : Bool := i.producer == i.consumer

/-- True if nothing more can be written. -/
def isFull : Bool := i.used == i.size - alignment

/-- Bytes written and not yet consumed, by sums of 64 bits. -/
def checkedUsed : Except Overflow Nat := do
  let ahead ← checkedAdd UInt64.size i.size i.producer
  let distance ← checkedSub ahead i.consumer
  checkedMod distance i.size

/-- Bytes that may still be written, by sums of 64 bits. -/
def checkedFree : Except Overflow Nat := do
  let ahead ← checkedAdd UInt64.size i.size i.consumer
  let distance ← checkedSub ahead i.producer
  let rest ← checkedSub distance alignment
  checkedMod rest i.size

/-- True if nothing more can be written, by sums of 64 bits. -/
def checkedIsFull : Except Overflow Bool := do
  let most ← checkedSub i.size alignment
  return (← i.checkedUsed) == most

/-- The ring by its numbers of bytes. -/
def level : RingLevel := ⟨i.used, i.size⟩

/-- Advance the producer. -/
def produce (n : Nat) : RingIndex := { i with producer := (i.producer + n) % i.size }

/-- Advance the consumer. -/
def consume (n : Nat) : RingIndex := { i with consumer := (i.consumer + n) % i.size }

/-- Advance the producer, by sums of 64 bits. -/
def checkedProduce (n : Nat) : Except Overflow RingIndex := do
  let ahead ← checkedAdd UInt64.size i.producer n
  return { i with producer := ← checkedMod ahead i.size }

/-- Advance the consumer, by sums of 64 bits. -/
def checkedConsume (n : Nat) : Except Overflow RingIndex := do
  let ahead ← checkedAdd UInt64.size i.consumer n
  return { i with consumer := ← checkedMod ahead i.size }

/-- The next readable bytes. When fewer than `rollover` bytes are left before the end of the ring,
those at its start are shown together with them, up to `rollover` bytes in all. -/
def window (rollover : Nat) : RingSpan :=
  if i.consumer ≤ i.producer then .direct i.consumer (i.producer - i.consumer)
  else
    let head := i.size - i.consumer
    if rollover ≤ head then .direct i.consumer head
    else .rollover head (min (rollover - head) i.producer)

end RingIndex

end DetectorLink
