import DetectorLink.Link.Source
import DetectorLink.Packet.Basic
import DetectorLink.Ring.Index
import DetectorLink.Ring.Storage

/-!
# Rings with memory of their own

One producer pushes bytes, one consumer waits for a contiguous window of them and releases what it
has used. Only whole alignment units are moved. The first error is kept and returned by every
later wait. A push has three steps: reserving room, copying, publishing; a wait takes a snapshot of
the offsets and then forms the window.
-/

namespace DetectorLink

/-- A ring with its memory and the first error, if one was recorded. -/
structure Ring where
  /-- Offsets. -/
  index : RingIndex
  /-- Memory. -/
  storage : Storage
  /-- First error recorded. -/
  error : Option LinkError

namespace Ring

/-- Bytes a window may show across the end of a ring: the longest packet. -/
def rolloverLimit : Nat := Packet.maxLength

/-- An empty ring of `size` bytes, a multiple of the alignment unit above one unit. -/
def create (size : Nat) : Except LinkError Ring :=
  if size ≤ alignment || size % alignment != 0 then
    .error (.invalidArgument
      s!"ring size {size} must be a multiple of {alignment} above {alignment}")
  else .ok ⟨.empty size, .empty, none⟩

variable (r : Ring)

/-- Bytes waiting to be consumed. -/
def used : Nat := r.index.used

/-- Capacity in bytes. -/
def size : Nat := r.index.size

/-- True if nothing is waiting. -/
def isEmpty : Bool := r.index.isEmpty

/-- True if nothing more fits. -/
def isFull : Bool := r.index.isFull

/-- Record an error; the first one stays. -/
def setError (e : LinkError) : Ring := { r with error := r.error.orElse fun _ => some e }

/-- Bytes that a push of `n` bytes may write now. -/
def accepts (n : Nat) : Nat := min (alignDown n) r.index.free

/-- Write `data` from the producer on, going on at the start of the ring. -/
def copyIn (data : Bytes) : Ring :=
  let head := min data.length (r.index.size - r.index.producer)
  { r with
    storage := (r.storage.write r.index.producer (data.take head)).write 0 (data.drop head) }

/-- Make `n` written bytes visible to the consumer. -/
def publish (n : Nat) : Ring := { r with index := r.index.produce n }

/-- Write as much of `data` as fits and tell how much that was. A full ring records an overflow. -/
def push (data : Bytes) : Nat × Ring :=
  if alignDown data.length = 0 then (0, r)
  else
    let n := r.accepts data.length
    if n = 0 then (0, r.setError .overflow)
    else (n, (r.copyIn (data.take n)).publish n)

/-- The bytes of a span. -/
def spanBytes (span : RingSpan) : Bytes :=
  match span with
  | .direct offset length => r.storage.read offset length
  | .rollover head tail => r.storage.read r.index.consumer head ++ r.storage.read 0 tail

/-- The window that a wait shows now: whole alignment units of the next span. -/
def window : Bytes :=
  let span := r.index.window rolloverLimit
  (r.spanBytes span).take (alignDown span.length)

/-- What a wait that nothing interrupts answers: the recorded error, a window, or a timeout. -/
def wait : Except LinkError Bytes :=
  match r.error with
  | some e => .error e
  | none =>
    if r.isEmpty then .error .timeout
    else
      let bytes := r.window
      if bytes.isEmpty then .error .timeout else .ok bytes

/-- Release `n` bytes, at most those that are waiting. -/
def consume (n : Nat) : Ring := { r with index := r.index.consume (min (alignDown n) r.used) }

/-- A ring as a source. Nothing is pushed while it waits. -/
def source : Source Ring where
  wait _ := .ofFun fun r => (r.wait, r)
  release n := .change fun r => r.consume n

end Ring

end DetectorLink
