import DetectorLink.Link.Error
import DetectorLink.Link.Stream

/-!
# Receive buffers

The simulated links collect arriving bytes in a buffer. A wait collects until at least one word is
there, looking once more for bytes that are already waiting; what was collected before a wait fails
stays in the buffer, whatever it fails of. No byte is lost or reordered: buffered and pending bytes
together are those that arrived and were not released.
-/

namespace DetectorLink

/-- What bytes are collected from. -/
inductive Inlet where
  /-- A named pipe. -/
  | pipe
  /-- The connection of a client. -/
  | connection
  deriving DecidableEq, Repr

/-- The error of a read that failed. On a connection it counts as its end. -/
def Inlet.error : Inlet → CallError → LinkError
  | pipe, e => .ofCall e
  | connection, _ => .connectionReset

/-- A receive buffer, the bytes arriving for it, and the time. -/
structure Intake where
  /-- What is read. -/
  inlet : Inlet
  /-- Collected bytes. -/
  buffer : Bytes
  /-- Bytes that arrive. -/
  stream : Stream
  /-- The time. -/
  clock : Nat
  deriving DecidableEq, Repr

namespace Intake

variable (i : Intake)

/-- Read what has arrived, as much as there is room for. -/
def take (capacity : Nat) : Except LinkError Bool × Intake :=
  let (data, stream) := i.stream.read i.clock (capacity - i.buffer.length)
  if data.isEmpty then (.error .connectionReset, i)
  else (.ok true, { i with buffer := i.buffer ++ data, stream })

/-- Collect what arrives within `wait` milliseconds: true if there was something. -/
def collect (capacity : Nat) (wait : Option Nat) : Except LinkError Bool × Intake :=
  let (fault?, stream) := i.stream.nextRead
  let i := { i with stream }
  match fault? with
  | some (.poll fault) => (if fault.error = .timeout then .ok false else .error fault.error, i)
  | fault? =>
    let (happened, clock) := awaitEvent i.clock wait i.stream.nextTime?
    let i := { i with clock }
    if happened then
      match fault? with
      | some (.read e) => (.error (i.inlet.error e), i)
      | _ => i.take capacity
    else (.ok false, i)

/-- Collect until a word is there, reading at most the given number of times. -/
def fill (capacity : Nat) (deadline : Option Nat) : Nat → Intake → Except LinkError Unit × Intake
  | 0, i => (.ok (), i)
  | rounds + 1, i =>
    match i.collect capacity (deadline.map (· - i.clock)) with
    | (.error e, i) => (.error e, i)
    | (.ok false, i) => (.error .timeout, i)
    | (.ok true, i) =>
      if i.buffer.length < alignment then fill capacity deadline rounds i else (.ok (), i)

/-- Collect bytes that are already waiting. -/
def topUp (capacity : Nat) : Except LinkError Unit × Intake :=
  if i.buffer.length < capacity then
    let (r, i) := i.collect capacity (some 0)
    (r.map fun _ => (), i)
  else (.ok (), i)

/-- Wait for a word and show the buffer. Every read brings a byte, so as many reads as a word has
bytes are enough. -/
def wait (capacity : Nat) (deadline : Option Nat) : Except LinkError Bytes × Intake :=
  let (r, i) := if i.buffer.length < alignment then i.fill capacity deadline alignment
    else i.topUp capacity
  (r.map fun _ => i.buffer, i)

end Intake

end DetectorLink
