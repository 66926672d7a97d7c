import DetectorLink.Link.Driver
import DetectorLink.Link.Status

/-!
# A simulated board

A board whose answers are laid out beforehand: version, status block, a queue of receive replies
and faults to inject. It records everything that is written to it.
-/

namespace DetectorLink

/-- What the receive queue answers next. -/
inductive BoardReply where
  /-- The wait ends in this way, and nothing can be read. -/
  | wait (outcome : Readiness)
  /-- A read answers with these bytes. -/
  | bytes (content : Bytes)
  deriving Repr

/-- A receive reply of producer offset and flags; a short one lacks the flags. -/
def BoardReply.ofState (producer flags : UInt32) (short : Bool) : BoardReply :=
  .bytes (Word.toBytes producer ++ if short then [] else Word.toBytes flags)

/-- Memory as a function of the address, zero where nothing was written. -/
structure Memory where
  /-- The byte at an address. -/
  byte : Nat → UInt8

namespace Memory

/-- Memory of zeros. -/
def zero : Memory := ⟨fun _ => 0⟩

/-- The bytes from `address` on. -/
def load (m : Memory) (address n : Nat) : Bytes := (List.range n).map fun i => m.byte (address + i)

/-- Replace the bytes from `address` on. -/
def store (m : Memory) (address : Nat) (data : Bytes) : Memory :=
  let packed := data.toArray
  ⟨fun a => if a < address then m.byte a else (packed[a - address]?).getD (m.byte a)⟩

end Memory

/-- A board and what it will answer. -/
structure Board where
  /-- Bytes of the version answer. -/
  version : Bytes
  /-- Bytes of the status answer. -/
  status : Bytes
  /-- Answers of the receive queue. -/
  replies : List BoardReply
  /-- Failure of the next positional read or write. -/
  fault : Option Errno
  /-- Register windows and receive region. -/
  memory : Memory
  /-- What was written, in order. -/
  written : List (Nat × Bytes)

namespace Board

/-- Take the pending fault. -/
def takeFault (b : Board) : Option (Errno × Board) :=
  b.fault.map fun e => (e, { b with fault := none })

/-- Answer to a positional read. -/
def readAt (command n : Nat) (b : Board) : Except Errno Bytes × Board :=
  match b.takeFault with
  | some (e, b) => (.error e, b)
  | none =>
    if command = DriverCommand.version then (.ok (b.version.take n), b)
    else if command = DriverCommand.getStatus then (.ok (b.status.take n), b)
    else if command = DriverCommand.rx then
      match b.replies with
      | .bytes content :: rest => (.ok (content.take n), { b with replies := rest })
      | _ => (.ok [], b)
    else (.ok [], b)

/-- Answer to a positional write. -/
def writeAt (command : Nat) (data : Bytes) (b : Board) : Except Errno Nat × Board :=
  match b.takeFault with
  | some (e, b) => (.error e, b)
  | none => (.ok data.length, { b with written := b.written ++ [(command, data)] })

/-- Outcome of a wait. -/
def await (_ : Option Nat) (b : Board) : Readiness × Board :=
  match b.replies with
  | .wait outcome :: rest => (outcome, { b with replies := rest })
  | _ => (.ready, b)

instance : Driver Board where
  readAt := readAt
  writeAt := writeAt
  await := await
  load address n b := b.memory.load address n
  mapRegion _ b := (.ok (), b)
  mapBar _ _ b := (.ok (), b)
  loadBar bar offset n b := b.memory.load (barAddress bar + offset) n
  storeBar bar offset data b :=
    { b with memory := b.memory.store (barAddress bar + offset) data }
  patience b := b.replies.length + 1

end Board

end DetectorLink
