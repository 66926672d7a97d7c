import DetectorLink.Bytes
import DetectorLink.Link.Errno

/-!
# The driver interface

A link adapter is reached through a device file. Its driver takes commands as positional reads and
writes, whose offset names the command, and maps the register windows and the receive region into
memory. `Driver δ` says that values of `δ` behave like a driver; nothing is assumed about its
answers.
-/

namespace DetectorLink

/-- Outcome of waiting for a device file to become readable. -/
inductive Readiness where
  /-- It can be read. -/
  | ready
  /-- The time passed first. -/
  | expired
  /-- The file reports an error condition. -/
  | broken
  /-- The wait was interrupted and has to be repeated. -/
  | interrupted
  /-- The wait itself failed. -/
  | failed (e : Errno)
  deriving DecidableEq, Repr

/-- Something that answers like a driver. -/
class Driver (δ : Type) where
  /-- Read at most `n` bytes at a command offset. -/
  readAt : (command n : Nat) → δ → Except Errno Bytes × δ
  /-- Write at a command offset; the answer is how much was taken. -/
  writeAt : (command : Nat) → Bytes → δ → Except Errno Nat × δ
  /-- Wait until a read would answer, at most for the given milliseconds. -/
  await : Option Nat → δ → Readiness × δ
  /-- Bytes of the mapped receive region. -/
  load : (address n : Nat) → δ → Bytes
  /-- Map a receive region of a size. -/
  mapRegion : (size : Nat) → δ → Except Errno Unit × δ
  /-- Map a register window of a size. -/
  mapBar : (bar size : Nat) → δ → Except Errno Unit × δ
  /-- Bytes of a mapped register window. -/
  loadBar : (bar offset n : Nat) → δ → Bytes
  /-- Change bytes of a mapped register window. -/
  storeBar : (bar offset : Nat) → Bytes → δ → δ
  /-- How often a wait is repeated before it counts as endless. -/
  patience : δ → Nat

namespace DriverCommand

/-- Read the state of the receive queue. -/
def rx : Nat := 1
/-- Read the driver's version. -/
def version : Nat := 2
/-- Read the status block. -/
def getStatus : Nat := 3
/-- Keep packets from before the last reset. -/
def oldPackets : Nat := 5
/-- Send a packet. -/
def tx : Nat := 9
/-- Release bytes of the receive region. -/
def advance : Nat := 10
/-- Reset the board. -/
def reset : Nat := 11
/-- Turn reception on or off. -/
def rxEnable : Nat := 12
/-- Receive packets with link errors too. -/
def errorPackets : Nat := 13

end DriverCommand

/-- Size of a page of the mapped memory. -/
def pageSize : Nat := 4096

/-- Address of the receive region. -/
def regionAddress : Nat := 6 * pageSize

/-- Address of a register window. -/
def barAddress (bar : Nat) : Nat := bar * pageSize

/-- Number of register windows. -/
def barCount : Nat := 3

end DetectorLink
