import DetectorLink.Bytes
import DetectorLink.Link.Error

/-!
# Failing system calls

A call of the system may fail, and what becomes of the calls to come is laid out beforehand: a
schedule tells of each of them whether it goes well or how it fails. A wait that is interrupted is
repeated at once, so that nobody sees it.
-/

namespace DetectorLink

/-- Why a call failed: with an error number, or with a text where the system gave none. -/
inductive CallError where
  /-- An error number. -/
  | system (e : Errno)
  /-- A category and a text. -/
  | told (category : IoCategory) (text : String)
  deriving DecidableEq, Repr

/-- Category of a failure. -/
def CallError.category : CallError → IoCategory
  | system e => e.category
  | told category _ => category

/-- The error of a failed call. -/
def LinkError.ofCall : CallError → LinkError
  | .system e => ofSystem e
  | .told category text => io category text

/-- What becomes of the calls to come: each goes well or fails in its own way, and those that are
not listed go well. -/
abbrev Schedule (ε : Type) := List (Option ε)

namespace Schedule

variable {ε : Type}

/-- What becomes of the next call, and of those after it. -/
def next (s : Schedule ε) : Option ε × Schedule ε := (s.head?.join, s.tail)

end Schedule

/-- How a wait for a descriptor fails. -/
inductive PollFault where
  /-- The system refuses to wait. -/
  | refused (e : Errno)
  /-- The descriptor is in an error condition. -/
  | broken
  deriving DecidableEq, Repr

namespace PollFault

/-- A wait that was interrupted. -/
def interrupted : PollFault := refused ⟨4⟩

/-- The error of a failed wait. -/
def error : PollFault → LinkError
  | refused e => .ofNumber e
  | broken => .connectionReset

/-- What becomes of the next wait that is not interrupted, and of those after it. -/
def next (s : Schedule PollFault) : Option PollFault × Schedule PollFault :=
  Schedule.next (s.dropWhile (· == some interrupted))

end PollFault

/-- How a read that is waited for fails. -/
inductive ReadFault where
  /-- The wait fails. -/
  | poll (fault : PollFault)
  /-- The read itself fails. -/
  | read (e : CallError)
  deriving DecidableEq, Repr

/-- What becomes of the next read whose wait is not interrupted, and of those after it. -/
def ReadFault.next (s : Schedule ReadFault) : Option ReadFault × Schedule ReadFault :=
  Schedule.next (s.dropWhile (· == some (.poll .interrupted)))

/-- How a write fails. -/
structure WriteFault where
  /-- How many bytes are written before. -/
  taken : Nat
  /-- Why the others are not. -/
  error : CallError
  deriving DecidableEq, Repr

/-- What is written before a write fails: never all. -/
def WriteFault.written (fault : WriteFault) (data : Bytes) : Bytes :=
  data.take (min fault.taken (data.length - 1))

/-- What becomes of the next write, and of those after it. Writing nothing needs no call. -/
def WriteFault.next (data : Bytes) (s : Schedule WriteFault) :
    Option WriteFault × Schedule WriteFault :=
  if data.isEmpty then (none, s) else s.next

end DetectorLink
