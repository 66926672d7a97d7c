import DetectorLink.Bytes
import DetectorLink.Link.Fault

/-!
# Arriving bytes

Bytes from a peer arrive in chunks at given times, and the peer may close its end at some time. A
wait either ends when there is something to read or when its time has passed. Reads and writes of
the descriptor may fail.
-/

namespace DetectorLink

/-- What a peer sends and when, and what becomes of the calls that read or answer it. -/
structure Stream where
  /-- Chunks not yet read, in the order of their arrival times. -/
  chunks : List (Nat × Bytes)
  /-- When the peer closes its end. -/
  closedAt : Option Nat
  /-- What becomes of the next reads. -/
  reads : Schedule ReadFault
  /-- What becomes of the next writes. -/
  writes : Schedule WriteFault
  deriving DecidableEq, Repr, Inhabited

namespace Stream

/-- What a peer sends, of which every read goes well. -/
def sound (chunks : List (Nat × Bytes)) (closedAt : Option Nat) : Stream :=
  ⟨chunks, closedAt, [], []⟩

/-- A peer that has sent nothing and stays connected. -/
def empty : Stream := sound [] none

variable (s : Stream)

/-- Bytes that were fed and not yet read. -/
def pending : Bytes := s.chunks.flatMap (·.2)

/-- Let the peer send bytes at time `now`; no bytes change nothing. -/
def feed (now : Nat) (data : Bytes) : Stream :=
  if data.isEmpty then s else { s with chunks := s.chunks ++ [(now, data)] }

/-- Let the peer close its end at time `now`. -/
def close (now : Nat) : Stream := { s with closedAt := some now }

/-- When the next read would answer. -/
def nextTime? : Option Nat :=
  match s.chunks with
  | (t, _) :: _ => some t
  | [] => s.closedAt

/-- At most `n` bytes of the chunks that have arrived. -/
def takeArrived (now : Nat) : Nat → List (Nat × Bytes) → Bytes × List (Nat × Bytes)
  | 0, chunks => ([], chunks)
  | _, [] => ([], [])
  | n, (t, data) :: rest =>
    if now < t then ([], (t, data) :: rest)
    else if data.length ≤ n then
      let (more, left) := takeArrived now (n - data.length) rest
      (data ++ more, left)
    else (data.take n, (t, data.drop n) :: rest)

/-- What becomes of the next read, and the stream after it. -/
def nextRead : Option ReadFault × Stream :=
  let (fault?, reads) := ReadFault.next s.reads
  (fault?, { s with reads })

/-- What becomes of the next write of bytes, and the stream after it. -/
def nextWrite (data : Bytes) : Option WriteFault × Stream :=
  let (fault?, writes) := WriteFault.next data s.writes
  (fault?, { s with writes })

/-- Read at most `n` bytes. Nothing is read if nothing has arrived or the peer has closed. -/
def read (now n : Nat) : Bytes × Stream :=
  let (data, chunks) := takeArrived now n s.chunks
  (data, { s with chunks })

end Stream

/-- Wait for an event that happens at time `event?`, if ever, for at most `timeout` milliseconds.
The answer says whether it happened, and the new time. A wait without limit for something that
never happens counts as ended. -/
def awaitEvent (now : Nat) (timeout : Option Nat) (event? : Option Nat) : Bool × Nat :=
  match event?, timeout with
  | some t, none => (true, max now t)
  | some t, some d => if t ≤ now + d then (true, max now t) else (false, now + d)
  | none, some d => (false, now + d)
  | none, none => (false, now)

end DetectorLink
