import DetectorLink.Link.Effect
import DetectorLink.Link.Files

/-!
# The host

What a link is opened on: a clock in milliseconds, the files of the host, the driver behind its
device file, the addresses that can be listened on, and perhaps a peer that answers what is sent
into a pipe. Time passes only in waits for something that has not arrived yet.
-/

namespace DetectorLink

/-- A peer at the other end of two named pipes, with its answers laid out beforehand. -/
structure Responder where
  /-- The pipe it listens to. -/
  hears : FilePath
  /-- The pipe it answers into. -/
  speaks : FilePath
  /-- Its answers to the next packets. -/
  answers : List Bytes
  deriving DecidableEq, Repr

/-- A host with a driver of type `δ`. -/
structure Host (δ : Type) where
  /-- Milliseconds since the start. -/
  clock : Nat
  /-- Files. -/
  files : Files
  /-- Driver behind the device file. -/
  driver : δ
  /-- The peer of a pair of pipes. -/
  responder : Option Responder
  /-- What becomes of listening on an address. -/
  listen : (address : String) → Except CallError Unit

namespace Host

variable {δ : Type}

/-- A host with files and a driver, where every address can be listened on. -/
def ofFiles (files : Files) (driver : δ) : Host δ := ⟨0, files, driver, none, fun _ => .ok ()⟩

/-- A host with a driver and no files. -/
def bare (driver : δ) : Host δ := ofFiles ⟨[], []⟩ driver

variable (h : Host δ)

/-- Let bytes arrive in a named pipe now. -/
def feed (path : FilePath) (data : Bytes) : Host δ :=
  { h with files := h.files.setQueue path ((h.files.queue path).feed h.clock data) }

/-- Let reads of a named pipe fail, behind those that may already. -/
def disturb (path : FilePath) (reads : Schedule ReadFault) : Host δ :=
  let queue := h.files.queue path
  { h with files := h.files.setQueue path { queue with reads := queue.reads ++ reads } }

/-- Let the peer answer if it listens to a pipe. -/
def answer (path : FilePath) : Host δ :=
  match h.responder with
  | none => h
  | some r =>
    match r.answers with
    | [] => h
    | data :: rest =>
      if r.hears = path then
        { h.feed r.speaks data with responder := some { r with answers := rest } }
      else h

/-- Write a packet into a named pipe. What is written before a write fails stays there. -/
def send (path : FilePath) (data : Bytes) : Except CallError Unit × Host δ :=
  let (fault?, queue) := (h.files.queue path).nextWrite data
  let h := { h with files := h.files.setQueue path queue }
  match fault? with
  | none => (.ok (), (h.feed path data).answer path)
  | some fault => (.error fault.error, h.feed path (fault.written data))

/-- Take everything out of a named pipe. -/
def drain (path : FilePath) : Bytes × Host δ :=
  ((h.files.queue path).pending, { h with files := h.files.setQueue path .empty })

/-- Let time pass. -/
def sleep (milliseconds : Nat) : Host δ := { h with clock := h.clock + milliseconds }

end Host

end DetectorLink
