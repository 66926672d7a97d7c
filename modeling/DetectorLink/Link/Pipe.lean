import DetectorLink.Link.Host
import DetectorLink.Link.Intake
import DetectorLink.Link.Status
import DetectorLink.Packet.Basic
import DetectorLink.Text.Blank

/-!
# Links over named pipes

A simulated link that receives from one named pipe and sends into another. The device is written
as the two names with a comma between them; a pipe that does not exist is created.
-/

namespace DetectorLink

/-- An open pair of named pipes. -/
structure Pipe where
  /-- The pipe to receive from. -/
  rx : FilePath
  /-- The pipe to send into. -/
  tx : FilePath
  /-- Reception is on. -/
  enabled : Bool
  /-- Received bytes that were not released. -/
  buffer : Bytes
  deriving DecidableEq, Repr

/-- An operation on a pair of pipes. -/
abbrev PipeM (δ α : Type) := LinkM (Pipe × Host δ) α

namespace Pipe

variable {δ : Type}

/-- Size of the receive buffer. -/
def capacity : Nat := 16 * Packet.maxLength

/-- The two names of a device: what is before and after the first comma, without blanks around.
Neither may be missing. -/
def splitDevice (device : String) : Except LinkError (String × String) :=
  let cs := device.toList
  let rx := cs.takeWhile (· != ',')
  match cs.dropWhile (· != ',') with
  | _ :: tx =>
    if rx.isEmpty || tx.isEmpty then refused
    else .ok (Text.trim (String.ofList rx), Text.trim (String.ofList tx))
  | [] => refused
where
  /-- The refusal of a device. -/
  refused := .error (.invalidArgument s!"pipe device must be \"<rx>,<tx>\", got \"{device}\"")

/-- Find a named pipe, creating it if nothing has its name. -/
def ensureFifo (name : String) (files : Files) : Except LinkError (FilePath × Files) :=
  if Files.isUnaskable name then .error (.ofErrno ⟨22⟩ name)
  else match files.resolve name with
  | .ok (path, some (.fifo _)) => .ok (path, files)
  | .ok (_, some _) => .error (.invalidArgument s!"{name} exists and is not a FIFO")
  | .ok (path, none) => .ok (path, files.put path (.fifo .empty))
  | .error e =>
    .error (.ofErrno e (if e.code = 2 then s!"mkfifo {name}" else name))

/-- Open a pair of named pipes. The first may have been created when the second fails. -/
def openDevice (device : String) (host : Host δ) : Except LinkError Pipe × Host δ :=
  match splitDevice device with
  | .error e => (.error e, host)
  | .ok (rxName, txName) =>
    match ensureFifo rxName host.files with
    | .error e => (.error e, host)
    | .ok (rx, files) =>
      match ensureFifo txName files with
      | .error e => (.error e, { host with files })
      | .ok (tx, files) => (.ok ⟨rx, tx, false, []⟩, { host with files })

/-- Stop receiving and forget what was received. -/
def reset : PipeM δ Unit :=
  .change fun (p, host) => ({ p with enabled := false, buffer := [] }, host)

/-- Turn reception on or off. -/
def enableReceive (on : Bool) : PipeM δ Unit :=
  .change fun (p, host) => ({ p with enabled := on }, host)

/-- The receive buffer with what arrives for it. -/
def intake (p : Pipe) (host : Host δ) : Intake :=
  ⟨.pipe, p.buffer, host.files.queue p.rx, host.clock⟩

/-- Take over what became of the receive buffer. -/
def settle (p : Pipe) (host : Host δ) (i : Intake) : Pipe × Host δ :=
  ({ p with buffer := i.buffer },
    { host with clock := i.clock, files := host.files.setQueue p.rx i.stream })

/-- Wait for received bytes. Without reception a wait would never end. -/
def wait (timeout : Option Nat) : PipeM δ Bytes :=
  .ofFun fun (p, host) =>
    if p.enabled then
      let (r, i) := (p.intake host).wait capacity (timeout.map (host.clock + ·))
      (r, p.settle host i)
    else (.error .notConnected, (p, host))

/-- Release bytes from the start of the buffer, at most all of them. -/
def acknowledge (n : Nat) : PipeM δ Unit :=
  .change fun (p, host) => ({ p with buffer := p.buffer.drop n }, host)

/-- Send bytes. -/
def send (data : Bytes) : PipeM δ Nat :=
  .ofFun fun (p, host) =>
    let (r, host) := host.send p.tx data
    ((r.mapError .ofCall).map fun _ => data.length, (p, host))

/-- Description of the simulated board. -/
def status (p : Pipe) : BoardStatus := .simulated .optical p.enabled capacity p.buffer.length

end Pipe

end DetectorLink
