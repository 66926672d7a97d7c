import DetectorLink.Link.Basic

/-!
# Opening links

A device of each kind is written in its own way: the adapter by the name of its device file, the
pipes by two names, the listener by host and port. A regular link takes charge of its device; a
debug link can be opened beside it on the adapter only.
-/

namespace DetectorLink.Link

variable {δ : Type} [Driver δ]

/-- Why a file of bytes is not the adapter. At the command offsets it answers with its own bytes,
and those of an accepted version are never an accepted status. -/
def plainRefusal (content : Bytes) : LinkError :=
  let answer (command n : Nat) := (content.drop command).take n
  match Hardware.checkVersion (.ok (answer DriverCommand.version 8)) with
  | .error e => e
  | .ok () =>
    match Hardware.checkStatus (.ok (answer DriverCommand.getStatus StatusBlock.byteCount)) with
    | .error e => e
    | .ok _ => .noData

/-- Open the adapter behind a device file. -/
def openAdapter (device : String) (interface : Interface) (debug : Bool) (host : Host δ) :
    Except LinkError Hardware × Host δ :=
  if interface = .socket then
    (.error (.invalidArgument "socket interface requires the socket backend"), host)
  else if Files.isUnaskable device then (.error .zeroInName, host)
  else match host.files.find device with
    | .error e => (.error (if e.code = 2 then .notFound device else .ofSystem e), host)
    | .ok (_, .directory) => (.error (.ofSystem ⟨21⟩), host)
    | .ok (_, .plain content) => (.error (plainRefusal content), host)
    | .ok (_, .fifo _) => (.error (plainRefusal []), host)
    | .ok (_, .device) =>
      let (r, driver) := Hardware.openDriver interface debug host.driver
      (r, { host with driver })

/-- Open a regular link. -/
def openRegular (device : String) (kind : LinkKind) (interface : Interface) (host : Host δ) :
    Except LinkError Link × Host δ :=
  let fresh (medium : Medium) : Link := ⟨medium, false, false⟩
  match kind with
  | .hardware =>
    let (r, host) := openAdapter device interface false host
    (r.map (fresh ∘ .hardware), host)
  | .pipe =>
    let (r, host) := Pipe.openDevice device host
    (r.map (fresh ∘ .pipe), host)
  | .socket => ((Socket.openDevice device host).map (fresh ∘ .socket), host)

/-- Open a debug link. -/
def openDebug (device : String) (kind : LinkKind) (host : Host δ) :
    Except LinkError Link × Host δ :=
  match kind with
  | .hardware =>
    let (r, host) := openAdapter device .optical true host
    (r.map fun adapter => ⟨.hardware adapter, true, false⟩, host)
  | .pipe | .socket =>
    (.error (.unsupported s!"debug handle on {kind.title} simulator"), host)

end DetectorLink.Link
