import DetectorLink.Link.Hardware
import DetectorLink.Link.Pipe
import DetectorLink.Link.Socket
import DetectorLink.Link.Source

/-!
# Links

A link is opened on a device of one of three kinds and then behaves the same whatever stands behind
it: it is reset, receives windows of bytes, releases them, sends packets, and tells the status of
its board. A debug link looks on while another one is in charge: it may reset the board, read and
look at registers, but neither releases nor sends anything.
-/

namespace DetectorLink

/-- What stands behind an open link. -/
inductive Medium where
  /-- The link adapter. -/
  | hardware (adapter : Hardware)
  /-- Named pipes. -/
  | pipe (pipe : Pipe)
  /-- A listener. -/
  | socket (socket : Socket)

/-- An open link. -/
structure Link where
  /-- What stands behind it. -/
  medium : Medium
  /-- It only looks on. -/
  debug : Bool
  /-- Reception was turned on through it. -/
  rxEnabled : Bool

/-- An operation on a link and its host. -/
abbrev LinkIO (δ α : Type) := LinkM (Link × Host δ) α

namespace Link

variable {δ : Type} [Driver δ] {α : Type}

/-- Kind of a link. -/
def kind (link : Link) : LinkKind :=
  match link.medium with
  | .hardware _ => .hardware
  | .pipe _ => .pipe
  | .socket _ => .socket

/-- Let what stands behind the link do its part. -/
def onMedium (adapter : HardwareM δ α) (pipe : PipeM δ α) (socket : SocketM α) : LinkIO δ α :=
  .ofFun fun (link, host) =>
    match link.medium with
    | .hardware h =>
      let (r, (h, driver)) := adapter.exec (h, host.driver)
      (r, ({ link with medium := .hardware h }, { host with driver }))
    | .pipe p =>
      let (r, (p, host)) := pipe.exec (p, host)
      (r, ({ link with medium := .pipe p }, host))
    | .socket s =>
      let (r, s) := socket.exec { s with clock := host.clock }
      (r, ({ link with medium := .socket s }, { host with clock := s.clock }))

/-- Refuse an operation on a debug link. -/
def restrict (operation : String) : LinkIO δ Unit :=
  .ofFun fun (link, host) =>
    (if link.debug then .error (.restricted operation) else .ok (), (link, host))

/-- Remember whether reception is on. -/
def setReceiving (on : Bool) : LinkIO δ Unit :=
  .change fun (link, host) => ({ link with rxEnabled := on }, host)

/-- Reset the link; reception is off afterwards. -/
def reset : LinkIO δ Unit := do
  onMedium Hardware.reset Pipe.reset Socket.reset
  setReceiving false

/-- Turn reception on or off. When it comes on the link is reset first, so that it does not resume
in the middle of a packet. -/
def enableReceive (on : Bool) : LinkIO δ Unit := do
  restrict "enable_receive"
  if on && !(← LinkM.read).1.rxEnabled then reset
  onMedium (Hardware.enableReceive on) (Pipe.enableReceive on) (Socket.enableReceive on)
  setReceiving on

/-- Wait for bytes and show those that were not released. -/
def wait (timeout : Option Nat) : LinkIO δ Bytes :=
  onMedium (Hardware.wait timeout) (Pipe.wait timeout) (Socket.wait timeout)

/-- Release bytes without asking whether the link may. -/
def releaseBytes (n : Nat) : LinkIO δ Unit :=
  onMedium (Hardware.acknowledge n) (Pipe.acknowledge n) (Socket.acknowledge n)

/-- Release bytes from the start of the last window. -/
def acknowledge (n : Nat) : LinkIO δ Unit := do
  restrict "acknowledge"
  releaseBytes n

/-- Take at most `max` bytes, in whole words. A debug link leaves them where they are. -/
def read (max : Nat) (timeout : Option Nat) : LinkIO δ Bytes := do
  let window ← wait timeout
  let count := alignDown (min window.length max)
  if !(← LinkM.read).1.debug then releaseBytes count
  return window.take count

/-- Refusal of a simulated link. -/
def unavailable (what : String) {σ : Type} : LinkM σ α := .fail (.unsupported what)

/-- Receive packets with link errors too. -/
def enableErrorPackets (on : Bool) : LinkIO δ Unit := do
  restrict "enable_error_packets"
  onMedium (Hardware.enableErrorPackets on) (unavailable "error packet reception")
    (unavailable "error packet reception")

/-- Keep packets from before the last reset. -/
def enableOldPackets (on : Bool) : LinkIO δ Unit := do
  restrict "enable_old_packets"
  onMedium (Hardware.enableOldPackets on) (unavailable "old packet reception")
    (unavailable "old packet reception")

/-- Send a packet. -/
def send (data : Bytes) : LinkIO δ Nat := do
  restrict "send"
  onMedium (Hardware.send data) (Pipe.send data) (Socket.send data)

/-- Status of the board. -/
def status : LinkIO δ BoardStatus :=
  onMedium (BoardStatus.ofBlock <$> Hardware.readStatus) ((·.1.status) <$> LinkM.read)
    (Socket.status <$> LinkM.read)

/-- Refuse a register access that no board allows. -/
def checkRegister (bar offset : Nat) : Except LinkError Unit :=
  if offset % 4 ≠ 0 then
    .error (.invalidArgument s!"register offset {Numeral.marked 1 offset} is not 4-byte aligned")
  else if bar ≥ barCount then .error (.unsupported s!"BAR{bar}")
  else .ok ()

/-- Read register words. -/
def registerRead (bar offset count : Nat) : LinkIO δ (List UInt32) := do
  LinkM.lift (checkRegister bar offset)
  onMedium (Hardware.registerRead bar offset count)
    (unavailable "register access on pipe simulator")
    (unavailable "register access on socket simulator")

/-- Write register words. -/
def registerWrite (bar offset : Nat) (words : List UInt32) : LinkIO δ Unit := do
  LinkM.lift (checkRegister bar offset)
  onMedium (Hardware.registerWrite bar offset words)
    (unavailable "register access on pipe simulator")
    (unavailable "register access on socket simulator")

/-- What a link shows and releases. -/
def source : Source (Link × Host δ) := ⟨wait, acknowledge⟩

/-- What a link sends. -/
def sink : Sink (Link × Host δ) := ⟨send⟩

/-- The clock of a link's host. -/
def clock : Clock (Link × Host δ) where
  now s := s.2.clock
  sleep n s := (s.1, s.2.sleep n)

end Link

end DetectorLink
