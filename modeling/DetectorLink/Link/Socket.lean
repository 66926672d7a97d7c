import DetectorLink.Link.Effect
import DetectorLink.Link.Host
import DetectorLink.Link.Intake
import DetectorLink.Link.Status
import DetectorLink.Packet.Basic

/-!
# Links over a listener

A simulated link that listens on a host and port and serves one client at a time. A client is
accepted by the first operation that needs one; after it has gone, the next one is waited for.
-/

namespace DetectorLink

/-- A client of the listener. One whose connection cannot be set up never was a client. -/
structure Client where
  /-- What it sends. -/
  incoming : Stream
  /-- What was sent to it. -/
  received : Bytes
  deriving DecidableEq, Repr

/-- Write bytes to a client, and whether the write failed. -/
def Client.write (client : Client) (data : Bytes) : Option WriteFault × Client :=
  let (fault?, incoming) := client.incoming.nextWrite data
  let written := match fault? with
    | none => data
    | some fault => fault.written data
  (fault?, { client with incoming, received := client.received ++ written })

/-- An open listener. -/
structure Socket where
  /-- Clients that connect at given times, in order. -/
  backlog : List (Nat × Client)
  /-- What becomes of the next attempts to accept a client. -/
  accepts : Schedule CallError
  /-- What becomes of the next waits for a client. -/
  polls : Schedule PollFault
  /-- The client that is served. -/
  client? : Option Client
  /-- Clients that are gone, latest first. -/
  gone : List Client
  /-- Reception is on. -/
  enabled : Bool
  /-- Received bytes that were not released. -/
  buffer : Bytes
  /-- The time. -/
  clock : Nat
  deriving DecidableEq, Repr

/-- An operation on a listener. -/
abbrev SocketM (α : Type) := LinkM Socket α

namespace Socket

/-- Size of the receive buffer. -/
def capacity : Nat := 1000 * Packet.maxLength

/-- A listener that nobody has connected to. -/
def fresh (clock : Nat) : Socket := ⟨[], [], [], none, [], false, [], clock⟩

/-- Listen on an address. -/
def openDevice {δ : Type} (device : String) (host : Host δ) : Except LinkError Socket :=
  ((host.listen device).mapError .ofCall).map fun _ => fresh host.clock

/-- Let go of the client. -/
def dropClient (s : Socket) : Socket :=
  { s with client? := none, gone := s.client?.toList ++ s.gone }

/-- Stop receiving, forget what was received and let go of the client. -/
def reset : SocketM Unit :=
  .change fun s => { s.dropClient with enabled := false, buffer := [] }

/-- Turn reception on or off. -/
def enableReceive (on : Bool) : SocketM Unit := .change fun s => { s with enabled := on }

/-- The first client that has connected and was not accepted, and those behind it. -/
def arrived? (s : Socket) : Option (Client × List (Nat × Client)) :=
  match s.backlog with
  | [] => none
  | (t, client) :: rest => if t ≤ s.clock then some (client, rest) else none

/-- The client that is served. If there is none, one that has connected is accepted. -/
def accept (s : Socket) : Except LinkError Client × Socket :=
  match s.client? with
  | some client => (.ok client, s)
  | none =>
    let (fault?, accepts) := s.accepts.next
    let s := { s with accepts }
    match fault?, s.arrived? with
    | some e, _ => (.error (if e.category = .wouldBlock then .notConnected else .ofCall e), s)
    | none, some (client, backlog) => (.ok client, { s with backlog, client? := some client })
    | none, none => (.error .notConnected, s)

/-- Wait until somebody has connected. -/
def awaitClient (deadline : Option Nat) (s : Socket) : Except LinkError Unit × Socket :=
  if deadline.any (· ≤ s.clock) then (.error .timeout, s)
  else
    let (fault?, polls) := PollFault.next s.polls
    match fault? with
    | some fault => (.error fault.error, { s with polls })
    | none =>
      let (happened, clock) :=
        awaitEvent s.clock (deadline.map (· - s.clock)) (s.backlog.head?.map (·.1))
      (if happened then .ok () else .error .timeout, { s with polls, clock })

/-- Rounds of accepting and waiting until a client is served, at most the given number. -/
def connectRounds (deadline : Option Nat) : Nat → Socket → Except LinkError Client × Socket
  | 0, s => (.error .timeout, s)
  | rounds + 1, s =>
    match s.accept with
    | (.error .notConnected, s) =>
      match s.awaitClient deadline with
      | (.ok (), s) => connectRounds deadline rounds s
      | (.error e, s) => (.error e, s)
    | r => r

/-- Wait until a client is served. Of the rounds that go on, each uses up an entry of the schedule,
but for the one in which somebody connects. -/
def connect (deadline : Option Nat) : SocketM Client :=
  .ofFun fun s => connectRounds deadline (s.accepts.length + 2) s

/-- Collect bytes from a client. One that has gone is let go of. -/
def receive (deadline : Option Nat) (client : Client) : SocketM Bytes :=
  .ofFun fun s =>
    let i : Intake := ⟨.connection, s.buffer, client.incoming, s.clock⟩
    let (r, i) := i.wait capacity deadline
    let s := { s with
      buffer := i.buffer, clock := i.clock, client? := some { client with incoming := i.stream } }
    match r with
    | .error .connectionReset => (r, s.dropClient)
    | _ => (r, s)

/-- Wait for received bytes. Without reception a wait would never end. -/
def wait (timeout : Option Nat) : SocketM Bytes := do
  let s ← .read
  if s.enabled then
    let deadline := timeout.map (s.clock + ·)
    receive deadline (← connect deadline)
  else .fail .notConnected

/-- Release bytes from the start of the buffer, at most all of them. -/
def acknowledge (n : Nat) : SocketM Unit :=
  .change fun s => { s with buffer := s.buffer.drop n }

/-- Send bytes to the client. One that has closed its end still takes them; one to which a write
fails is let go of. -/
def send (data : Bytes) : SocketM Nat :=
  .ofFun fun s =>
    match s.accept with
    | (.error e, s) => (.error e, s)
    | (.ok client, s) =>
      let (fault?, client) := client.write data
      let s := { s with client? := some client }
      match fault? with
      | none => (.ok data.length, s)
      | some _ => (.error .connectionReset, s.dropClient)

/-- Description of the simulated board. -/
def status (s : Socket) : BoardStatus := .simulated .socket s.enabled capacity s.buffer.length

end Socket

end DetectorLink
