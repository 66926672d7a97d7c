import DetectorLink.Config.Basic
import DetectorLink.Link.Source
import DetectorLink.Module.Error
import DetectorLink.Module.Response
import DetectorLink.Module.Timer
import DetectorLink.Packet.Build

/-!
# Commands to one module

A commander has at most one command outstanding. Sending a command arms a timer; the answer that
matches cancels it, and a timer that wins makes the command unanswered. Whichever of the two comes
first ends the command, so each command has one outcome. The steps are those between which other
steps may happen: `decide` matches an answer, `complete` draws its consequences, `expire` gives an
unanswered command up.
-/

namespace DetectorLink

/-- A command that waits for its answer. -/
structure Outstanding where
  /-- The command. -/
  command : Command
  /-- Its number among the commands sent. -/
  sequence : Nat
  deriving DecidableEq, Repr

/-- A module, the state of the talk with it, and the handler of its answers. -/
structure Commander (η : Type) where
  /-- The module. -/
  config : ModuleConfig
  /-- The command that waits for its answer. -/
  outstanding : Option Outstanding
  /-- Number of commands sent. -/
  sequence : Nat
  /-- Verification of the module. -/
  verify : Verification
  /-- Timer of the answer; its callback is the number of a command. -/
  timer : Timer Nat
  /-- Handler of the answers. -/
  handler : η

namespace Commander

variable {η σ : Type}

/-- A commander that has sent nothing. -/
def fresh (config : ModuleConfig) (handler : η) : Commander η :=
  ⟨config, none, 0, .start, .idle, handler⟩

variable (c : Commander η)

/-- Address of the module. -/
def address : UInt32 := c.config.hardwareId.raw

/-- True while a command is outstanding. -/
def isBusy : Bool := c.outstanding.isSome

/-- State of the verification. -/
def verifyState : VerifyState := c.verify.current

/-- Begin the verification again. -/
def restartVerification : Commander η := { c with verify := c.verify.force .init }

/-- The packet that carries a command to a module. -/
def buildPacket (config : ModuleConfig) (command : Command) (channel : UInt8)
    (payload : List UInt32) : Except CodecError Packet :=
  match config.path with
  | .direct => Packet.direct config.hardwareId.raw command channel payload
  | .lvds => Packet.passThrough config.hardwareId.raw command channel (Word.toByteList payload)

/-- Arm the timer for a command, in place of a callback that is still pending. -/
def arm (now : Nat) (sequence : Nat) : Timer Nat :=
  match c.timer.schedule now c.config.responseTimeout sequence with
  | (true, t) => t
  | (false, t) => (t.cancel.2.schedule now c.config.responseTimeout sequence).2

/-- Make a command that was sent the outstanding one. -/
def await (now : Nat) (command : Command) : Commander η :=
  let sequence := c.sequence + 1
  { c with outstanding := some ⟨command, sequence⟩, sequence, timer := c.arm now sequence }

/-- Send a command at time `now`. A refused one changes nothing. Channels count from one, 0 is the
whole module. -/
def send (sink : Sink σ) (now : Nat) (command : Command) (channel : UInt8)
    (payload : List UInt32) (s : σ) : Except ModuleError Unit × Commander η × σ :=
  match c.outstanding with
  | some o => (.error (.busy c.config.hardwareId o.command), c, s)
  | none =>
    match buildPacket c.config command channel payload with
    | .error e => (.error (.codec e), c, s)
    | .ok packet =>
      match (sink.send packet.bytes).exec s with
      | (.error e, s) => (.error (.link e), c, s)
      | (.ok _, s) => (.ok (), c.await now command, s)

/-- The command that a packet from the module answers. -/
def answered? (packet : Packet) : Option Command :=
  if packet.isResponse && packet.sourceAddress == c.address then packet.responseType? else none

/-- Match a packet with the outstanding command. It wins unless the timer has run out. -/
def decide (packet : Packet) : Option Command × Commander η :=
  match c.answered? packet, c.outstanding with
  | some answered, some o =>
    if o.command = answered then
      match c.timer.cancel with
      | (true, timer) => (some answered, { c with outstanding := none, timer })
      | (false, timer) => (none, { c with timer })
    else (none, c)
  | _, _ => (none, c)

/-- Draw the consequences of an answer. -/
def complete [ResponseHandler η] (command : Command) (packet : Packet) : Outcome × Commander η :=
  let (action, handler) := ResponseHandler.respond command packet c.handler
  let verify := match action with
    | some a => (c.verify.apply a).2
    | none => c.verify
  (.response command action, { c with handler, verify })

/-- Take a received packet. The outcome is that of the command it answers. -/
def handlePacket [ResponseHandler η] (packet : Packet) : Option Outcome × Commander η :=
  match c.decide packet with
  | (some command, c) => let (outcome, c) := c.complete command packet; (some outcome, c)
  | (none, c) => (none, c)

/-- Take packets one after the other. -/
def handleAll [ResponseHandler η] (packets : List Packet) : Commander η :=
  packets.foldl (fun c p => (c.handlePacket p).2) c

/-- Give up the command with a number, if it is still outstanding. -/
def expire (sequence : Nat) : Option Outcome × Commander η :=
  match c.outstanding with
  | some o =>
    if o.sequence = sequence then
      (some (.timeout o.command), { c with outstanding := none, verify := (c.verify.apply .timeout).2 })
    else (none, c)
  | none => (none, c)

/-- The timer's worker takes the callback that is due. -/
def takeDue? (now : Nat) : Option (Nat × Commander η) :=
  (c.timer.takeDue? now).map fun (sequence, timer) => (sequence, { c with timer })

/-- Let the timer run out if it is due. -/
def tick (now : Nat) : Option Outcome × Commander η :=
  match c.takeDue? now with
  | none => (none, c)
  | some (sequence, c) =>
    let (outcome, c) := c.expire sequence
    (outcome, { c with timer := c.timer.finish now sequence none })

end Commander

end DetectorLink
