import DetectorLink.Dispatch
import DetectorLink.Tool.Record

/-!
# Dumping packets

A dump prints a record of every packet until it has shown as many as asked for, nothing has arrived
for a while, or it is interrupted. The last packet that is shown is marked, so that whatever lies
behind it is left to the next reader.
-/

namespace DetectorLink

/-- What a dump is asked for. -/
structure DumpRequest where
  /-- Number of packets to show, if it is limited. -/
  limit : Option Nat
  /-- Milliseconds without data after which to stop. -/
  idle : Option Nat
  /-- Milliseconds that one wait lasts. -/
  poll : Nat
  /-- Print JSON. -/
  json : Bool
  deriving DecidableEq, Repr

/-- A dump under way. -/
structure Dump where
  /-- Packets taken. -/
  seen : Nat
  /-- Packets taken and not printed yet. -/
  records : List PacketRecord
  /-- Lines printed. -/
  lines : List String
  /-- When data arrived last. -/
  lastData : Nat
  deriving DecidableEq, Repr

namespace Dump

/-- A dump that begins. -/
def start (now : Nat) : Dump := ⟨0, [], [], now⟩

variable (request : DumpRequest)

/-- True once as many packets were taken as asked for. -/
def isDone (d : Dump) : Bool := request.limit.any (· ≤ d.seen)

/-- Take packets, as many as are still asked for. The one that completes the dump is marked. -/
def take (d : Dump) : List Placed → List Placed × Dump
  | [] => ([], d)
  | p :: ps =>
    if d.isDone request then ([], d)
    else
      let d := { d with seen := d.seen + 1, records := d.records ++ [.ofPacket p.packet] }
      if d.isDone request then ([p], d) else take d ps

/-- The text of a record. -/
def render (r : PacketRecord) : String := if request.json then r.toJson.compact else r.line

/-- Print what was taken. -/
def print (d : Dump) : Dump :=
  { d with records := [], lines := d.lines ++ d.records.map (render request) }

/-- The dump as a handler of windows. -/
def handler : Handler Dump := fun reservation d => d.take request reservation.packets

variable {σ : Type} (source : Source σ) (clock : Clock σ)

/-- State of a dump: counters, the source's state and the dump. -/
abbrev Running (σ : Type) := DispatchStats × (σ × Dump)

/-- Work on the dump itself. -/
def change (f : σ → Dump → Dump) : LinkM (Running σ) Unit :=
  .change fun (stats, (s, d)) => (stats, (s, f s d))

/-- The handler in the state of a running dump. -/
def runningHandler : Handler (σ × Dump) := fun reservation (s, d) =>
  let (marks, d) := (handler request reservation).run d
  (marks, (s, d))

/-- Dispatch one window and print what it brought. -/
def round : LinkM (Running σ) Unit := do
  match ← LinkM.outcome (Dispatch.once (source.within .first) [runningHandler request]
      (some request.poll)) with
  | .ok 0 => LinkM.change fun (stats, (s, d)) => (stats, (clock.sleep 1 s, d))
  | .ok _ => change fun s d => { d with lastData := clock.now s }
  | .error .timeout => pure ()
  | .error e => .fail e
  change fun _ d => d.print request

/-- True if nothing has arrived for as long as the dump waits. -/
def isIdle (s : σ) (d : Dump) : Bool :=
  request.idle.any fun idle => idle ≤ clock.now s - d.lastData

/-- Dump until the request is met or the given number of rounds is over. -/
def rounds : Nat → LinkM (Running σ) Unit
  | 0 => pure ()
  | n + 1 => do
    if (← LinkM.read).2.2.isDone request then return
    round request source clock
    let (_, (s, d)) ← LinkM.read
    if isIdle request clock s d then return
    rounds n

end Dump

end DetectorLink
