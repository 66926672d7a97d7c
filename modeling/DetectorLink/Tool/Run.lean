import DetectorLink.Ring.Copier
import DetectorLink.Tool.Command
import DetectorLink.Tool.Dump
import DetectorLink.Tool.Inquiry

/-!
# Running commands

`Session.dump` prints received packets. A debug link is read once, because it cannot release
anything; a regular one is read through a ring, with a copier in between if the configuration asks
for one. `Session.run` carries out any command.
-/

namespace DetectorLink.Session

variable {δ : Type} [Driver δ]

/-- Packets of the longest kind that a debug link is read for at once. -/
def peekPackets : Nat := 16

/-- Print a dump's lines. -/
def printDump (d : Dump) : SessionM δ Unit := printLines d.lines

/-- Print what a debug link shows. -/
def peek (request : DumpRequest) (link : Link) : SessionM δ Unit := do
  let timeout := request.idle.getD request.poll
  let (window, _) ← onLink link (Link.read (Packet.maxLength * peekPackets) (some timeout))
  let (_, dump) := Dispatch.visitAll [Dump.handler request] window (Dump.start 0)
  printDump (dump.print request)

/-- Dump from a ring over a link, printing also what came before a failure. -/
def dumpFrom {ρ : Type} (request : DumpRequest) (rounds : Nat) (ring : ρ)
    (source : Source (ρ × (Link × Host δ))) (link : Link) :
    SessionM δ (Except ToolError Unit × Link) := do
  let clock : Clock (ρ × (Link × Host δ)) := Link.clock.within .second
  let (r, dump, link) ← .ofFun fun s =>
    let (r, (_, ((_, (link, host)), dump))) :=
      (Dump.rounds request source clock rounds).exec
        (.zero, ((ring, (link, s.host)), Dump.start s.host.clock))
    (.ok (r.mapError .link, dump, link), { s with host })
  printDump dump
  return (r, link)

/-- Print received packets, at most `count`, until nothing arrives for `idle` milliseconds. -/
def dump (settings : Settings) (count idle : Option Nat) : SessionM δ Unit := do
  let request : DumpRequest := ⟨count, idle, settings.poll, settings.json⟩
  let size := settings.config.link.localBufferSize
  let link ← openLink settings
  if link.debug then peek request link
  else
    let (_, link) ← onLink link (Link.enableReceive true)
    let (r, link) ←
      if size > 0 then
        let ring ← .lift ((CopiedRing.start size).mapError .link)
        let source := CopiedRing.source Link.source Link.clock settings.rounds
        dumpFrom request settings.rounds ring source link
      else
        let (status, link) ← onLink link Link.status
        let ring := DirectRing.ofSize status.regionSize
        dumpFrom request settings.rounds ring (DirectRing.source Link.source) link
    let _ ← onLink link (Link.enableReceive false)
    .lift r

/-- Carry out a command. -/
def run (settings : Settings) : ToolCommand → SessionM δ Unit
  | .status => status settings
  | .dump count idle => dump settings count idle
  | .discover window => discover settings window
  | .verify => verify settings
  | .read bar offset count => readRegisters settings bar offset count
  | .write bar offset values => writeRegisters settings bar offset values
  | .reset => resetLink settings

end DetectorLink.Session
