import DetectorLink.Packet.Walk

/-!
# Windows shared by several consumers

A window of received bytes is installed with one implicit holder. While it is held, consumers may
reserve it, walk its packets and mark how far they have processed it. Once the holder and every
reservation are gone, the furthest mark tells how much of the window is done, and another window
may be installed.
-/

namespace DetectorLink

/-- A packet with its offset in the reserved window, if it comes from there. -/
structure Placed where
  /-- Offset in the window; none for a packet from elsewhere. -/
  offset? : Option Nat
  /-- The packet. -/
  packet : Packet
  deriving DecidableEq, Repr

/-- A consumer's hold on a window. -/
structure Reservation where
  /-- The window. -/
  bytes : Bytes
  deriving DecidableEq, Repr

namespace Reservation

variable (r : Reservation)

/-- The complete packet of an allowed length at `offset`, without the bytes behind it. -/
def packetAt? (offset : Nat) : Option Placed :=
  if r.bytes.covers offset then
    (Packet.first? (r.bytes.drop offset)).map fun p => ⟨some offset, p⟩
  else none

/-- The first packet. -/
def first? : Option Placed := r.packetAt? 0

/-- Offset of a packet of this window; one behind the window's end does not count. -/
def offsetOf? (p : Placed) : Option Nat := p.offset?.filter fun o => r.bytes.covers (o + 1)

/-- The packet after `current`. -/
def next? (current : Placed) : Option Placed := do
  let start ← r.offsetOf? current
  r.packetAt? (start + current.packet.length)

/-- A packet and those after it, at most the given number of them. -/
def follow : Nat → Option Placed → List Placed
  | 0, _ | _, none => []
  | n + 1, some p => p :: follow n (r.next? p)

/-- Give every packet of a list the offset at which it starts. -/
def place (offset : Nat) : List Packet → List Placed
  | [] => []
  | p :: ps => ⟨some offset, p⟩ :: place (offset + p.length) ps

/-- The packets of the window. -/
def packets : List Placed := place 0 (Packet.walk r.bytes)

/-- The packets of the window, without their places. -/
def packetList : List Packet := r.packets.map (·.packet)

/-- The packet that starts at `offset` with every byte of the window after it. -/
def parseAt? (offset : Nat) : Option Placed :=
  if r.bytes.covers offset then
    ((Packet.parse (r.bytes.drop offset)).toOption).map fun p => ⟨some offset, p⟩
  else none

/-- Where a packet ends, counted from the start of the window. -/
def endOf? (last : Placed) : Option Nat := (r.offsetOf? last).map (· + last.packet.length)

end Reservation

/-- A window with the count of those who hold it. -/
structure SharedWindow where
  /-- The installed window. -/
  window? : Option Bytes
  /-- The implicit holder is still there. -/
  held : Bool
  /-- Number of reservations. -/
  reservations : Nat
  /-- Furthest end of a packet marked as processed. -/
  consumed : Nat
  deriving DecidableEq, Repr

namespace SharedWindow

/-- Nothing installed, nobody holding. -/
def empty : SharedWindow := ⟨none, false, 0, 0⟩

variable (w : SharedWindow)

/-- Number of holders. -/
def refcount : Nat := w.reservations + w.held.toNat

/-- Install a window with its implicit holder; while the former one is still held, the new one is
handed back. -/
def install (bytes : Bytes) : Except Bytes SharedWindow :=
  if w.refcount = 0 then .ok { w with window? := some bytes, held := true, consumed := 0 }
  else .error bytes

/-- What is left after a window was installed, if it was not handed back. -/
def install? (bytes : Bytes) : Option SharedWindow := (w.install bytes).toOption

/-- Reserve the window, as long as it is held. -/
def reserve? : Option (Reservation × SharedWindow) :=
  if w.refcount = 0 then none
  else w.window?.map fun bytes => (⟨bytes⟩, { w with reservations := w.reservations + 1 })

/-- Give a reservation back. -/
def dropReservation : SharedWindow := { w with reservations := w.reservations - 1 }

/-- Drop the implicit holder; a second time changes nothing. -/
def release : SharedWindow := { w with held := false }

/-- Mark everything up to and including `last`, as seen by the holder of `r`. -/
def mark (r : Reservation) (last : Placed) : SharedWindow :=
  match r.endOf? last with
  | some stop => { w with consumed := max w.consumed stop }
  | none => w

/-- How far the window was processed, once nobody holds it. -/
def released? : Option Nat := if w.refcount = 0 then some w.consumed else none

/-- Take the window out, once nobody holds it. -/
def take? : Option (Bytes × SharedWindow) :=
  if w.refcount = 0 then w.window?.map fun bytes => (bytes, { w with window? := none }) else none

end SharedWindow

end DetectorLink
