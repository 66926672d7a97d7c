import DetectorLink.Packet.Basic

/-!
# Building packets

Outgoing packets are assembled from header fields and payload words; complete packets are copied
out of received bytes. Nothing longer than the longest packet is built.
-/

namespace DetectorLink.Packet

/-- A packet of the given fields and payload words. -/
def ofWords (destination source info : UInt32) (payload : List UInt32) :
    Except CodecError Packet :=
  let length := Header.byteCount + 4 * payload.length
  if maxLength < length then .error (.payloadTooLong length maxLength)
  else .ok ⟨⟨destination, source, info, UInt32.ofNat (4 * payload.length), 0, 0⟩,
    Word.toByteList payload⟩

/-- The complete packet at the start of `b`, without what follows it. -/
def complete (b : Bytes) : Except CodecError Packet := do
  let p ← parse b
  if p.length = 0 then .error (.misaligned p.declaredLength)
  else if !b.covers p.length then .error (.truncated p.length b.length)
  else .ok { p with rest := p.rest.take (p.length - Header.byteCount) }

/-- A command for a module that is reached directly. Channels count from one, 0 is none. -/
def direct (destination : UInt32) (command : Command) (channel : UInt8)
    (payload : List UInt32) : Except CodecError Packet :=
  ofWords destination HardwareId.self ((CommandInfo.request command).withChannel channel).toRaw
    payload

/-- Length of a framed command with `n` payload bytes. -/
def framedLength (destination : UInt32) (n : Nat) : Nat :=
  Header.byteCount + (2 * alignUp n + if destination = HardwareId.broadcast then 0 else 8)

/-- A pass-through command for a submodule. The header goes to everyone, the frames name the
destination, and a partial payload word is completed with zero bytes. -/
def passThrough (destination : UInt32) (command : Command) (channel : UInt8)
    (payload : Bytes) : Except CodecError Packet :=
  let length := framedLength destination payload.length
  if maxLength < length then .error (.payloadTooLong length maxLength)
  else
    let (raw, frames) := Lvds.encode ((CommandInfo.request command).withChannel channel)
      destination (Word.ofPadded payload)
    ofWords HardwareId.broadcast HardwareId.self raw frames

end DetectorLink.Packet
