import DetectorLink.HardwareId
import DetectorLink.Packet.Error
import DetectorLink.Packet.Info

/-!
# Framed pass-through commands

An aggregator relays a pass-through command to its submodules as a stream of frames of 16 data
bits, each kept in one payload word:

* bits 0 to 15 hold data, bit 16 the parity and bit 17 the stop flag;
* the info word is the first frame, with even parity over its low 24 bits;
* every other frame has even parity over its low 18 bits and no higher bit;
* a unicast command starts with two frames holding the destination, low half first;
* each payload word follows as two frames, low half first;
* the last frame, or the header if there is none, carries the stop flag.
-/

namespace DetectorLink.Lvds

/-- Number of set bits. -/
def oneBits (w : UInt32) : Nat := (List.range 32).countP fun i => w.toNat.testBit i

/-- The bit that makes the number of set bits even. -/
def parity (w : UInt32) : UInt32 := UInt32.ofNat (oneBits w % 2)

/-- Data bits of a frame. -/
def dataMask : UInt32 := 0xFFFF

/-- Parity bit of a frame. -/
def parityBit : UInt32 := 0x10000

/-- Stop flag of a frame. -/
def stopBit : UInt32 := 0x20000

/-- Bits of the header covered by its parity. -/
def headerBits : UInt32 := 0x00FFFFFF

/-- Bits that a frame may use, all of them covered by its parity. -/
def frameBits : UInt32 := 0x0003FFFF

/-- True if `frame` has even parity and uses no bit beyond its own. -/
def frameParityOk (frame : UInt32) : Bool :=
  frame &&& ~~~frameBits == 0 && parity (frame &&& frameBits) == 0

/-- True if the header has even parity. -/
def headerParityOk (raw : UInt32) : Bool := parity (raw &&& headerBits) == 0

/-- The frame of the low half of `half`. -/
def dataFrame (half : UInt32) : UInt32 :=
  (half &&& dataMask) ||| (parity (half &&& dataMask) <<< 16)

/-- Both frames of a word, low half first. -/
def wordFrames (w : UInt32) : List UInt32 := [dataFrame w, dataFrame (w >>> 16)]

/-- Who listens to a framed command. -/
inductive Addressing where
  /-- Every submodule of the link. -/
  | broadcast
  /-- One submodule, named by the first two frames. -/
  | unicast
  deriving DecidableEq, Repr

/-- Addressing that a destination implies. -/
def Addressing.ofDestination (destination : UInt32) : Addressing :=
  if destination = HardwareId.broadcast then .broadcast else .unicast

/-- Flags that every framed command carries. -/
def requiredFlags : UInt32 :=
  CommandFlag.isCommand ||| CommandFlag.isPassthru ||| CommandFlag.lvdsCommand
    ||| CommandFlag.lvdsStart

/-- Flags that only the framing uses. -/
def framingFlags : UInt32 :=
  CommandFlag.lvdsParity ||| CommandFlag.lvdsStop ||| CommandFlag.lvdsStart
    ||| CommandFlag.lvdsCommand

/-- The header frame without its stop flag. -/
def header (info : CommandInfo) : UInt32 :=
  let raw := ((info.set requiredFlags).clear
    (CommandFlag.lvdsParity ||| CommandFlag.lvdsStop)).toRaw
  raw ||| (parity (raw &&& headerBits) <<< 16)

/-- Set the stop flag of the last frame, keeping its parity even. -/
def stopLast : List UInt32 → List UInt32
  | [] => []
  | [frame] => [(frame ||| stopBit) ^^^ parityBit]
  | frame :: rest => frame :: stopLast rest

/-- Header and frames of a command. -/
def encode (info : CommandInfo) (destination : UInt32) (words : List UInt32) :
    UInt32 × List UInt32 :=
  let address :=
    match Addressing.ofDestination destination with
    | .broadcast => []
    | .unicast => wordFrames destination
  match address ++ words.flatMap wordFrames with
  | [] => ((header info ||| CommandFlag.lvdsStop) ^^^ parityBit, [])
  | frames => (header info, stopLast frames)

/-- A command recovered from its frames. -/
structure Decoded where
  /-- Command word without the framing flags. -/
  info : CommandInfo
  /-- Destination, that of a broadcast if nobody is named. -/
  destination : UInt32
  /-- Payload words. -/
  words : List UInt32
  deriving DecidableEq, Repr

/-- Data halves of the frames from number `index` on. Each frame needs even parity, and the last
one alone a stop flag. -/
def halves (index : Nat) : List UInt32 → Except CodecError (List UInt32)
  | [] => .ok []
  | frame :: rest =>
    if !frameParityOk frame then .error (.parity index)
    else if (frame &&& stopBit != 0) != rest.isEmpty then .error (.framing index)
    else (halves (index + 1) rest).map ((frame &&& dataMask) :: ·)

/-- A word from its halves. -/
def joinHalves (low high : UInt32) : UInt32 := low ||| (high <<< 16)

/-- Words from consecutive halves. -/
def pairs : List UInt32 → List UInt32
  | low :: high :: rest => joinHalves low high :: pairs rest
  | _ => []

/-- Destination and payload halves. -/
def splitDestination (addressing : Addressing) (hs : List UInt32) :
    Except CodecError (UInt32 × List UInt32) :=
  match addressing, hs with
  | .broadcast, hs => .ok (HardwareId.broadcast, hs)
  | .unicast, low :: high :: rest => .ok (joinHalves low high, rest)
  | .unicast, hs => .error (.truncated 2 hs.length)

/-- The command of a header and its frames. Refuses bad parity and misplaced start or stop flags. -/
def decode (raw : UInt32) (frames : List UInt32) (addressing : Addressing) :
    Except CodecError Decoded := do
  let some info := CommandInfo.ofRaw? raw | .error .notLvds
  if !info.has requiredFlags then .error .notLvds
  else if !headerParityOk raw then .error (.parity 0)
  else if info.has CommandFlag.lvdsStop != frames.isEmpty then .error (.framing 0)
  else
    let hs ← halves 1 frames
    let (destination, data) ← splitDestination addressing hs
    if data.length % 2 != 0 then .error (.misaligned (data.length * 2))
    else .ok ⟨info.clear framingFlags, destination, pairs data⟩

end DetectorLink.Lvds
