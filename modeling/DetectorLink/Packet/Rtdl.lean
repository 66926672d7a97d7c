/-!
# Pulse headers

The real-time data link describes every accelerator pulse in six words: its time, charge and
flavor, the veto status of the previous cycle and the timing offsets.
-/

namespace DetectorLink

/-- Flavor of the next pulse. -/
inductive PulseFlavor where
  /-- No beam. -/
  | noBeam
  /-- Beam to the first target. -/
  | target1
  /-- Beam to the second target. -/
  | target2
  /-- Diagnostic pulse of 10 microseconds. -/
  | diag10us
  /-- Diagnostic pulse of 50 microseconds. -/
  | diag50us
  /-- Diagnostic pulse of 100 microseconds. -/
  | diag100us
  /-- First special physics pulse. -/
  | physics1
  /-- Second special physics pulse. -/
  | physics2
  /-- Code without a meaning. -/
  | unknown (code : UInt8)
  deriving DecidableEq, Repr

/-- The flavor of a code. -/
def PulseFlavor.ofByte : UInt8 → PulseFlavor
  | 0 => .noBeam
  | 1 => .target1
  | 2 => .target2
  | 3 => .diag10us
  | 4 => .diag50us
  | 5 => .diag100us
  | 6 => .physics1
  | 7 => .physics2
  | code => .unknown code

/-- Name of a documented flavor. -/
def PulseFlavor.name? : PulseFlavor → Option String
  | .noBeam => some "no_beam"
  | .target1 => some "target1"
  | .target2 => some "target2"
  | .diag10us => some "diag10us"
  | .diag50us => some "diag50us"
  | .diag100us => some "diag100us"
  | .physics1 => some "physics1"
  | .physics2 => some "physics2"
  | .unknown _ => none

/-- Description of one pulse. -/
structure RtdlHeader where
  /-- Pulse time, whole seconds. -/
  seconds : UInt32
  /-- Pulse time, nanoseconds within the second. -/
  nanoseconds : UInt32
  /-- Charge in units of 10 pC. -/
  charge : UInt32
  /-- Flavor of the next pulse. -/
  flavor : PulseFlavor
  /-- The flavor frame was bad. -/
  badFlavorFrame : Bool
  /-- Cycle number. -/
  cycle : UInt32
  /-- Veto bits of the previous cycle. -/
  lastCycleVeto : UInt32
  /-- Status field. -/
  tstat : UInt32
  /-- The cycle frame was bad. -/
  badCycleFrame : Bool
  /-- The veto frame was bad. -/
  badVetoFrame : Bool
  /-- Synchronisation period. -/
  tsyncPeriod : UInt32
  /-- Fixed part of the time-of-flight offset. -/
  tofFixedOffset : UInt32
  /-- Frame offset. -/
  frameOffset : UInt32
  /-- The full time-of-flight offset is in use. -/
  tofFullOffset : Bool
  deriving DecidableEq, Repr

namespace RtdlHeader

/-- Number of words of a pulse header. -/
def wordCount : Nat := 6

/-- Number of bytes of a pulse header. -/
def byteCount : Nat := 4 * wordCount

/-- True if `bit` is set in `w`. -/
def bit (w : UInt32) (i : UInt32) : Bool := w &&& ((1 : UInt32) <<< i) != 0

/-- Decode six words. -/
def ofWords (sec nsec pulse general period delay : UInt32) : RtdlHeader where
  seconds := sec
  nanoseconds := nsec
  charge := pulse &&& 0x00FFFFFF
  flavor := .ofByte ((pulse >>> 24) &&& 0x3F).toUInt8
  badFlavorFrame := bit pulse 30
  cycle := general &&& 0x3FF
  lastCycleVeto := (general >>> 10) &&& 0xFFF
  tstat := (general >>> 22) &&& 0xFF
  badCycleFrame := bit general 30
  badVetoFrame := bit general 31
  tsyncPeriod := period
  tofFixedOffset := delay &&& 0x00FFFFFF
  frameOffset := (delay >>> 24) &&& 0xF
  tofFullOffset := bit delay 31

/-- Decode a list of six words. -/
def ofList? : List UInt32 → Option RtdlHeader
  | [sec, nsec, pulse, general, period, delay] =>
    some (ofWords sec nsec pulse general period delay)
  | _ => none

/-- Pulse time in nanoseconds, counted in 64 bits. -/
def timestamp (h : RtdlHeader) : UInt64 :=
  h.seconds.toUInt64 * 1000000000 + h.nanoseconds.toUInt64

end RtdlHeader

/-- One neutron event. -/
structure NeutronEvent where
  /-- Time of flight. -/
  tof : UInt32
  /-- Pixel that was hit. -/
  pixelId : UInt32
  deriving DecidableEq, Repr

/-- Events from consecutive words; a word without a partner is dropped. -/
def NeutronEvent.ofWords : List UInt32 → List NeutronEvent
  | tof :: pixelId :: rest => ⟨tof, pixelId⟩ :: ofWords rest
  | _ => []

end DetectorLink
