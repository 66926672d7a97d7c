import DetectorLink.Link.Driver
import DetectorLink.Link.Effect
import DetectorLink.Link.Status
import DetectorLink.Packet.Basic
import DetectorLink.Ring.Index
import DetectorLink.Text.Numeral

/-!
# The link adapter

The adapter writes received bytes cyclically into its receive region and tells how far it got. The
library keeps the offset of the first byte it has not released, shows the bytes between the two as
a window, and tells the driver when bytes of that window are done. Register windows are mapped when
they are first used.
-/

namespace DetectorLink

/-- What the library keeps of an open adapter. -/
structure Hardware where
  /-- Interface to select on a reset. -/
  interface : Interface
  /-- Size of the receive region. -/
  regionSize : Nat
  /-- Offset of the first byte that was not released. -/
  consumer : Nat
  /-- Bytes of the last window that were not released. -/
  window : Nat
  /-- Register windows that are mapped, with their sizes. -/
  bars : List (Nat × Nat)
  deriving DecidableEq, Repr

/-- An operation on an adapter and its driver. -/
abbrev HardwareM (δ α : Type) := LinkM (Hardware × δ) α

namespace Hardware

variable {δ : Type} [Driver δ]

/-- Version of the driver that is spoken. -/
def driverVersion : UInt32 × UInt32 := (1, 8)

/-- Text of a version. -/
def versionText (v : UInt32 × UInt32) : String := s!"{v.1.toNat}.{v.2.toNat}"

/-- Accept the driver's version answer. A failed read counts as an empty answer. -/
def checkVersion (answer : Except Errno Bytes) : Except LinkError Unit :=
  match Word.ofByteList (answer.toOption.getD []) with
  | [major, minor] =>
    if (major, minor) = driverVersion then .ok ()
    else .error (.versionMismatch (versionText driverVersion) (versionText (major, minor)))
  | _ => .error (.versionMismatch (versionText driverVersion) "unknown")

/-- Accept the driver's status answer. -/
def checkStatus (answer : Except Errno Bytes) : Except LinkError StatusBlock := do
  let bytes ← answer.mapError .ofSystem
  if bytes.length ≠ StatusBlock.byteCount then .error .noData
  else match StatusBlock.ofWords? (Word.ofByteList bytes) with
    | none => .error .noData
    | some block =>
      if block.layout = StatusBlock.supportedLayout then .ok block
      else .error (.versionMismatch (toString StatusBlock.supportedLayout.toNat)
        (toString block.layout.toNat))

/-- Let the driver work. -/
def withDriver {α : Type} (f : δ → Except LinkError α × δ) : HardwareM δ α :=
  .ofFun fun (h, d) => let (r, d) := f d; (r, (h, d))

/-- The adapter's own state. -/
def get : HardwareM δ Hardware := .ofFun fun (h, d) => (.ok h, (h, d))

/-- Change the adapter's own state. -/
def modify (f : Hardware → Hardware) : HardwareM δ Unit := .ofFun fun (h, d) => (.ok (), (f h, d))

/-- Positional read. -/
def readAt (command n : Nat) : HardwareM δ Bytes :=
  withDriver fun d => let (r, d) := Driver.readAt command n d; (r.mapError .ofSystem, d)

/-- Positional write. -/
def writeAt (command : Nat) (data : Bytes) : HardwareM δ Nat :=
  withDriver fun d => let (r, d) := Driver.writeAt command data d; (r.mapError .ofSystem, d)

/-- Give the driver a command with one word. -/
def command (offset : Nat) (value : UInt32) : HardwareM δ Unit := do
  let _ ← writeAt offset (Word.toBytes value)

/-- Read the status block. -/
def readStatus : HardwareM δ StatusBlock :=
  withDriver fun d =>
    let (r, d) := Driver.readAt DriverCommand.getStatus StatusBlock.byteCount d
    (checkStatus r, d)

/-- Wait until the driver's queue can be read. An interrupted wait is told apart. -/
def awaitReadable (timeout : Option Nat) : HardwareM δ Bool :=
  withDriver fun d =>
    let (outcome, d) := Driver.await timeout d
    match outcome with
    | .ready => (.ok true, d)
    | .interrupted => (.ok false, d)
    | .expired => (.error .timeout, d)
    | .broken => (.error .connectionReset, d)
    | .failed e => (.error (.ofNumber e), d)

/-- Code of an interface in a reset. -/
def resetCode : Interface → UInt32
  | .lvds => 0
  | .optical | .socket => 1

/-- Reset the board and start at the beginning of the receive region. -/
def reset : HardwareM δ Unit := do
  command DriverCommand.reset (resetCode (← get).interface)
  let _ ← readStatus
  modify fun h => { h with consumer := 0, window := 0 }

/-- Turn reception on or off. -/
def enableReceive (on : Bool) : HardwareM δ Unit :=
  command DriverCommand.rxEnable (if on then 1 else 0)

/-- Receive packets with link errors too. -/
def enableErrorPackets (on : Bool) : HardwareM δ Unit :=
  command DriverCommand.errorPackets (if on then 1 else 0)

/-- Keep packets from before the last reset. -/
def enableOldPackets (on : Bool) : HardwareM δ Unit :=
  command DriverCommand.oldPackets (if on then 1 else 0)

/-- The bytes of the receive region that lie in a span. -/
def spanBytes (h : Hardware) (span : RingSpan) (d : δ) : Bytes :=
  match span with
  | .direct offset length => Driver.load (regionAddress + offset) length d
  | .rollover head tail =>
    Driver.load (regionAddress + h.consumer) head d ++ Driver.load regionAddress tail d

/-- Show the bytes up to the producer offset: at least one whole word, or nothing. -/
def showWindow (producer : UInt32) : HardwareM δ (Option Bytes) :=
  .ofFun fun (h, d) =>
    let index : RingIndex := ⟨h.regionSize, producer.toNat % h.regionSize, h.consumer⟩
    let span := index.window Packet.maxLength
    let length := alignDown span.length
    if length = 0 then (.ok none, (h, d))
    else (.ok (some ((h.spanBytes span d).take length)), ({ h with window := length }, d))

/-- The condition that an answer without a message reports. -/
def condition? (flags : UInt32) : Option LinkError :=
  if StatusFlag.has flags StatusFlag.resetOccurred then some .connectionReset
  else if StatusFlag.has flags StatusFlag.dmaStalled then some .stall
  else if StatusFlag.has flags StatusFlag.fifoOverflow then some .overflow
  else none

/-- One round of waiting. No answer means that another round is due. -/
def waitRound (timeout : Option Nat) : HardwareM δ (Option Bytes) := do
  if !(← awaitReadable timeout) then return none
  match Word.ofByteList (← readAt DriverCommand.rx 8) with
  | [producer, flags] =>
    if StatusFlag.has flags StatusFlag.rxMessage then showWindow producer
    else match condition? flags with
      | some e => .fail e
      | none => return none
  | _ => .fail .noData

/-- Rounds of waiting until one answers. After the last round the wait counts as timed out. -/
def waitRounds (timeout : Option Nat) : Nat → HardwareM δ Bytes
  | 0 => .fail .timeout
  | n + 1 => do
    match ← waitRound timeout with
    | some bytes => return bytes
    | none => waitRounds timeout n

/-- Wait for received bytes and show all of them that fit into one window. -/
def wait (timeout : Option Nat) : HardwareM δ Bytes := do
  if (← get).regionSize = 0 then .fail (.unsupported "receive DMA region")
  else
    let rounds ← withDriver fun d => (.ok (Driver.patience d), d)
    waitRounds timeout (rounds + 1)

/-- Release `n` bytes from the start of the last window. -/
def acknowledge (n : Nat) : HardwareM δ Unit := do
  if n % 4 ≠ 0 then
    .fail (.invalidArgument s!"acknowledge length {n} is not 4-byte aligned")
  else
    let n := min n (← get).window
    if n ≠ 0 then
      command DriverCommand.advance (UInt32.ofNat n)
      modify fun h =>
        { h with consumer := (h.consumer + n) % h.regionSize, window := h.window - n }

/-- Send a packet. -/
def send (data : Bytes) : HardwareM δ Nat :=
  if data.length % 4 ≠ 0 then
    .fail (.invalidArgument s!"send length {data.length} is not 4-byte aligned")
  else writeAt DriverCommand.tx data

/-- The error of a mapping that failed, whatever it failed of. -/
def mappingError (address length : Nat) (e : Errno) : LinkError :=
  .outOfMemory s!"mapping {length} bytes at offset {Numeral.marked 1 address}: {e.systemText}"

/-- Size of a register window, mapping it if it is not mapped yet. -/
def barSize (bar : Nat) : HardwareM δ Nat := do
  match (← get).bars.lookup bar with
  | some size => return size
  | none =>
    let size := ((← readStatus).bar bar).toNat
    if size = 0 then .fail (.unsupported s!"BAR{bar} not present")
    else
      withDriver fun d =>
        let (r, d) := Driver.mapBar bar size d
        (r.mapError (mappingError (barAddress bar) size), d)
      modify fun h => { h with bars := (bar, size) :: h.bars }
      return size

/-- End of a register access of `count` words if it lies in a window of `size` bytes. The offsets
on the way are of 64 bits. -/
def registerEnd? (offset count size : Nat) : Option Nat := do
  let length ← Word.start? count
  let stop := offset + length
  if stop < Word.offsetBound ∧ stop ≤ size then some stop else none

/-- Let a register access pass if it fits its window. -/
def admitAccess (bar offset count : Nat) : HardwareM δ Unit := do
  if bar ≥ barCount then .fail (.unsupported s!"BAR{bar}")
  else if (registerEnd? offset count (← barSize bar)).isNone then .fail .overflow

/-- Words of a register window, each loaded by itself. -/
def loadWords (bar offset count : Nat) (d : δ) : List UInt32 :=
  (List.range count).flatMap fun i => Word.ofByteList (Driver.loadBar bar (offset + 4 * i) 4 d)

/-- Store words into a register window, one after the other. -/
def storeWords (bar : Nat) : (offset : Nat) → List UInt32 → δ → δ
  | _, [], d => d
  | offset, w :: ws, d =>
    storeWords bar (offset + 4) ws (Driver.storeBar bar offset (Word.toBytes w) d)

/-- Read register words. -/
def registerRead (bar offset count : Nat) : HardwareM δ (List UInt32) := do
  admitAccess bar offset count
  withDriver fun d => (.ok (loadWords bar offset count d), d)

/-- Write register words. -/
def registerWrite (bar offset : Nat) (words : List UInt32) : HardwareM δ Unit := do
  admitAccess bar offset words.length
  withDriver fun d => (.ok (), storeWords bar offset words d)

/-- Open the adapter behind a driver. A debug handle does not reset it. -/
def openDriver (interface : Interface) (debug : Bool) (d : δ) :
    Except LinkError Hardware × δ :=
  let (answer, d) := Driver.readAt DriverCommand.version 8 d
  match checkVersion answer with
  | .error e => (.error e, d)
  | .ok () =>
    let (answer, d) := Driver.readAt DriverCommand.getStatus StatusBlock.byteCount d
    match checkStatus answer with
    | .error e => (.error e, d)
    | .ok block =>
      let size := block.regionSize.toNat
      match Driver.mapRegion size d with
      | (.error e, d) => (.error (mappingError regionAddress size e), d)
      | (.ok (), d) =>
        let h : Hardware := ⟨interface, size, 0, 0, []⟩
        if debug then (.ok h, d)
        else match (reset (δ := δ)).exec (h, d) with
          | (.error e, (_, d)) => (.error e, d)
          | (.ok (), (h, d)) => (.ok h, d)

end Hardware

end DetectorLink
