import DetectorLink.Bytes
import DetectorLink.Link.Board
import DetectorLink.Link.Hardware

/-!
# Drivers that are watched

Any driver can be wrapped so that the commands it took are written down; it answers as before.
Between two commands a driver changes by waits, reads and mappings only. What is mapped is memory:
it holds one byte at each address.
-/

namespace DetectorLink

namespace Driver

variable {δ : Type} [Driver δ]

/-- What becomes of a driver in waits and reads, and when its receive region is mapped. -/
inductive Reads : δ → δ → Prop where
  | refl (d : δ) : Reads d d
  | await {d e : δ} (timeout : Option Nat) : Reads d e → Reads d (Driver.await timeout e).2
  | readAt {d e : δ} (command n : Nat) : Reads d e → Reads d (Driver.readAt command n e).2
  | mapRegion {d e : δ} (size : Nat) : Reads d e → Reads d (Driver.mapRegion size e).2

/-- Reads after reads. -/
theorem Reads.trans {d e f : δ} (h : Reads d e) (h' : Reads e f) : Reads d f := by
  induction h' with
  | refl => exact h
  | await timeout _ ih => exact .await timeout ih
  | readAt command n _ ih => exact .readAt command n ih
  | mapRegion size _ ih => exact .mapRegion size ih

end Driver

/-- The mapped memory of a driver holds a byte at each address. -/
class MappedMemory (δ : Type) [Driver δ] where
  /-- The byte at an address. -/
  byte : δ → Nat → UInt8
  /-- Loading reads the bytes one after the other. -/
  load_eq : ∀ (address n : Nat) (d : δ),
    Driver.load address n d = (List.range n).map fun i ↦ byte d (address + i)

instance : MappedMemory Board := ⟨fun b ↦ b.memory.byte, fun _ _ _ ↦ rfl⟩

/-- A board in good order with a receive region of `size` zeros, to which nothing was written. -/
def Board.fresh (size : UInt32) (replies : List BoardReply) : Board where
  version := Word.toByteList [Hardware.driverVersion.1, Hardware.driverVersion.2]
  status := Word.toByteList (StatusBlock.words
    ⟨StatusBlock.supportedLayout, 2, 0, 0, 0, 0, 0, 0, size, 0, 0, 0, 0, 0, 0, 0, 0, 0, 0, 0⟩)
  replies
  fault := none
  memory := .zero
  written := []

/-- A driver with the commands that it took, in order. -/
structure Recorded (δ : Type) where
  /-- The driver. -/
  driver : δ
  /-- Command offsets with what was written there. -/
  written : List (Nat × Bytes)

namespace Recorded

variable {δ : Type} [Driver δ]

/-- A driver that was given no command yet. -/
def start (d : δ) : Recorded δ := ⟨d, []⟩

/-- A write is recorded if the driver takes it. -/
def writeAt (command : Nat) (data : Bytes) (r : Recorded δ) : Except Errno Nat × Recorded δ :=
  match Driver.writeAt command data r.driver with
  | (.ok n, driver) => (.ok n, ⟨driver, r.written ++ [(command, data)]⟩)
  | (.error e, driver) => (.error e, { r with driver })

instance : Driver (Recorded δ) where
  readAt command n r :=
    ((Driver.readAt command n r.driver).1,
      { r with driver := (Driver.readAt command n r.driver).2 })
  writeAt := writeAt
  await timeout r :=
    ((Driver.await timeout r.driver).1, { r with driver := (Driver.await timeout r.driver).2 })
  load address n r := Driver.load address n r.driver
  mapRegion size r :=
    ((Driver.mapRegion size r.driver).1, { r with driver := (Driver.mapRegion size r.driver).2 })
  mapBar bar size r :=
    ((Driver.mapBar bar size r.driver).1, { r with driver := (Driver.mapBar bar size r.driver).2 })
  loadBar bar offset n r := Driver.loadBar bar offset n r.driver
  storeBar bar offset data r := { r with driver := Driver.storeBar bar offset data r.driver }
  patience r := Driver.patience r.driver

instance [MappedMemory δ] : MappedMemory (Recorded δ) :=
  ⟨fun r ↦ MappedMemory.byte r.driver, fun address n r ↦ MappedMemory.load_eq address n r.driver⟩

/-- Number of bytes of the receive region that recorded commands release. -/
def released : List (Nat × Bytes) → Nat
  | [] => 0
  | (command, data) :: rest =>
    (if command = DriverCommand.advance then ((Word.ofByteList data).headD 0).toNat else 0) +
      released rest

theorem released_append (first second : List (Nat × Bytes)) :
    released (first ++ second) = released first + released second := by
  induction first with
  | nil => exact (Nat.zero_add _).symm
  | cons entry rest ih =>
    show _ + released (rest ++ second) = _ + released rest + released second
    rw [ih, Nat.add_assoc]

/-- A release of bytes adds to what was released. -/
theorem released_concat_advance (written : List (Nat × Bytes)) (value : UInt32) :
    released (written ++ [(DriverCommand.advance, Word.toBytes value)]) =
      released written + value.toNat := by
  rw [released_append]
  congr 1
  have hw : Word.ofByteList (Word.toBytes value) = [value] :=
    congrArg (· :: []) (Word.ofBytes_toBytes value)
  simp only [released, ite_true, hw, List.headD_cons, Nat.add_zero]

/-- Reading records nothing. -/
theorem written_of_reads {r s : Recorded δ} (h : Driver.Reads r s) : s.written = r.written := by
  induction h with
  | refl => rfl
  | await timeout _ ih => exact ih
  | readAt command n _ ih => exact ih
  | mapRegion size _ ih => exact ih

/-- A command that the driver takes is recorded. -/
theorem written_of_writeAt_ok {command n : Nat} {data : Bytes} {r s : Recorded δ}
    (h : Driver.writeAt command data r = (.ok n, s)) :
    s.written = r.written ++ [(command, data)] := by
  change writeAt command data r = _ at h
  unfold writeAt at h
  split at h <;> cases h
  rfl

/-- A command that the driver refuses is not recorded. -/
theorem written_of_writeAt_error {command : Nat} {x : Errno} {data : Bytes} {r s : Recorded δ}
    (h : Driver.writeAt command data r = (.error x, s)) : s.written = r.written := by
  change writeAt command data r = _ at h
  unfold writeAt at h
  split at h <;> cases h
  rfl

end Recorded

end DetectorLink
