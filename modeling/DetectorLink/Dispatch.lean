import DetectorLink.Link.Source
import DetectorLink.SharedWindow
import DetectorLink.Text.Json

/-!
# Dispatching windows to handlers

A dispatcher waits for a window, lets every handler walk it under a reservation of its own, and
releases what is done: up to the furthest mark, or every complete packet if nobody marked one. A
window that starts with a header no packet can have is skipped word by word.
-/

namespace DetectorLink

/-- Counters of a dispatcher. -/
structure DispatchStats where
  /-- Windows taken. -/
  windows : Nat
  /-- Packets seen. -/
  packets : Nat
  /-- Bytes released. -/
  bytes : Nat
  /-- Words skipped in search of a packet. -/
  resyncs : Nat
  deriving DecidableEq, Repr

/-- Walks a reserved window, works on `σ`, and answers with the packets it marks as processed. -/
abbrev Handler (σ : Type) := Reservation → StateM σ (List Placed)

/-- What a dispatch releases. -/
inductive Progress where
  /-- Packets up to this many bytes. -/
  | packets (bytes : Nat)
  /-- The first word of a header that no packet can have. -/
  | skipped
  /-- Nothing; the window ends inside a packet. -/
  | partialPacket
  deriving DecidableEq, Repr

namespace Progress

/-- Progress over a window of which `marked` bytes were marked. -/
def ofWindow (window : Bytes) (marked : Nat) : Progress :=
  let valid := (Packet.validPrefix window).1
  if 0 < marked then .packets marked
  else if 0 < valid then .packets valid
  else if Packet.corruptHead window then .skipped
  else .partialPacket

/-- Bytes to release. -/
def bytes : Progress → Nat
  | packets n => alignDown n
  | skipped => alignment
  | partialPacket => 0

/-- Number of skipped words. -/
def resyncs : Progress → Nat
  | skipped => 1
  | _ => 0

end Progress

namespace DispatchStats

/-- Nothing counted. -/
def zero : DispatchStats := ⟨0, 0, 0, 0⟩

/-- The counters as JSON. -/
def toJson (s : DispatchStats) : Json :=
  .object [("windows", .nat s.windows), ("packets", .nat s.packets), ("bytes", .nat s.bytes),
    ("resyncs", .nat s.resyncs)]

/-- Count a window. -/
def count (s : DispatchStats) (window : Bytes) (progress : Progress) : DispatchStats where
  windows := s.windows + 1
  packets := s.packets + (Packet.validPrefix window).2
  bytes := s.bytes + progress.bytes
  resyncs := s.resyncs + progress.resyncs

end DispatchStats

namespace Dispatch

variable {σ : Type}

/-- Let one handler walk the window. -/
def visit (handler : Handler σ) (shared : SharedWindow) (s : σ) : SharedWindow × σ :=
  match shared.reserve? with
  | none => (shared, s)
  | some (reservation, shared) =>
    let (marks, s) := (handler reservation).run s
    ((marks.foldl (fun w p => w.mark reservation p) shared).dropReservation, s)

/-- Let every handler walk the window; the answer is how far it was marked. -/
def visitAll (handlers : List (Handler σ)) (window : Bytes) (s : σ) : Nat × σ :=
  let shared : SharedWindow := ⟨some window, true, 0, 0⟩
  let (shared, s) := handlers.foldl (fun (w, s) h => visit h w s) (shared, s)
  (shared.release.consumed, s)

/-- Wait for a window, let the handlers walk it and release what is done. The answer is how much
that was. -/
def once (source : Source σ) (handlers : List (Handler σ)) (timeout : Option Nat) :
    LinkM (DispatchStats × σ) Nat :=
  .ofFun fun (stats, s) =>
    match (source.wait timeout).exec s with
    | (.error e, s) => (.error e, (stats, s))
    | (.ok window, s) =>
      let (marked, s) := visitAll handlers window s
      let progress := Progress.ofWindow window marked
      let stats := stats.count window progress
      if progress.bytes = 0 then (.ok 0, (stats, s))
      else match (source.release progress.bytes).exec s with
        | (.error e, s) => (.error e, (stats, s))
        | (.ok (), s) => (.ok progress.bytes, (stats, s))

/-- Dispatch until `stop` holds or the source fails, for at most the given number of rounds. A
timeout is no failure. -/
def run (source : Source σ) (handlers : List (Handler σ)) (poll : Nat) (stop : σ → Bool) :
    Nat → LinkM (DispatchStats × σ) Unit
  | 0 => pure ()
  | rounds + 1 => do
    if stop (← LinkM.read).2 then return
    match ← LinkM.outcome (once source handlers (some poll)) with
    | .ok _ | .error .timeout => run source handlers poll stop rounds
    | .error e => .fail e

end Dispatch

end DetectorLink
