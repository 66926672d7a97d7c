import DetectorLink.Bytes
import DetectorLink.Link.Source
import DetectorLink.Ring.Index

/-!
# Rings without memory of their own

A direct ring shows the windows of a source as they are, cut to whole alignment units. It never
releases more than the window it showed last, and the first error other than a timeout is kept and
returned by every later wait.
-/

namespace DetectorLink

/-- What a direct ring remembers of its source. -/
structure DirectRing where
  /-- Capacity of the source. -/
  size : Nat
  /-- Bytes of the last window that were not released. -/
  window : Nat
  /-- First error of the source. -/
  error : Option LinkError

namespace DirectRing

variable {σ : Type}

/-- A ring over a source of the given capacity. -/
def ofSize (size : Nat) : DirectRing := ⟨size, 0, none⟩

/-- What follows from the source's answer to a wait. -/
def present (d : DirectRing) : Except LinkError Bytes → Except LinkError Bytes × DirectRing
  | .ok data =>
    let n := alignDown data.length
    (.ok (data.take n), { d with window := n })
  | .error .timeout => (.error .timeout, d)
  | .error e => (.error e, { d with error := some e })

/-- Wait for a window of the source. -/
def wait (source : Source σ) (timeout : Option Nat) : LinkM (DirectRing × σ) Bytes :=
  .ofFun fun (d, s) =>
    match d.error with
    | some e => (.error e, (d, s))
    | none =>
      let (answer, s) := (source.wait timeout).exec s
      let (r, d) := d.present answer
      (r, (d, s))

/-- Release bytes of the last window, at most all of them. -/
def consume (source : Source σ) (n : Nat) : LinkM (DirectRing × σ) Unit :=
  .ofFun fun (d, s) =>
    let n := min (alignDown n) d.window
    match (source.release n).exec s with
    | (.error e, s) => (.error e, (d, s))
    | (.ok (), s) => (.ok (), ({ d with window := d.window - n }, s))

/-- Bytes waiting to be consumed: the rest of the last window. -/
def used (d : DirectRing) : Nat := d.window

/-- The ring by its numbers of bytes. -/
def level (d : DirectRing) : RingLevel := ⟨d.used, d.size⟩

/-- The ring as a source. -/
def source (inner : Source σ) : Source (DirectRing × σ) := ⟨wait inner, consume inner⟩

end DirectRing

end DetectorLink
