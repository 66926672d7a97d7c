import DetectorLink.Ring.Index
import DetectorLink.Text.Json

/-!
# Descriptions of rings

The offsets of a ring and the window that it shows, as JSON.
-/

namespace DetectorLink

/-- A window as JSON. -/
def RingSpan.toJson : RingSpan → Json
  | .direct offset length => .object [("direct", .array [.nat offset, .nat length])]
  | .rollover head tail => .object [("rollover", .array [.nat head, .nat tail])]

/-- Offsets and window of a ring as JSON. -/
def RingIndex.toJson (rollover : Nat) (i : RingIndex) : Except Overflow Json := do
  let used ← i.checkedUsed
  let free ← i.checkedFree
  let full ← i.checkedIsFull
  let span := i.window rollover
  return .object [("producer", .nat i.producer), ("consumer", .nat i.consumer), ("used", .nat used),
    ("free", .nat free), ("empty", .bool i.isEmpty), ("full", .bool full),
    ("window", span.toJson), ("window_len", .nat span.length), ("window_empty", .bool span.isEmpty)]

end DetectorLink
