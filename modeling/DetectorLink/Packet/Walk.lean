import DetectorLink.Packet.Basic

/-!
# Walking a window

A receive window holds packets back to back. The walk takes complete packets of an allowed length
from its start and ends at the first place where there is none.
-/

namespace DetectorLink.Packet

/-- True if `n` is a length that a packet on the link can have. -/
def allowedLength (n : Nat) : Bool := minLength ≤ n && n ≤ maxLength && n % alignment = 0

/-- Length of the packet at the start of `b`, if it is complete and of an allowed length. -/
def validLength? (b : Bytes) : Option Nat :=
  match parse b with
  | .error _ => none
  | .ok p => if allowedLength p.length && b.covers p.length then some p.length else none

theorem validLength?_bounds {b : Bytes} {n : Nat} (h : validLength? b = some n) :
    minLength ≤ n ∧ n ≤ maxLength ∧ n % alignment = 0 ∧ n ≤ b.length := by
  unfold validLength? at h
  split at h
  · contradiction
  · split at h
    · next hc =>
      simp only [Option.some.injEq] at h
      subst h
      simp only [allowedLength, Bool.and_eq_true, decide_eq_true_eq, Bytes.covers_iff] at hc
      exact ⟨hc.1.1.1, hc.1.1.2, hc.1.2, hc.2⟩
    · contradiction

/-- The packet at the start of `b` with none of the bytes behind it. -/
def first? (b : Bytes) : Option Packet := do
  let n ← validLength? b
  (parse (b.take n)).toOption

/-- The packets at the start of `b`, each without the bytes behind it. -/
def walk (b : Bytes) : List Packet :=
  match h : validLength? b with
  | none => []
  | some n =>
    have := validLength?_bounds h
    (parse (b.take n)).toOption.toList ++ walk (b.drop n)
termination_by b.length
decreasing_by
  simp only [minLength, Header.byteCount, List.length_drop] at *
  omega

/-- Total length and number of the packets at the start of `b`. -/
def validPrefix (b : Bytes) : Nat × Nat :=
  match h : validLength? b with
  | none => (0, 0)
  | some n =>
    have := validLength?_bounds h
    let (length, count) := validPrefix (b.drop n)
    (n + length, count + 1)
termination_by b.length
decreasing_by
  simp only [minLength, Header.byteCount, List.length_drop] at *
  omega

/-- True if `b` starts with a whole header that no packet on the link can have. -/
def corruptHead (b : Bytes) : Bool :=
  match parse b with
  | .error _ => false
  | .ok p => !allowedLength p.length

end DetectorLink.Packet
