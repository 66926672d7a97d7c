/-!
# Transition tables

A machine keeps a state and a table of transitions. An action without an entry for the current
state changes nothing; of two entries for the same state and action the later one counts.
-/

namespace DetectorLink

/-- A state with the transitions that may follow. -/
structure Machine (S A : Type) where
  /-- Entries, latest first. -/
  entries : List ((S × A) × S)
  /-- Current state. -/
  current : S

namespace Machine

variable {S A : Type} [BEq S] [BEq A]

/-- A machine without transitions. -/
def initial (s : S) : Machine S A := ⟨[], s⟩

variable (m : Machine S A)

/-- Add a transition. -/
def add (source : S) (action : A) (target : S) : Machine S A :=
  { m with entries := ((source, action), target) :: m.entries }

/-- Where an action leads. -/
def next? (action : A) : Option S := m.entries.lookup (m.current, action)

/-- True if an action leads somewhere. -/
def allows (action : A) : Bool := (m.next? action).isSome

/-- Apply an action, telling whether it had an entry. -/
def apply (action : A) : Bool × Machine S A :=
  match m.next? action with
  | some s => (true, { m with current := s })
  | none => (false, m)

/-- Jump to a state. -/
def force (s : S) : Machine S A := { m with current := s }

end Machine

end DetectorLink
