import DetectorLink.Proofs.Link.Pipe

/-!
# The level of a receive buffer

The sending half of a simulated link does not see the receive buffer. It tells the status from a
level of its own, which the receiving half sets after every read that brought bytes and after every
release. Set at just these places, the level is always the number of buffered bytes.
-/

namespace DetectorLink

/-- Nothing is collected unless collecting says so. -/
theorem Intake.buffer_collect {i : Intake} {capacity : Nat} {wait : Option Nat}
    (h : (i.collect capacity wait).1 ≠ .ok true) :
    (i.collect capacity wait).2.buffer = i.buffer := by
  obtain ⟨_, _, ⟨_, hexec, -⟩ | ⟨_, _, -, -, hexec⟩⟩ := i.collect_cases capacity wait <;>
    rw [hexec] at h ⊢
  exact absurd rfl h

/-- A receive buffer with the level that was set last. -/
structure Metered where
  /-- The receive buffer. -/
  intake : Intake
  /-- Bytes in it, as the sending half knows. -/
  level : Nat
  deriving DecidableEq, Repr

namespace Metered

/-- A receive buffer whose level is right. -/
def ofIntake (i : Intake) : Metered := ⟨i, i.buffer.length⟩

@[simp] theorem intake_ofIntake (i : Intake) : (ofIntake i).intake = i := rfl

variable (m : Metered)

/-- Collect what arrives, and set the level if something did. -/
def collect (capacity : Nat) (wait : Option Nat) : Except LinkError Bool × Metered :=
  match m.intake.collect capacity wait with
  | (.ok true, intake) => (.ok true, ⟨intake, intake.buffer.length⟩)
  | (r, intake) => (r, { m with intake })

/-- Collect until a word is there. -/
def fill (capacity : Nat) (deadline : Option Nat) : Nat → Metered → Except LinkError Unit × Metered
  | 0, m => (.ok (), m)
  | rounds + 1, m =>
    match m.collect capacity (deadline.map (· - m.intake.clock)) with
    | (.error e, m) => (.error e, m)
    | (.ok false, m) => (.error .timeout, m)
    | (.ok true, m) =>
      if m.intake.buffer.length < alignment then fill capacity deadline rounds m else (.ok (), m)

/-- Collect bytes that are already waiting. -/
def topUp (capacity : Nat) : Except LinkError Unit × Metered :=
  if m.intake.buffer.length < capacity then
    let (r, m) := m.collect capacity (some 0)
    (r.map fun _ ↦ (), m)
  else (.ok (), m)

/-- Wait for a word and show the buffer. -/
def wait (capacity : Nat) (deadline : Option Nat) : Except LinkError Bytes × Metered :=
  let (r, m) := if m.intake.buffer.length < alignment then m.fill capacity deadline alignment
    else m.topUp capacity
  (r.map fun _ ↦ m.intake.buffer, m)

/-- Release bytes, at most all of them, and set the level. -/
def release (n : Nat) : Metered :=
  ⟨{ m.intake with buffer := m.intake.buffer.drop n },
    m.intake.buffer.length - min n m.intake.buffer.length⟩

variable (i : Intake) (capacity : Nat)

/-- A level that is right stays so when bytes are collected. -/
theorem collect_ofIntake (wait : Option Nat) :
    (ofIntake i).collect capacity wait =
      ((i.collect capacity wait).1, ofIntake (i.collect capacity wait).2) := by
  have hkeep := @Intake.buffer_collect i capacity wait
  unfold collect
  rw [intake_ofIntake]
  generalize i.collect capacity wait = r at hkeep ⊢
  obtain ⟨answer, j⟩ := r
  by_cases h : answer = .ok true
  · subst h
    rfl
  · have hlevel : (ofIntake i).level = j.buffer.length := (congrArg List.length (hkeep h)).symm
    rcases answer with e | _ | _
    · exact congrArg (fun n ↦ (Except.error e, Metered.mk j n)) hlevel
    · exact congrArg (fun n ↦ (Except.ok false, Metered.mk j n)) hlevel
    · exact absurd rfl h

theorem fill_ofIntake (deadline : Option Nat) (rounds : Nat) :
    fill capacity deadline rounds (ofIntake i) =
      ((i.fill capacity deadline rounds).1, ofIntake (i.fill capacity deadline rounds).2) := by
  induction rounds generalizing i with
  | zero => rfl
  | succ rounds ih =>
    rw [fill, Intake.fill, collect_ofIntake, intake_ofIntake]
    generalize i.collect capacity (deadline.map (· - i.clock)) = r
    obtain ⟨e | _ | _, j⟩ := r
    · rfl
    · rfl
    · dsimp only
      rw [intake_ofIntake]
      split
      · exact ih j
      · rfl

theorem topUp_ofIntake :
    (ofIntake i).topUp capacity = ((i.topUp capacity).1, ofIntake (i.topUp capacity).2) := by
  unfold topUp Intake.topUp
  rw [collect_ofIntake, intake_ofIntake]
  split <;> rfl

/-- A wait that sets the level after each of its reads leaves the right one. -/
theorem wait_ofIntake (deadline : Option Nat) :
    (ofIntake i).wait capacity deadline =
      ((i.wait capacity deadline).1, ofIntake (i.wait capacity deadline).2) := by
  unfold wait Intake.wait
  rw [fill_ofIntake, topUp_ofIntake, intake_ofIntake]
  by_cases h : i.buffer.length < alignment <;>
    simp only [h, ite_true, ite_false, intake_ofIntake]

/-- A release leaves the right level. -/
theorem release_ofIntake (n : Nat) :
    (ofIntake i).release n = ofIntake { i with buffer := i.buffer.drop n } := by
  have hlevel : i.buffer.length - min n i.buffer.length = (i.buffer.drop n).length := by
    rw [List.length_drop]
    omega
  exact congrArg (Metered.mk _) hlevel

end Metered

end DetectorLink
