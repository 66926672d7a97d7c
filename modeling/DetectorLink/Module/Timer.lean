/-!
# Timers

A timer holds at most one pending callback. Its worker takes the callback once it is due and runs
it; a callback may ask to be armed again. Cancelling removes a pending callback, and keeps a running
one from being armed again. Every step is atomic, so a pending callback is either cancelled or run.
-/

namespace DetectorLink

/-- A callback that waits for its time. -/
structure Armed (κ : Type) where
  /-- When it is due, in milliseconds. -/
  deadline : Nat
  /-- The callback. -/
  callback : κ
  deriving DecidableEq, Repr

/-- State of a timer with callbacks of type `κ`. -/
structure Timer (κ : Type) where
  /-- The pending callback. -/
  pending : Option (Armed κ)
  /-- The callback that runs. -/
  firing : Option κ
  /-- The running callback is not to be armed again. -/
  rearmCancelled : Bool
  /-- The timer is gone. -/
  closed : Bool
  deriving DecidableEq, Repr

namespace Timer

variable {κ : Type}

/-- A timer with nothing to do. -/
def idle : Timer κ := ⟨none, none, false, false⟩

variable (t : Timer κ)

/-- Arm a callback at time `now`, unless one is pending. -/
def schedule (now delay : Nat) (callback : κ) : Bool × Timer κ :=
  if t.pending.isSome || t.closed then (false, t)
  else (true, { t with pending := some ⟨now + delay, callback⟩ })

/-- Remove the pending callback; without one, keep the running one from being armed again. -/
def cancel : Bool × Timer κ :=
  if t.pending.isSome then (true, { t with pending := none })
  else (false, { t with rearmCancelled := t.rearmCancelled || t.firing.isSome })

/-- True while a callback is pending or running. -/
def isActive : Bool := t.pending.isSome || t.firing.isSome

/-- The worker takes the pending callback if it is due and none is running. -/
def takeDue? (now : Nat) : Option (κ × Timer κ) :=
  match t.pending, t.firing, t.closed with
  | some armed, none, false =>
    if armed.deadline ≤ now then
      some (armed.callback,
        { t with pending := none, firing := some armed.callback, rearmCancelled := false })
    else none
  | _, _, _ => none

/-- The running callback returns, perhaps asking to be armed again as `callback`. -/
def finish (now : Nat) (callback : κ) (rearm : Option Nat) : Timer κ :=
  let t := { t with firing := none }
  match rearm with
  | some delay =>
    if t.rearmCancelled || t.pending.isSome || t.closed then t
    else { t with pending := some ⟨now + delay, callback⟩ }
  | none => t

/-- The timer goes, and a pending callback with it. -/
def close : Timer κ := { t with pending := none, closed := true }

/-- Let the worker wait for the pending callback and take it, if it is due within `horizon`. The
answer is the callback, the time it was taken at, and the timer. -/
def fire? (now horizon : Nat) : Option (κ × Nat × Timer κ) := do
  let armed ← t.pending
  if now + horizon ≤ armed.deadline then none
  else
    let now := max now armed.deadline
    let (callback, t) ← t.takeDue? now
    return (callback, now, t)

end Timer

end DetectorLink
