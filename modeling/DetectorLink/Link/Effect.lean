import DetectorLink.Link.Error

/-!
# Operations on a link

An operation on a state `σ` either answers or fails with a link error. What it did to the state
before failing stays done.
-/

namespace DetectorLink

/-- An operation on `σ` that may fail with a link error. -/
abbrev LinkM (σ α : Type) := ExceptT LinkError (StateM σ) α

namespace LinkM

variable {σ τ α : Type}

/-- The answer of an operation and the state it leaves. -/
def exec (m : LinkM σ α) (s : σ) : Except LinkError α × σ := m.run.run s

/-- An operation given by its effect. -/
def ofFun (f : σ → Except LinkError α × σ) : LinkM σ α := fun s => f s

@[simp] theorem exec_ofFun (f : σ → Except LinkError α × σ) (s : σ) : (ofFun f).exec s = f s := rfl

/-- Work on a part of the state. -/
def zoom (part : σ → τ) (update : τ → σ → σ) (m : LinkM τ α) : LinkM σ α :=
  ofFun fun s => let (r, t) := m.exec (part s); (r, update t s)

/-- Answer from the state. -/
def read : LinkM σ σ := ofFun fun s => (.ok s, s)

/-- Change the state. -/
def change (f : σ → σ) : LinkM σ Unit := ofFun fun s => (.ok (), f s)

/-- Fail. -/
def fail (e : LinkError) : LinkM σ α := ofFun fun s => (.error e, s)

/-- Go on with a result that is already known. -/
def lift (r : Except LinkError α) : LinkM σ α := ofFun fun s => (r, s)

/-- The outcome as a value, so that what follows runs in either case. -/
def outcome (m : LinkM σ α) : LinkM σ (Except LinkError α) :=
  ofFun fun s => let (r, t) := m.exec s; (.ok r, t)

end LinkM

end DetectorLink
