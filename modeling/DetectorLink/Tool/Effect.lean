import DetectorLink.Link.Source
import DetectorLink.Tool.Error

/-!
# Operations of the tool

An operation on a state `σ` that answers or fails with a tool error. Operations on links and parts
of the state are taken in.
-/

namespace DetectorLink

/-- An operation on `σ` that may fail with a tool error. -/
abbrev ToolM (σ α : Type) := ExceptT ToolError (StateM σ) α

namespace ToolM

variable {σ τ α : Type}

/-- The answer of an operation and the state it leaves. -/
def exec (m : ToolM σ α) (s : σ) : Except ToolError α × σ := m.run.run s

/-- An operation given by its effect. -/
def ofFun (f : σ → Except ToolError α × σ) : ToolM σ α := fun s => f s

@[simp] theorem exec_ofFun (f : σ → Except ToolError α × σ) (s : σ) : (ofFun f).exec s = f s := rfl

/-- Answer from the state. -/
def read : ToolM σ σ := ofFun fun s => (.ok s, s)

/-- Change the state. -/
def change (f : σ → σ) : ToolM σ Unit := ofFun fun s => (.ok (), f s)

/-- An operation on a link. -/
def ofLink (m : LinkM σ α) : ToolM σ α :=
  ofFun fun s => let (r, s) := m.exec s; (r.mapError .link, s)

/-- Work on a part of the state. -/
def within (p : Part τ σ) (m : ToolM σ α) : ToolM τ α :=
  ofFun fun t => let (r, s) := m.exec (p.get t); (r, p.set s t)

/-- The outcome as a value, so that what follows runs in either case. -/
def outcome (m : ToolM σ α) : ToolM σ (Except ToolError α) :=
  ofFun fun s => let (r, s) := m.exec s; (.ok r, s)

/-- Go on with an outcome. -/
def lift (r : Except ToolError α) : ToolM σ α := ofFun fun s => (r, s)

end ToolM

end DetectorLink
