import DetectorLink.Proofs.Link.Effect
import DetectorLink.Tool.Effect

/-!
# Running operations with a state

Two ways to say what an operation does: what it leaves in place however it ends, and where it ends,
for its answer and for its failure. Both go through a sequence of operations step by step.
-/

namespace DetectorLink

variable {ε σ τ α β : Type} {P : σ → Prop}

/-- An operation leaves a property of the state in place, whether or not it fails. -/
def Keeps (P : σ → Prop) (m : ExceptT ε (StateM σ) α) : Prop := ∀ s, P s → P (m.run.run s).2

namespace Keeps

/-- The same of an operation on a link. -/
theorem exec {m : LinkM σ α} (hm : Keeps P m) {s : σ} (hs : P s) : P (m.exec s).2 := hm s hs

theorem bind {m : ExceptT ε (StateM σ) α} {f : α → ExceptT ε (StateM σ) β} (hm : Keeps P m)
    (hf : ∀ a, Keeps P (f a)) : Keeps P (m >>= f) := by
  intro s hs
  have ht := hm s hs
  rw [run_bind]
  split <;> next hr => rw [hr] at ht; first | exact hf _ _ ht | exact ht

theorem pure (a : α) : Keeps P (pure a : ExceptT ε (StateM σ) α) := fun _ hs ↦ hs

theorem fail (e : LinkError) : Keeps P (LinkM.fail e : LinkM σ α) := fun _ hs ↦ hs

theorem read : Keeps P LinkM.read := fun _ hs ↦ hs

theorem change {f : σ → σ} (hf : ∀ s, P s → P (f s)) : Keeps P (LinkM.change f) := hf

theorem outcome {m : LinkM σ α} (hm : Keeps P m) : Keeps P m.outcome := hm

theorem within {m : LinkM σ α} (hm : Keeps P m) {p : Part τ σ} (hp : p.Lawful) :
    Keeps (fun t ↦ P (p.get t)) (m.within p) := by
  intro t ht
  show P (p.get (p.set (m.exec (p.get t)).2 t))
  rw [hp.get_set]
  exact hm _ ht

end Keeps

section Ends

variable {good : α → σ → Prop} {bad : ε → σ → Prop} {s : σ}

/-- An operation answers so, or fails so. -/
def Ends (m : ExceptT ε (StateM σ) α) (s : σ) (good : α → σ → Prop) (bad : ε → σ → Prop) : Prop :=
  match m.run.run s with
  | (.ok a, t) => good a t
  | (.error e, t) => bad e t

namespace Ends

theorem imp {m : ExceptT ε (StateM σ) α} {good' : α → σ → Prop} {bad' : ε → σ → Prop}
    (h : Ends m s good bad) (hgood : ∀ a t, good a t → good' a t)
    (hbad : ∀ e t, bad e t → bad' e t) : Ends m s good' bad' := by
  unfold Ends at h ⊢
  rcases hm : m.run.run s with ⟨e | a, t⟩ <;> rw [hm] at h
  · exact hbad e t h
  · exact hgood a t h

/-- What follows starts where the first operation ended, unless that failed. -/
theorem bind {m : ExceptT ε (StateM σ) α} {f : α → ExceptT ε (StateM σ) β} {good' : β → σ → Prop}
    {bad' : ε → σ → Prop} (h : Ends m s good bad) (hbad : ∀ e t, bad e t → bad' e t)
    (hgood : ∀ a t, good a t → Ends (f a) t good' bad') : Ends (m >>= f) s good' bad' := by
  unfold Ends at h ⊢
  rw [run_bind]
  rcases hm : m.run.run s with ⟨e | a, t⟩ <;> rw [hm] at h
  · exact hbad e t h
  · exact hgood a t h

/-- What an operation on a link came to is known when its outcome is taken. -/
theorem outcome {m : LinkM σ α} {bad : LinkError → σ → Prop} (h : Ends m s good bad) :
    Ends m.outcome s
      (fun r t ↦ match r with
        | .ok a => good a t
        | .error e => bad e t)
      fun _ _ ↦ False := by
  have hr : m.outcome.run.run s = (.ok (m.run.run s).1, (m.run.run s).2) := rfl
  unfold Ends at h ⊢
  rw [hr]
  rcases hm : m.run.run s with ⟨e | a, t⟩ <;> rw [hm] at h <;> exact h

/-- What holds however an operation on a link ends holds of what it leaves. -/
theorem of_exec {m : LinkM σ α} (h : Ends m s (fun _ ↦ P) fun _ ↦ P) : P (m.exec s).2 := by
  unfold Ends at h
  unfold LinkM.exec
  rcases hm : m.run.run s with ⟨e | a, t⟩ <;> rw [hm] at h <;> exact h

variable {bad : ToolError → σ → Prop}

theorem exec {m : ToolM σ α} (h : Ends m s good bad) :
    match m.exec s with
    | (.ok a, t) => good a t
    | (.error e, t) => bad e t := by
  unfold Ends at h
  unfold ToolM.exec
  rcases hm : m.run.run s with ⟨e | a, t⟩ <;> rw [hm] at h <;> exact h

/-- An operation given by its effect ends where that does. -/
theorem ofFun {f : σ → Except ToolError α × σ}
    (h : match f s with
      | (.ok a, t) => good a t
      | (.error e, t) => bad e t) : Ends (ToolM.ofFun f) s good bad := by
  have hf : (ToolM.ofFun f).run.run s = f s := rfl
  unfold Ends
  rw [hf]
  rcases hr : f s with ⟨e | a, t⟩ <;> rw [hr] at h <;> exact h

end Ends

end Ends

end DetectorLink
