import DetectorLink.Link.Source

/-!
# Running link operations

An operation that goes on after a first one runs it first, and stops where that fails. Proofs about
operations look inside them with these statements. Operations on a part of a state are understood
where the part is lawful, and an operation may do to a part of its state what another one does to
that part alone.
-/

namespace DetectorLink

/-- What follows an operation goes on where it ended; nothing follows a failure. -/
theorem run_bind {ε σ α β : Type} (m : ExceptT ε (StateM σ) α) (f : α → ExceptT ε (StateM σ) β)
    (s : σ) :
    (m >>= f).run.run s = match m.run.run s with
      | (.ok a, t) => (f a).run.run t
      | (.error e, t) => (.error e, t) := by
  show (match m s with | (a, t) => ExceptT.bindCont f a t) = _
  show _ = match m s with | (.ok a, t) => (f a).run.run t | (.error e, t) => (.error e, t)
  rcases m s with ⟨_ | a, t⟩ <;> rfl

namespace LinkM

variable {σ α β : Type} {m : LinkM σ α} {s t : σ}

theorem exec_bind (m : LinkM σ α) (f : α → LinkM σ β) (s : σ) :
    (m >>= f).exec s = match m.exec s with
      | (.ok a, t) => (f a).exec t
      | (.error e, t) => (.error e, t) := by
  unfold exec
  rw [run_bind]
  rcases m.run.run s with ⟨_ | a, t⟩ <;> rfl

/-- What follows goes on where the first operation ended. -/
theorem exec_bind_ok {a : α} (f : α → LinkM σ β) (h : m.exec s = (.ok a, t)) :
    (m >>= f).exec s = (f a).exec t := by
  rw [exec_bind, h]

/-- Nothing follows a failure. -/
theorem exec_bind_error {e : LinkError} (f : α → LinkM σ β) (h : m.exec s = (.error e, t)) :
    (m >>= f).exec s = (.error e, t) := by
  rw [exec_bind, h]

end LinkM

/-- What is put into a part can be read there, and nothing else has changed. -/
structure Part.Lawful {σ τ : Type} (p : Part τ σ) : Prop where
  get_set : ∀ s t, p.get (p.set s t) = s
  set_set : ∀ s s' t, p.set s (p.set s' t) = p.set s t
  set_get : ∀ t, p.set (p.get t) t = t

theorem Part.lawful_first {σ τ : Type} : (first : Part (σ × τ) σ).Lawful :=
  ⟨fun _ _ ↦ rfl, fun _ _ _ ↦ rfl, fun _ ↦ rfl⟩

theorem Part.lawful_second {σ τ : Type} : (second : Part (σ × τ) τ).Lawful :=
  ⟨fun _ _ ↦ rfl, fun _ _ _ ↦ rfl, fun _ ↦ rfl⟩

/-- An operation that does to a part of its state what another one does to it alone, as long as `P`
holds. -/
def Mirrors {σ τ α : Type} (P : τ → Prop) (part : τ → σ) (m : LinkM τ α) (m' : LinkM σ α) : Prop :=
  ∀ t, P t → m'.exec (part t) = ((m.exec t).1, part (m.exec t).2) ∧ P (m.exec t).2

namespace Mirrors

variable {σ τ α β : Type} {P : τ → Prop} {part : τ → σ}

theorem bind {m : LinkM τ α} {m' : LinkM σ α} {f : α → LinkM τ β} {f' : α → LinkM σ β}
    (hm : Mirrors P part m m') (hf : ∀ a, Mirrors P part (f a) (f' a)) :
    Mirrors P part (m >>= f) (m' >>= f') := by
  intro t ht
  obtain ⟨hexec, hp⟩ := hm t ht
  rw [LinkM.exec_bind, LinkM.exec_bind, hexec]
  rcases hr : m.exec t with ⟨e | a, u⟩
  · rw [hr] at hp
    exact ⟨rfl, hp⟩
  · rw [hr] at hp
    exact hf a u hp

theorem outcome {m : LinkM τ α} {m' : LinkM σ α} (hm : Mirrors P part m m') :
    Mirrors P part m.outcome m'.outcome := by
  intro t ht
  obtain ⟨hexec, hp⟩ := hm t ht
  refine ⟨?_, hp⟩
  have hr : m'.outcome.exec (part t) = (.ok (m'.exec (part t)).1, (m'.exec (part t)).2) := rfl
  rw [hr, hexec]
  rfl

theorem pure (a : α) : Mirrors P part (pure a : LinkM τ α) (pure a : LinkM σ α) :=
  fun _ ht ↦ ⟨rfl, ht⟩

/-- What goes on from the state goes on from its part. -/
theorem read_bind {f : τ → LinkM τ β} {f' : σ → LinkM σ β}
    (h : ∀ t, Mirrors P part (f t) (f' (part t))) :
    Mirrors P part (LinkM.read >>= f) (LinkM.read >>= f') := fun t ht ↦ h t t ht

end Mirrors

end DetectorLink
