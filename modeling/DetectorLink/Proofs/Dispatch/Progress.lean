import DetectorLink.Dispatch
import DetectorLink.Proofs.SharedWindow.Walkers

/-!
# Progress of a dispatch nobody marks

Handlers that mark nothing leave it to the window how much of it is released: the packets at its
start, or one word of an impossible header, or nothing when it ends inside a packet. In each case
the scan of a stream that starts with the window goes on where the release ends.
-/

namespace DetectorLink

namespace Progress

/-- What is released of a window that nobody marks. -/
theorem ofWindow_zero_cases (window : Bytes) :
    (Packet.validLength? window ≠ none ∧
      ofWindow window 0 = .packets (Packet.validPrefix window).1) ∨
    (Packet.corruptHead window = true ∧ ofWindow window 0 = .skipped) ∨
    (Packet.validLength? window = none ∧ Packet.corruptHead window = false ∧
      ofWindow window 0 = .partialPacket) := by
  by_cases hv : Packet.validLength? window = none
  · have hz := (Packet.validPrefix_eq_zero_iff window).mpr hv
    cases hc : Packet.corruptHead window with
    | true =>
      exact .inr (.inl ⟨rfl, by simp only [ofWindow, hz, hc, Nat.lt_irrefl, ite_true, ite_false]⟩)
    | false =>
      exact .inr (.inr ⟨hv, rfl, by
        simp only [ofWindow, hz, hc, Nat.lt_irrefl, Bool.false_eq_true, ite_false]⟩)
  · have hz : (Packet.validPrefix window).1 ≠ 0 := fun h ↦
      hv ((Packet.validPrefix_eq_zero_iff window).mp h)
    have hp := Nat.pos_of_ne_zero hz
    exact .inl ⟨hv, by simp only [ofWindow, hp, Nat.lt_irrefl, ite_true, ite_false]⟩

variable (window : Bytes)

/-- The released bytes are the packets of the walk and the skipped words. -/
theorem bytes_ofWindow_zero :
    (ofWindow window 0).bytes =
      ((Packet.walk window).map Packet.bytes).flatten.length +
        alignment * (ofWindow window 0).resyncs := by
  have hp : (Packet.validPrefix window).1 = _ := congrArg Prod.fst (Packet.validPrefix_eq window)
  dsimp only at hp
  rcases ofWindow_zero_cases window with ⟨_, h⟩ | ⟨hc, h⟩ | ⟨hv, _, h⟩
  · rw [h, ← hp]
    exact alignDown_of_mod_eq_zero (Packet.validPrefix_mod window)
  · rw [h, Packet.walk_of_none (Packet.validLength?_of_corruptHead hc)]
    rfl
  · rw [h, Packet.walk_of_none hv]
    rfl

/-- Without an impossible header just the packets of the valid prefix are released. -/
theorem bytes_ofWindow_zero_of_not_corrupt {window : Bytes}
    (hc : Packet.corruptHead window = false) :
    (ofWindow window 0).bytes = (Packet.validPrefix window).1 := by
  rcases ofWindow_zero_cases window with ⟨_, h⟩ | ⟨hcorrupt, _⟩ | ⟨hv, _, h⟩
  · rw [h]
    exact alignDown_of_mod_eq_zero (Packet.validPrefix_mod window)
  · exact absurd (hc.symm.trans hcorrupt) Bool.false_ne_true
  · rw [h, (Packet.validPrefix_eq_zero_iff window).mpr hv]
    rfl

/-- No more than the window is released. -/
theorem bytes_ofWindow_zero_le : (ofWindow window 0).bytes ≤ window.length := by
  rcases ofWindow_zero_cases window with ⟨_, h⟩ | ⟨hc, h⟩ | ⟨_, _, h⟩ <;> rw [h]
  · exact Nat.le_trans (alignDown_le _) (Packet.validPrefix_le window)
  · exact Packet.alignment_le_of_corruptHead hc
  · exact Nat.zero_le _

/-- Whole units are released, whoever marked what. -/
theorem bytes_mod (p : Progress) : p.bytes % 4 = 0 := by
  cases p with
  | packets n => exact alignDown_mod n
  | skipped => rfl
  | partialPacket => rfl

/-- Nothing is released exactly of a window that ends inside its first packet. -/
theorem bytes_ofWindow_zero_eq_zero_iff :
    (ofWindow window 0).bytes = 0 ↔
      Packet.validLength? window = none ∧ Packet.corruptHead window = false := by
  rcases ofWindow_zero_cases window with ⟨hv, h⟩ | ⟨hc, h⟩ | ⟨hv, hc, h⟩
  · have hz : (Packet.validPrefix window).1 ≠ 0 := fun he ↦
      hv ((Packet.validPrefix_eq_zero_iff window).mp he)
    rw [h, bytes, alignDown_of_mod_eq_zero (Packet.validPrefix_mod window)]
    exact iff_of_false hz fun he ↦ hv he.1
  · rw [h, bytes, hc]
    exact iff_of_false (by decide) fun he ↦ Bool.noConfusion he.2
  · rw [h]
    exact iff_of_true rfl ⟨hv, hc⟩

/-- The scan of a stream takes the packets of a window at its start and goes on behind what is
released of the window. -/
theorem scan_append_eq_walk (more : Bytes) :
    Packet.scan (window ++ more) =
      (Packet.walk window).map Packet.bytes ++
        Packet.scan ((window ++ more).drop (ofWindow window 0).bytes) := by
  rcases ofWindow_zero_cases window with ⟨_, h⟩ | ⟨hc, h⟩ | ⟨_, _, h⟩
  · rw [h, bytes, alignDown_of_mod_eq_zero (Packet.validPrefix_mod window)]
    exact Packet.scan_append_eq_walk window more
  · rw [h, Packet.walk_of_none (Packet.validLength?_of_corruptHead hc)]
    exact Packet.scan_of_corruptHead (Packet.corruptHead_append hc more)
  · have hv : Packet.walk window = [] := Packet.walk_of_none ‹_›
    rw [h, hv]
    rfl

end Progress

namespace Dispatch

variable {σ : Type}

/-- A handler that marks nothing in any window. -/
def Unmarking (h : Handler σ) : Prop := ∀ reservation s, ((h reservation).run s).1 = []

/-- What handlers do to the state, one after the other. -/
def effects (handlers : List (Handler σ)) (window : Bytes) (s : σ) : σ :=
  handlers.foldl (fun s h ↦ ((h ⟨window⟩).run s).2) s

private theorem visit_of_unmarking {h : Handler σ} (hm : Unmarking h) (window : Bytes) (s : σ) :
    visit h ⟨some window, true, 0, 0⟩ s = (⟨some window, true, 0, 0⟩, ((h ⟨window⟩).run s).2) := by
  have hr : SharedWindow.reserve? ⟨some window, true, 0, 0⟩ =
      some (⟨window⟩, ⟨some window, true, 1, 0⟩) := rfl
  have hmarks := hm ⟨window⟩ s
  simp only [visit, hr]
  generalize (h ⟨window⟩).run s = result at hmarks ⊢
  obtain ⟨marks, t⟩ := result
  obtain rfl : marks = [] := hmarks
  rfl

/-- Handlers that mark nothing leave the window unmarked. -/
theorem visitAll_of_unmarking {handlers : List (Handler σ)} (hm : ∀ h ∈ handlers, Unmarking h)
    (window : Bytes) (s : σ) :
    visitAll handlers window s = (0, effects handlers window s) := by
  unfold visitAll
  induction handlers generalizing s with
  | nil => rfl
  | cons h rest ih =>
    have hvisit := visit_of_unmarking (hm h List.mem_cons_self) window s
    simp only [List.foldl_cons, hvisit]
    exact ih (fun k hk ↦ hm k (List.mem_cons_of_mem h hk)) _

/-- A dispatch of a window that nobody marks counts it and releases what the window says, if that
succeeds. -/
theorem once_of_release_ok {source : Source σ} {handlers : List (Handler σ)}
    (hm : ∀ h ∈ handlers, Unmarking h) {timeout : Option Nat} {stats : DispatchStats} {s t u : σ}
    {window : Bytes} (hw : (source.wait timeout).exec s = (.ok window, t))
    (hu : if (Progress.ofWindow window 0).bytes = 0 then u = effects handlers window t
      else (source.release (Progress.ofWindow window 0).bytes).exec (effects handlers window t) =
        (.ok (), u)) :
    (once source handlers timeout).exec (stats, s) =
      (.ok (Progress.ofWindow window 0).bytes,
        (stats.count window (Progress.ofWindow window 0), u)) := by
  simp only [once, LinkM.exec_ofFun, hw, visitAll_of_unmarking hm]
  split at hu
  · next hz => simp only [hz, ite_true, hu]
  · next hz => simp only [hz, ite_false, hu]

/-- A dispatch of a window that nobody marks counts it and, from a source that always releases,
releases what the window says. -/
theorem once_of_wait_ok {source : Source σ} {release : Nat → σ → σ}
    (hr : ∀ n s, (source.release n).exec s = (.ok (), release n s)) {handlers : List (Handler σ)}
    (hm : ∀ h ∈ handlers, Unmarking h) {timeout : Option Nat} {stats : DispatchStats} {s t : σ}
    {window : Bytes} (hw : (source.wait timeout).exec s = (.ok window, t)) :
    let progress := Progress.ofWindow window 0
    let shown := effects handlers window t
    (once source handlers timeout).exec (stats, s) =
      (.ok progress.bytes, (stats.count window progress,
        if progress.bytes = 0 then shown else release progress.bytes shown)) := by
  refine once_of_release_ok hm hw ?_
  split
  · rfl
  · exact hr _ _

/-- A dispatch whose wait fails does nothing more. -/
theorem once_of_wait_error {source : Source σ} {handlers : List (Handler σ)}
    {timeout : Option Nat} {stats : DispatchStats} {s t : σ} {e : LinkError}
    (hw : (source.wait timeout).exec s = (.error e, t)) :
    (once source handlers timeout).exec (stats, s) = (.error e, (stats, t)) := by
  simp only [once, LinkM.exec_ofFun, hw]

end Dispatch

end DetectorLink
