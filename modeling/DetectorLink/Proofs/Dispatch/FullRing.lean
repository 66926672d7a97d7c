import DetectorLink.Config.Basic
import DetectorLink.Proofs.Dispatch.Progress
import DetectorLink.Proofs.Ring.Queue
import DetectorLink.Ring.Copier

/-!
# Dispatching from a full ring

While a ring is full nothing is copied into it, so that only a dispatch can make room. A ring keeps
one unit free. The shortest ring that a configuration accepts is as long as the longest packet, and
so it is full before that packet is complete: such a packet is never released. In every other full
ring a dispatch makes room.
-/

namespace DetectorLink

/-- A ring that a valid configuration asks for is made of whole units and at least as long as the
longest packet. -/
theorem LinkConfig.localBufferSize_of_validate {config : LinkConfig}
    (hv : config.validate = .ok ()) (hz : config.localBufferSize ≠ 0) :
    config.localBufferSize % 4 = 0 ∧ Packet.maxLength ≤ config.localBufferSize := by
  unfold validate at hv
  split at hv
  · cases hv
  · split at hv
    · cases hv
    · next hc =>
      simp only [alignment] at hc
      omega

namespace Ring

variable {r : Ring}

/-- A full ring has all bytes in use but one unit. -/
theorem isFull_iff_used : r.isFull = true ↔ r.used = r.size - alignment := beq_iff_eq

/-- The window of a full ring ends inside its first packet exactly if that is the longest packet
and the ring is no longer than it. -/
theorem window_partial_iff (h : r.WellFormed) (hf : r.isFull = true)
    (hs : Packet.maxLength ≤ r.size) :
    (Packet.validLength? r.window = none ∧ Packet.corruptHead r.window = false) ↔
      r.size = Packet.maxLength ∧
        ∃ p, Packet.parse r.pending = .ok p ∧ p.length = Packet.maxLength := by
  have hu : r.pending.length = r.size - alignment :=
    (length_pending h).trans (isFull_iff_used.mp hf)
  have hm : r.size % 4 = 0 := h.offsets.size_mod
  have hmax : Packet.maxLength = 14424 := rfl
  have hunit : alignment = 4 := rfl
  constructor
  · rintro ⟨hv, hc⟩
    -- all that is pending is seen, so the packet is longer than a full ring can hold
    have hall := window_eq_pending_of_partial h hv hc
    rw [hall] at hv hc
    rcases Packet.partial_cases hv hc with hshort | ⟨p, hp, ha, hl⟩
    · have hb : Header.byteCount = 24 := rfl
      omega
    · simp only [Packet.allowedLength, Bool.and_eq_true, decide_eq_true_eq] at ha
      have hunits : p.length % 4 = 0 := ha.2
      have hlen : p.length = Packet.maxLength := by omega
      exact ⟨by omega, p, hp, hlen⟩
  · rintro ⟨hsize, p, hp, hl⟩
    have hw : r.window = r.pending := by
      rcases window_eq_pending_or_le h with hw | hw
      · exact hw
      · have := (isPrefix_window h).length_le
        omega
    rw [hw]
    constructor
    · rw [Option.eq_none_iff_forall_ne_some]
      intro n hn
      obtain ⟨q, hq, hqn, _, hle⟩ := Packet.validLength?_eq_some_iff.mp hn
      obtain rfl := Except.ok.inj (hp.symm.trans hq)
      omega
    · rw [Bool.eq_false_iff]
      intro hc
      obtain ⟨q, hq, ha⟩ := Packet.corruptHead_iff.mp hc
      obtain rfl := Except.ok.inj (hp.symm.trans hq)
      rw [hl] at ha
      exact absurd ha (by decide)

end Ring

/-- A copier backs off exactly while the ring is full. -/
theorem Copier.step_eq_full_iff {ρ : Type} (source : Source ρ) (poll : Nat) (ring : Ring) (s : ρ) :
    (Copier.step source poll ring s).1 = .full ↔ ring.isFull = true := by
  have hmove (data : Bytes) (s : ρ) : (move source data ring s).1 ≠ .full := by
    unfold move
    split
    · exact CopyStep.noConfusion
    · dsimp only
      split
      · exact CopyStep.noConfusion
      · split <;> exact CopyStep.noConfusion
  unfold step
  split
  · next hf => exact iff_of_true rfl hf
  · next hf =>
    refine iff_of_false ?_ hf
    split
    · exact hmove _ _
    · exact CopyStep.noConfusion
    · exact CopyStep.noConfusion

namespace Dispatch

variable {τ : Type}

/-- Looks at a window, works on `τ`, and marks nothing; the ring is not its business. -/
def onlooker (look : Reservation → τ → τ) : Handler (Ring × τ) := fun reservation ↦ do
  modify fun (r, t) ↦ (r, look reservation t)
  return []

theorem unmarking_onlookers (looks : List (Reservation → τ → τ)) :
    ∀ h ∈ looks.map onlooker, Unmarking h := by
  intro h hh
  obtain ⟨look, _, rfl⟩ := List.mem_map.mp hh
  exact fun _ _ ↦ rfl

/-- Onlookers leave the ring alone. -/
theorem effects_onlookers (looks : List (Reservation → τ → τ)) (window : Bytes) (r : Ring) (t : τ) :
    effects (looks.map onlooker) window (r, t) =
      (r, looks.foldl (fun t look ↦ look ⟨window⟩ t) t) := by
  induction looks generalizing t with
  | nil => rfl
  | cons look rest ih => exact ih (look ⟨window⟩ t)

private theorem release_within_first (n : Nat) (s : Ring × τ) :
    ((Ring.source.within (Part.first : Part (Ring × τ) Ring)).release n).exec s =
      (.ok (), (s.1.consume n, s.2)) := rfl

/-- A dispatch from a ring that is not empty and has no error answers how much the window says, and
takes as much from the ring. -/
theorem once_ring_onlookers {r : Ring} (h : r.WellFormed) (he : r.error = none)
    (hu : r.used ≠ 0) (looks : List (Reservation → τ → τ)) (timeout : Option Nat)
    (stats : DispatchStats) (t : τ) :
    let progress := Progress.ofWindow r.window 0
    (once (Ring.source.within .first) (looks.map onlooker) timeout).exec (stats, (r, t)) =
      (.ok progress.bytes, (stats.count r.window progress,
        (if progress.bytes = 0 then r else r.consume progress.bytes,
          looks.foldl (fun t look ↦ look ⟨r.window⟩ t) t))) := by
  intro progress
  have hw : r.wait = .ok r.window :=
    (Ring.wait_eq_ok_iff h).mpr ⟨he, Nat.pos_of_ne_zero hu, rfl⟩
  have hwait : ((Ring.source.within (Part.first : Part (Ring × τ) Ring)).wait timeout).exec (r, t) =
      (.ok r.window, (r, t)) := congrArg (·, (r, t)) hw
  rw [once_of_wait_ok release_within_first (unmarking_onlookers looks) hwait, effects_onlookers]
  by_cases hz : progress.bytes = 0
  · simp only [progress, hz, ite_true]
  · simp only [progress, hz, ite_false]

/-- In any state of a ring of a size that a valid configuration asks for, in which it is full and
without an error, a dispatch to onlookers consumes what it answers: at least one unit, so that the
copier of the ring goes on, unless the ring is just as long as the longest packet and such a packet
is at its front; then it consumes nothing, the ring stays as it is and the copier backs off. -/
theorem once_full_ring (config : LinkConfig) (hv : config.validate = .ok ())
    (hz : config.localBufferSize ≠ 0) {r : Ring} (hr : Ring.create config.localBufferSize = .ok r)
    (actions : List Ring.Action) :
    let h := (Ring.History.start r).run actions
    h.ring.isFull = true → h.ring.error = none →
    ∀ (looks : List (Reservation → τ → τ)) (timeout : Option Nat) (stats : DispatchStats) (t : τ),
    ∃ n stats' r' t',
      (once (Ring.source.within .first) (looks.map onlooker) timeout).exec (stats, (h.ring, t)) =
        (.ok n, (stats', (r', t'))) ∧
      r'.used + n = h.ring.used ∧ n % alignment = 0 ∧
      (alignment ≤ n ↔ ¬(config.localBufferSize = Packet.maxLength ∧
        ∃ p, Packet.parse (h.accepted.drop h.consumed) = .ok p ∧ p.length = Packet.maxLength)) ∧
      (n = 0 → r' = h.ring) ∧
      ∀ (ρ : Type) (source : Source ρ) (poll : Nat) (s : ρ),
        (Copier.step source poll r' s).1 = .full ↔ n = 0 := by
  intro h hf he looks timeout stats t
  have hs : h.Sound config.localBufferSize :=
    Ring.History.sound_run (Ring.History.sound_start hr) actions
  obtain ⟨_, hmax⟩ := LinkConfig.localBufferSize_of_validate hv hz
  have hsize : h.ring.size = config.localBufferSize := hs.size
  rw [← hsize] at hmax ⊢
  have hmaxlen : Packet.maxLength = 14424 := rfl
  have hunit : alignment = 4 := rfl
  have hfull := Ring.isFull_iff_used.mp hf
  have hexec := once_ring_onlookers hs.ring he (by omega) looks timeout stats t
  have hpartial := Ring.window_partial_iff hs.ring hf hmax
  rw [← Progress.bytes_ofWindow_zero_eq_zero_iff, hs.pending] at hpartial
  have hle := Nat.le_trans (Progress.bytes_ofWindow_zero_le h.ring.window)
    (Ring.isPrefix_window hs.ring).length_le
  have hmod := Progress.bytes_mod (Progress.ofWindow h.ring.window 0)
  obtain ⟨hleft, hpending⟩ := Ring.pending_release hs.ring hmod hle
  have hused := congrArg List.length hpending
  rw [List.length_drop, Ring.length_pending hs.ring, Ring.length_pending hleft] at hused
  rw [Ring.length_pending hs.ring] at hle
  refine ⟨_, _, _, _, hexec, ?_⟩
  generalize (Progress.ofWindow h.ring.window 0).bytes = n at hpartial hle hmod hused
  refine ⟨by omega, hmod, ?_, fun hn ↦ ite_cond_eq_true _ _ (eq_true hn), ?_⟩
  · rw [← hpartial]
    omega
  · intro ρ source poll s
    rw [Copier.step_eq_full_iff, Ring.isFull_iff_used, hused]
    split
    · omega
    · have hkeep : (h.ring.consume n).size = h.ring.size := rfl
      omega

/-- A ring of 14424 bytes with all but the last word of a packet of that length stays full. -/
theorem once_full_ring_longest_packet :
    let config : LinkConfig := ⟨"/dev/snsocb0", .hardware, .optical, 14424, 100⟩
    let packet : Packet := ⟨⟨0, 0, 0, 14400, 0, 0⟩, List.replicate 14396 0⟩
    let h := (Ring.History.start ⟨.empty 14424, .empty, none⟩).run [.push packet.window]
    config.validate = .ok () ∧ h.ring.isFull = true ∧
      ∃ stats t, (once (Ring.source.within .first) [onlooker fun _ n ↦ n + 1] none).exec
        (.zero, (h.ring, 0)) = (.ok 0, (stats, (h.ring, t))) := by
  intro config packet h
  have hv : LinkConfig.validate ⟨"/dev/snsocb0", .hardware, .optical, 14424, 100⟩ = .ok () := by
    rfl
  have hr : Ring.create 14424 = .ok ⟨.empty 14424, .empty, none⟩ := by rfl
  have hs : h.Sound 14424 := Ring.History.sound_run (Ring.History.sound_start hr) _
  have hlen : packet.window.length = 14420 := by
    rw [Packet.window, List.length_append, Header.length_toBytes, List.length_replicate]
    rfl
  have hpush : (Ring.push ⟨.empty 14424, .empty, none⟩ packet.window).1 = 14420 := by
    rw [Ring.fst_push, hlen]
    rfl
  have haccepted : h.accepted = packet.window := by
    show [] ++ packet.window.take (Ring.push ⟨.empty 14424, .empty, none⟩ packet.window).1 = _
    rw [hpush, ← hlen, List.take_length, List.nil_append]
  have hf : h.ring.isFull = true := by
    rw [Ring.isFull_iff_used, hs.used_eq, hs.size, haccepted, hlen]
    rfl
  have he : h.ring.error = none := by
    show (Ring.push ⟨.empty 14424, .empty, none⟩ packet.window).2.error = none
    exact Ring.error_push_of_accepted (by rw [hpush]; decide)
  obtain ⟨n, stats, r, t, hexec, _, hunits, hiff, hkept, _⟩ :=
    once_full_ring _ hv (by decide) hr [.push packet.window] hf he [fun _ n ↦ n + 1] none .zero 0
  have hjam : ∃ p, Packet.parse (h.accepted.drop h.consumed) = .ok p ∧
      p.length = Packet.maxLength := by
    refine ⟨packet, ?_, by simp only [packet]; rfl⟩
    rw [haccepted]
    exact Packet.parse_eq_ok_iff.mpr rfl
  have hn : n = 0 := by
    have hlt : ¬alignment ≤ n := fun hle ↦ hiff.mp hle ⟨rfl, hjam⟩
    simp only [alignment] at hlt hunits
    omega
  rw [hn, hkept hn] at hexec
  exact ⟨hv, hf, stats, t, hexec⟩

end Dispatch

end DetectorLink
