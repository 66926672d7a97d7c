import DetectorLink.Proofs.SharedWindow.Log

/-!
# Who holds a shared window

A history keeps the reservations that were not given back and the log of what was done. After any
calls the count is the implicit holder and the living reservations; as long as it is not zero the
window stays as it was installed, so that the bytes of a reservation are those of the window it was
taken of.
-/

namespace DetectorLink

/-- Where a packet ends that starts in a window. -/
def Placed.stopIn? (p : Placed) (window : Bytes) : Option Nat :=
  p.offset?.bind fun o => if o < window.length then some (o + p.packet.length) else none

theorem Reservation.endOf?_eq (r : Reservation) (p : Placed) : r.endOf? p = p.stopIn? r.bytes := by
  rw [endOf?, offsetOf?, Placed.stopIn?]
  cases p.offset? with
  | none => rfl
  | some o =>
    rw [Option.filter_some, Option.bind_some]
    simp only [Bytes.covers_iff, Nat.succ_le_iff]
    split
    · rfl
    · rfl

namespace SharedWindow

/-! ### The calls -/

variable {w : SharedWindow}

theorem refcount_eq_zero_iff : w.refcount = 0 ↔ w.reservations = 0 ∧ w.held = false := by
  rw [refcount, Nat.add_eq_zero_iff]
  cases w.held <;> simp

/-- An installation replaces the window, unless it is held: then the new one is handed back. -/
theorem install_cases (w : SharedWindow) (bytes : Bytes) :
    (w.refcount = 0 ∧
      w.install bytes = .ok { w with window? := some bytes, held := true, consumed := 0 }) ∨
    (0 < w.refcount ∧ w.install bytes = .error bytes) := by
  rcases Nat.eq_zero_or_pos w.refcount with h | h
  · exact .inl ⟨h, ite_cond_eq_true _ _ (eq_true h)⟩
  · exact .inr ⟨h, ite_cond_eq_false _ _ (eq_false (Nat.ne_of_gt h))⟩

/-- A reservation shows the window that is installed, and is counted. -/
theorem reserve?_eq_some_iff {r : Reservation} {w' : SharedWindow} :
    w.reserve? = some (r, w') ↔ 0 < w.refcount ∧ w.window? = some r.bytes ∧
      w' = { w with reservations := w.reservations + 1 } := by
  unfold reserve?
  split
  · next h => simp [h]
  · next h =>
    rw [Option.map_eq_some_iff]
    constructor
    · rintro ⟨bytes, hb, he⟩
      obtain ⟨rfl, rfl⟩ := Prod.mk.inj he
      exact ⟨Nat.pos_of_ne_zero h, hb, rfl⟩
    · rintro ⟨_, hb, rfl⟩
      exact ⟨r.bytes, hb, rfl⟩

/-- Only a window that nobody holds is taken out. -/
theorem take?_eq_some_iff {bytes : Bytes} {w' : SharedWindow} :
    w.take? = some (bytes, w') ↔
      w.refcount = 0 ∧ w.window? = some bytes ∧ w' = { w with window? := none } := by
  unfold take?
  split
  · next h =>
    rw [Option.map_eq_some_iff]
    constructor
    · rintro ⟨_, hb, he⟩
      obtain ⟨rfl, rfl⟩ := Prod.mk.inj he
      exact ⟨h, hb, rfl⟩
    · rintro ⟨_, hb, rfl⟩
      exact ⟨bytes, hb, rfl⟩
  · next h => simp [h]

theorem isSome_take?_iff : w.take?.isSome ↔ w.refcount = 0 ∧ w.window?.isSome := by
  rw [Option.isSome_iff_exists, Option.isSome_iff_exists]
  constructor
  · rintro ⟨⟨bytes, w'⟩, ht⟩
    obtain ⟨h0, hb, _⟩ := take?_eq_some_iff.mp ht
    exact ⟨h0, bytes, hb⟩
  · rintro ⟨h0, bytes, hb⟩
    exact ⟨(bytes, _), take?_eq_some_iff.mpr ⟨h0, hb, rfl⟩⟩

/-- A packet of the window moves the furthest mark to its end, another one does not. -/
theorem mark_eq (w : SharedWindow) (r : Reservation) (p : Placed) :
    w.mark r p = { w with consumed := max w.consumed ((p.stopIn? r.bytes).getD 0) } := by
  rw [mark, r.endOf?_eq]
  cases p.stopIn? r.bytes with
  | none => simp
  | some stop => rfl

/-! ### Histories -/

/-- A reservation, with the number of the installation it was taken under. -/
structure Held where
  /-- Number of the installation. -/
  number : Nat
  /-- The reservation. -/
  reservation : Reservation
  deriving DecidableEq, Repr

/-- A shared window, the reservations that live, and what was done. -/
structure History where
  /-- The window. -/
  shared : SharedWindow
  /-- The reservations that were not given back. -/
  live : List Held
  /-- What was done, the last at the end. -/
  log : List Entry

/-- A call. -/
inductive Action where
  /-- Install a window. -/
  | install (bytes : Bytes)
  /-- Reserve the window. -/
  | reserve
  /-- Give a living reservation back. -/
  | drop (i : Nat)
  /-- Drop the implicit holder. -/
  | release
  /-- Mark everything up to and including a packet, by a living reservation. -/
  | mark (i : Nat) (last : Placed)
  /-- Take the window out. -/
  | take
  /-- Ask for the number of holders. -/
  | count
  deriving DecidableEq, Repr

namespace History

/-- Nothing was done. -/
def start : History := ⟨.empty, [], []⟩

/-- Go on with a call. One that is refused or that names no living reservation does nothing. -/
def step (h : History) : Action → History
  | .install bytes =>
    match h.shared.install? bytes with
    | some shared => { h with shared, log := h.log ++ [.installed bytes] }
    | none => h
  | .reserve =>
    match h.shared.reserve? with
    | some (reservation, shared) =>
      { shared
        live := h.live ++ [⟨(installs h.log).length - 1, reservation⟩]
        log := h.log ++ [.reserved] }
    | none => h
  | .drop i =>
    if i < h.live.length then
      { shared := h.shared.dropReservation
        live := h.live.eraseIdx i
        log := h.log ++ [.dropped] }
    else h
  | .release => { h with shared := h.shared.release, log := h.log ++ [.released] }
  | .mark i last =>
    match h.live[i]? with
    | some held =>
      { h with
        shared := h.shared.mark held.reservation last
        log := h.log ++ ((last.stopIn? held.reservation.bytes).map .marked).toList }
    | none => h
  | .take =>
    match h.shared.take? with
    | some (_, shared) => { h with shared, log := h.log ++ [.taken] }
    | none => h
  | .count => h

/-- Go on with calls, one after the other. -/
def run (h : History) (actions : List Action) : History := actions.foldl step h

/-- The window agrees with the log and with the reservations that live. -/
structure Sound (h : History) : Prop where
  held : h.shared.held = true ↔ HolderStays h.log
  reservations : h.shared.reservations = h.live.length
  reserved : (since h.log).count .reserved = (since h.log).count .dropped + h.live.length
  window : h.shared.window? = if .taken ∈ since h.log then none else (installs h.log).getLast?
  taken : .taken ∈ since h.log → h.shared.refcount = 0
  live : ∀ held ∈ h.live, held.number + 1 = (installs h.log).length ∧
    (installs h.log)[held.number]? = some held.reservation.bytes
  consumed : h.shared.consumed = furthest h.log

variable {h : History}

theorem sound_start : start.Sound where
  held := by simp [start, empty, HolderStays, installs]
  reservations := rfl
  reserved := rfl
  window := rfl
  taken := nofun
  live := nofun
  consumed := rfl

namespace Sound

theorem refcount_eq (hs : h.Sound) :
    h.shared.refcount = (if HolderStays h.log then 1 else 0) + h.live.length := by
  have hheld : h.shared.held.toNat = if HolderStays h.log then 1 else 0 := by
    split
    · next hstays => rw [hs.held.mpr hstays, Bool.toNat_true]
    · next hstays => rw [Bool.eq_false_iff.mpr (mt hs.held.mp hstays), Bool.toNat_false]
  rw [refcount, hs.reservations, hheld, Nat.add_comm]

/-- Without a holder no reservation lives. -/
theorem live_eq_nil (hs : h.Sound) (h0 : h.shared.refcount = 0) : h.live = [] := by
  rw [← List.length_eq_zero_iff, ← hs.reservations]
  exact (refcount_eq_zero_iff.mp h0).1

/-- A window that is held is the one that was installed last. -/
theorem window_of_pos (hs : h.Sound) (hp : 0 < h.shared.refcount) :
    ∃ bytes, h.shared.window? = some bytes ∧ (installs h.log).getLast? = some bytes := by
  have htaken : Entry.taken ∉ since h.log := fun ht ↦ Nat.ne_of_gt hp (hs.taken ht)
  -- before the first installation there is no holder, and no reservation could be taken
  have hne : installs h.log ≠ [] := by
    intro hnil
    have hstays : ¬HolderStays h.log := fun hstays ↦ hstays.1 hnil
    have hlive : h.live ≠ [] := by
      intro hl
      rw [hs.refcount_eq, hl, ite_cond_eq_false _ _ (eq_false hstays)] at hp
      exact Nat.lt_irrefl 0 hp
    obtain ⟨held, hm⟩ := List.exists_mem_of_ne_nil _ hlive
    have hn := (hs.live held hm).1
    rw [hnil] at hn
    contradiction
  refine ⟨(installs h.log).getLast hne, ?_, List.getLast?_eq_some_getLast hne⟩
  rw [hs.window, ite_cond_eq_false _ _ (eq_false htaken), List.getLast?_eq_some_getLast hne]

/-- A living reservation shows the window as it is installed. -/
theorem window_of_mem (hs : h.Sound) {held : Held} (hm : held ∈ h.live) :
    h.shared.window? = some held.reservation.bytes := by
  have hp : 0 < h.shared.refcount := by
    rw [hs.refcount_eq]
    have := List.length_pos_of_mem hm
    omega
  obtain ⟨bytes, hw, hl⟩ := hs.window_of_pos hp
  obtain ⟨hn, hb⟩ := hs.live held hm
  rw [List.getLast?_eq_getElem?, ← hn, Nat.add_sub_cancel, hb] at hl
  rw [hw, hl]

end Sound

theorem sound_install (hs : h.Sound) (bytes : Bytes) : (h.step (.install bytes)).Sound := by
  rcases install_cases h.shared bytes with ⟨h0, hi⟩ | ⟨_, hi⟩
  · -- no reservation of the former window is left, so nothing has to agree with the new one
    have hlive := hs.live_eq_nil h0
    simp only [step, install?, hi, Except.toOption]
    exact {
      held := iff_of_true rfl (holderStays_concat_installed h.log bytes)
      reservations := hs.reservations
      reserved := by simp [since_concat_installed, hlive]
      window := by simp [since_concat_installed, installs_concat_installed]
      taken := by simp [since_concat_installed]
      live := by simp [hlive]
      consumed := (furthest_concat_installed h.log bytes).symm }
  · simp only [step, install?, hi, Except.toOption]
    exact hs

theorem sound_reserve (hs : h.Sound) : (h.step .reserve).Sound := by
  cases hr : h.shared.reserve? with
  | none =>
    simp only [step, hr]
    exact hs
  | some p =>
    obtain ⟨r, shared⟩ := p
    obtain ⟨hp, hw, rfl⟩ := reserve?_eq_some_iff.mp hr
    obtain ⟨bytes, hbytes, hlast⟩ := hs.window_of_pos hp
    obtain rfl := Option.some.inj (hw.symm.trans hbytes)
    have hne : installs h.log ≠ [] := by
      intro hnil
      rw [hnil] at hlast
      contradiction
    have hpos := List.length_pos_of_ne_nil hne
    have hi : installs (h.log ++ [.reserved]) = installs h.log := installs_concat rfl
    have hc : since (h.log ++ [.reserved]) = since h.log ++ [.reserved] := since_concat rfl
    simp only [step, hr]
    exact {
      held := hs.held.trans (holderStays_concat (e := .reserved) rfl nofun).symm
      reservations := by simp [hs.reservations]
      reserved := by simp [hc, hs.reserved, Nat.add_assoc]
      window := by simp [hc, hi, hs.window]
      taken := by
        intro ht
        have := hs.taken (by simpa [hc] using ht)
        omega
      live := by
        intro held hm
        rw [hi]
        rcases List.mem_append.mp hm with hm | hm
        · exact hs.live held hm
        · obtain rfl := List.mem_singleton.mp hm
          refine ⟨Nat.sub_add_cancel hpos, ?_⟩
          rw [← List.getLast?_eq_getElem?, hlast]
      consumed := hs.consumed.trans (furthest_concat (e := .reserved) rfl rfl).symm }

theorem sound_drop (hs : h.Sound) (i : Nat) : (h.step (.drop i)).Sound := by
  by_cases hlt : i < h.live.length
  · have hi : installs (h.log ++ [.dropped]) = installs h.log := installs_concat rfl
    have hc : since (h.log ++ [.dropped]) = since h.log ++ [.dropped] := since_concat rfl
    have hl := List.length_eraseIdx_of_lt hlt
    simp only [step, hlt, ite_true]
    exact {
      held := hs.held.trans (holderStays_concat (e := .dropped) rfl nofun).symm
      reservations := by
        rw [hl, ← hs.reservations]
        rfl
      reserved := by
        have hcount : (since (h.log ++ [.dropped])).count .dropped =
            (since h.log).count .dropped + 1 := by simp [hc]
        have hsame : (since (h.log ++ [.dropped])).count .reserved =
            (since h.log).count .reserved := by simp [hc]
        rw [hcount, hsame, hs.reserved, hl]
        omega
      window := by simp [hc, hi, dropReservation, hs.window]
      taken := by
        intro ht
        have h0 := hs.taken (by simpa [hc] using ht)
        -- whoever gives a reservation back held the window
        rw [hs.live_eq_nil h0] at hlt
        contradiction
      live := by
        intro held hm
        rw [hi]
        exact hs.live held (List.mem_of_mem_eraseIdx hm)
      consumed := hs.consumed.trans (furthest_concat (e := .dropped) rfl rfl).symm }
  · simp only [step, hlt, ite_false]
    exact hs

theorem sound_release (hs : h.Sound) : (h.step .release).Sound := by
  have hi : installs (h.log ++ [.released]) = installs h.log := installs_concat rfl
  have hc : since (h.log ++ [.released]) = since h.log ++ [.released] := since_concat rfl
  exact {
    held := iff_of_false nofun (not_holderStays_concat_released h.log)
    reservations := hs.reservations
    reserved := by simpa [step, hc] using hs.reserved
    window := by simp [step, hc, hi, release, hs.window]
    taken := by
      intro ht
      have h0 := hs.taken (by simpa [step, hc] using ht)
      exact refcount_eq_zero_iff.mpr ⟨(refcount_eq_zero_iff.mp h0).1, rfl⟩
    live := by
      intro held hm
      simp only [step, hi]
      exact hs.live held hm
    consumed := hs.consumed.trans (furthest_concat (e := .released) rfl rfl).symm }

theorem sound_mark (hs : h.Sound) (i : Nat) (last : Placed) : (h.step (.mark i last)).Sound := by
  cases hheld : h.live[i]? with
  | none =>
    simp only [step, hheld]
    exact hs
  | some held =>
    simp only [step, hheld, mark_eq]
    cases last.stopIn? held.reservation.bytes with
    | none =>
      simp only [Option.map_none, Option.toList_none, List.append_nil, Option.getD_none, Nat.max_zero]
      exact hs
    | some stop =>
      have hi : installs (h.log ++ [.marked stop]) = installs h.log := installs_concat rfl
      have hc : since (h.log ++ [.marked stop]) = since h.log ++ [.marked stop] := since_concat rfl
      exact {
        held := hs.held.trans (holderStays_concat (e := .marked stop) rfl nofun).symm
        reservations := hs.reservations
        reserved := by simpa [hc] using hs.reserved
        window := by simp [hc, hi, hs.window]
        taken := by
          intro ht
          exact hs.taken (by simpa [hc] using ht)
        live := by
          intro held hm
          simp only [Option.map_some, Option.toList_some, hi]
          exact hs.live held hm
        consumed := by
          simp only [Option.map_some, Option.toList_some, Option.getD_some]
          rw [furthest_concat_marked, hs.consumed] }

theorem sound_take (hs : h.Sound) : (h.step .take).Sound := by
  cases ht : h.shared.take? with
  | none =>
    simp only [step, ht]
    exact hs
  | some p =>
    obtain ⟨bytes, shared⟩ := p
    obtain ⟨h0, hw, rfl⟩ := take?_eq_some_iff.mp ht
    have hi : installs (h.log ++ [.taken]) = installs h.log := installs_concat rfl
    have hc : since (h.log ++ [.taken]) = since h.log ++ [.taken] := since_concat rfl
    simp only [step, ht]
    exact {
      held := hs.held.trans (holderStays_concat (e := .taken) rfl nofun).symm
      reservations := hs.reservations
      reserved := by simpa [hc] using hs.reserved
      window := by simp [hc]
      taken := fun _ ↦ h0
      live := by
        intro held hm
        rw [hs.live_eq_nil h0] at hm
        contradiction
      consumed := hs.consumed.trans (furthest_concat (e := .taken) rfl rfl).symm }

/-- Every call keeps a history sound. -/
theorem sound_step (hs : h.Sound) (action : Action) : (h.step action).Sound := by
  cases action with
  | install bytes => exact sound_install hs bytes
  | reserve => exact sound_reserve hs
  | drop i => exact sound_drop hs i
  | release => exact sound_release hs
  | mark i last => exact sound_mark hs i last
  | take => exact sound_take hs
  | count => exact hs

/-- Any calls keep a history sound. -/
theorem sound_run (hs : h.Sound) (actions : List Action) : (h.run actions).Sound := by
  induction actions generalizing h with
  | nil => exact hs
  | cons action rest ih => exact ih (sound_step hs action)

namespace Sound

/-- Whoever finds the window held can reserve it. -/
theorem isSome_reserve?_iff (hs : h.Sound) :
    h.shared.reserve?.isSome ↔ 0 < h.shared.refcount := by
  rw [Option.isSome_iff_exists]
  constructor
  · rintro ⟨⟨r, w'⟩, hr⟩
    exact (reserve?_eq_some_iff.mp hr).1
  · intro hp
    obtain ⟨bytes, hw, _⟩ := hs.window_of_pos hp
    exact ⟨(⟨bytes⟩, _), reserve?_eq_some_iff.mpr ⟨hp, hw, rfl⟩⟩

/-- Nobody holds the window once its holder is gone and all reservations are given back. -/
theorem refcount_eq_zero_iff (hs : h.Sound) : h.shared.refcount = 0 ↔
    (installs h.log ≠ [] → .released ∈ since h.log) ∧
      (since h.log).count .dropped = (since h.log).count .reserved := by
  have hstays : ¬HolderStays h.log ↔ (installs h.log ≠ [] → .released ∈ since h.log) := by
    rw [HolderStays, not_and, Decidable.not_not]
  have hreserved := hs.reserved
  rw [hs.refcount_eq, Nat.add_eq_zero_iff, ite_eq_right_iff, ← hstays]
  constructor
  · rintro ⟨hgone, hl⟩
    exact ⟨fun hst ↦ Nat.one_ne_zero (hgone hst), by omega⟩
  · rintro ⟨hgone, hcount⟩
    exact ⟨fun hst ↦ absurd hst hgone, by omega⟩

end Sound

/-- After any calls: the holders are the implicit one of the last installation, if it was not told to
go since, and the reservations that live; a reservation is handed out exactly while somebody holds
the window; a window is installed or taken out exactly while nobody does, and one that is not
installed is handed back and nothing changes; a living reservation shows the window of the
installation it was taken under, which is the last one; telling a holder to go that is gone changes
nothing; all is released exactly when the holder went since the last installation and as many
reservations were given back as handed out; and the furthest mark since then is remembered. -/
theorem run_holders (actions : List Action) :
    let h := start.run actions
    h.shared.refcount = (if HolderStays h.log then 1 else 0) + h.live.length ∧
    (h.shared.reserve?.isSome ↔ 0 < h.shared.refcount) ∧
    (∀ bytes, ((h.shared.install bytes).isOk ↔ h.shared.refcount = 0) ∧
      (0 < h.shared.refcount →
        h.shared.install bytes = .error bytes ∧ h.step (.install bytes) = h)) ∧
    (h.shared.take?.isSome ↔ h.shared.refcount = 0 ∧ h.shared.window?.isSome) ∧
    h.shared.window? = (if .taken ∈ since h.log then none else (installs h.log).getLast?) ∧
    (∀ held ∈ h.live, (installs h.log)[held.number]? = some held.reservation.bytes ∧
      held.number + 1 = (installs h.log).length ∧
      h.shared.window? = some held.reservation.bytes) ∧
    (¬HolderStays h.log → h.shared.release = h.shared) ∧
    h.shared.released? =
      (if (installs h.log ≠ [] → .released ∈ since h.log) ∧
          (since h.log).count .dropped = (since h.log).count .reserved then
        some h.shared.consumed
      else none) ∧
    h.shared.consumed = furthest h.log := by
  intro h
  have hs : h.Sound := sound_run sound_start actions
  refine ⟨hs.refcount_eq, hs.isSome_reserve?_iff, ?_, isSome_take?_iff, hs.window, ?_, ?_, ?_,
    hs.consumed⟩
  · intro bytes
    rcases install_cases h.shared bytes with ⟨h0, hi⟩ | ⟨hp, hi⟩
    · rw [hi]
      exact ⟨iff_of_true rfl h0, fun hp ↦ absurd h0 (Nat.ne_of_gt hp)⟩
    · refine ⟨iff_of_false ?_ (Nat.ne_of_gt hp), fun _ ↦ ⟨hi, ?_⟩⟩
      · rw [hi]
        exact Bool.false_ne_true
      · simp only [step, install?, hi, Except.toOption]
  · intro held hm
    obtain ⟨hn, hb⟩ := hs.live held hm
    exact ⟨hb, hn, hs.window_of_mem hm⟩
  · intro hgone
    have hheld : h.shared.held = false := Bool.eq_false_iff.mpr (mt hs.held.mp hgone)
    rw [release, ← hheld]
  · rw [released?]
    simp only [hs.refcount_eq_zero_iff]

end History

end SharedWindow

end DetectorLink
