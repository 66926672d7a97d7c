import Mathlib.Data.List.DropRight
import DetectorLink.SharedWindow

/-!
# What was done to a shared window

A log of what was done to a shared window tells which windows were installed, whether the implicit
holder of the last one stays, and how far its packets were marked. Each of these is stated for the
entry that comes last.
-/

namespace DetectorLink.SharedWindow

/-- Something that was done to a shared window. -/
inductive Entry where
  /-- A window was installed. -/
  | installed (bytes : Bytes)
  /-- The implicit holder was told to go, whether or not it was still there. -/
  | released
  /-- A reservation was handed out. -/
  | reserved
  /-- A reservation was given back. -/
  | dropped
  /-- The packets up to an offset in the window were marked as processed. -/
  | marked (stop : Nat)
  /-- The window was taken out. -/
  | taken
  deriving DecidableEq, Repr

namespace Entry

/-- The window that was installed. -/
def window? : Entry → Option Bytes
  | installed bytes => some bytes
  | _ => none

/-- The offset up to which packets were marked. -/
def stop? : Entry → Option Nat
  | marked stop => some stop
  | _ => none

end Entry

variable {log : List Entry} {e : Entry}

/-- The windows that were installed, the last one at the end. -/
def installs (log : List Entry) : List Bytes := log.filterMap Entry.window?

/-- What was done after the last installation; everything, if there was none. -/
def since (log : List Entry) : List Entry := log.rtakeWhile (·.window?.isNone)

/-- A window was installed, and its implicit holder was not told to go since. -/
def HolderStays (log : List Entry) : Prop := installs log ≠ [] ∧ Entry.released ∉ since log

instance : Decidable (HolderStays log) := inferInstanceAs (Decidable (_ ∧ _))

/-- The furthest offset that was marked since the last installation, zero if none was. -/
def furthest (log : List Entry) : Nat := ((since log).filterMap Entry.stop?).max?.getD 0

/-! ### The last entry -/

theorem installs_concat_installed (log : List Entry) (bytes : Bytes) :
    installs (log ++ [.installed bytes]) = installs log ++ [bytes] :=
  List.filterMap_append

theorem since_concat_installed (log : List Entry) (bytes : Bytes) :
    since (log ++ [.installed bytes]) = [] :=
  List.rtakeWhile_concat_neg _ _ _ Bool.false_ne_true

theorem installs_concat (he : e.window? = none) : installs (log ++ [e]) = installs log := by
  rw [installs, List.filterMap_append, List.filterMap_cons_none he, List.filterMap_nil,
    List.append_nil, installs]

theorem since_concat (he : e.window? = none) : since (log ++ [e]) = since log ++ [e] :=
  List.rtakeWhile_concat_pos _ _ _ (Option.isNone_iff_eq_none.mpr he)

theorem holderStays_concat_installed (log : List Entry) (bytes : Bytes) :
    HolderStays (log ++ [.installed bytes]) := by
  rw [HolderStays, installs_concat_installed, since_concat_installed]
  exact ⟨List.append_ne_nil_of_right_ne_nil _ (List.cons_ne_nil _ _), List.not_mem_nil⟩

theorem not_holderStays_concat_released (log : List Entry) : ¬HolderStays (log ++ [.released]) := by
  rintro ⟨_, hr⟩
  rw [since_concat rfl] at hr
  exact hr List.mem_concat_self

theorem holderStays_concat (he : e.window? = none) (hr : e ≠ .released) :
    HolderStays (log ++ [e]) ↔ HolderStays log := by
  rw [HolderStays, HolderStays, installs_concat he, since_concat he, List.mem_append,
    List.mem_singleton, or_iff_left hr.symm]

/-- Entries that mark no offset leave the furthest one where it is. -/
theorem furthest_concat (he : e.window? = none) (hs : e.stop? = none) :
    furthest (log ++ [e]) = furthest log := by
  rw [furthest, since_concat he, List.filterMap_append, List.filterMap_cons_none hs,
    List.filterMap_nil, List.append_nil, furthest]

theorem furthest_concat_marked (log : List Entry) (stop : Nat) :
    furthest (log ++ [.marked stop]) = max (furthest log) stop := by
  have hmax (stops : List Nat) : stops.max?.getD 0 = stops.foldl max 0 := by
    rw [List.foldl_max, Nat.zero_max]
  rw [furthest, since_concat rfl, List.filterMap_append, hmax, List.foldl_append, ← hmax]
  rfl

theorem furthest_concat_installed (log : List Entry) (bytes : Bytes) :
    furthest (log ++ [.installed bytes]) = 0 := by
  rw [furthest, since_concat_installed]
  rfl

end DetectorLink.SharedWindow
