import Mathlib.Data.List.Induction
import Mathlib.Data.List.Nodup
import DetectorLink.Module.ConfigTable
import DetectorLink.Proofs.Module.Field

/-!
# Configuration tables that calls make

A table begins empty; fields are defined and values set by calls, of which some are refused.
Whatever the calls are, unless one of them stops at a field that cannot be checked, every field of
the table has been checked, no name stands for two of them, and every value fits its field.
-/

namespace DetectorLink.ConfigTable

/-- A call that changes a table. -/
inductive Call where
  /-- Define a field. -/
  | add (name : String) (label : Char) (field : BitField) (default : UInt32)
  /-- Give a field another value. -/
  | set (name : String) (value : UInt32)
  deriving DecidableEq, Repr

variable (t : ConfigTable)

/-- A field is to be defined whose end has more than 32 bits itself. -/
def Call.Overflows : Call → Prop
  | .add _ _ field _ => field.Overflows
  | .set .. => False

/-- Answer of a call: the table that it makes, or why it is refused, unless it stops. -/
def call : Call → Except Overflow (Except ModuleError ConfigTable)
  | .add name label field default => t.add name label field default
  | .set name value => .ok (t.set name value)

/-- The table after a call; a call that is refused leaves it. -/
def after (c : Call) : Except Overflow ConfigTable := do
  match ← t.call c with
  | .ok t' => return t'
  | .error _ => return t

/-- The table that calls make, one after the other, unless one of them stops. -/
def afterAll (calls : List Call) : Except Overflow ConfigTable := calls.foldlM after empty

/-- The calls that define the fields of a table. -/
def definitions : List Call := t.parameters.map fun p ↦ .add p.name p.label p.field p.default

/-- A field may be defined if it is within its word, its section has a letter or digit, its default
has no more bits than it and its name is free; a value may be set if its name stands for a field and
it has no more bits than that. -/
def Admits : Call → Prop
  | .add name label field default => field.Checked ∧ isLabel label ∧
      default.toNat < 2 ^ field.width ∧ ∀ p ∈ t.parameters, p.name ≠ name
  | .set name value => ∃ p ∈ t.parameters, p.name = name ∧ value.toNat < 2 ^ p.field.width

/-- Fields that have been checked, under different names, with values that fit. -/
structure WellFormed : Prop where
  /-- Fields are within their words. -/
  fields : ∀ p ∈ t.parameters, p.field.Checked
  /-- Sections have a letter or digit. -/
  labels : ∀ p ∈ t.parameters, isLabel p.label
  /-- A name stands for one field. -/
  names : (t.parameters.map (·.name)).Nodup
  /-- Defaults fit. -/
  defaults : ∀ p ∈ t.parameters, p.field.fits p.default
  /-- Values that have been set have a field, and fit. -/
  values : ∀ e ∈ t.values, ∃ p ∈ t.parameters, p.name = e.1 ∧ p.field.fits e.2

variable {t} {name : String} {value : UInt32}

/-! ### What calls do -/

theorem after_of_ok {c : Call} {t' : ConfigTable} (h : t.call c = .ok (.ok t')) :
    t.after c = .ok t' := by
  rw [after, h]
  rfl

theorem after_of_error {c : Call} {e : ModuleError} (h : t.call c = .ok (.error e)) :
    t.after c = .ok t := by
  rw [after, h]
  rfl

theorem after_of_stop {c : Call} {o : Overflow} (h : t.call c = .error o) :
    t.after c = .error o := by
  rw [after, h]
  rfl

theorem afterAll_concat (calls : List Call) (c : Call) :
    afterAll (calls ++ [c]) = afterAll calls >>= (·.after c) := by
  rw [afterAll, List.foldlM_append]
  simp only [List.foldlM_cons, List.foldlM_nil, bind_pure]
  rfl

/-- Only a field that cannot be checked stops its definition. -/
theorem add_eq_error_iff {label : Char} {field : BitField} {default : UInt32} {o : Overflow} :
    t.add name label field default = .error o ↔ field.Overflows ∧ o = .sum := by
  rw [← BitField.check_eq_error_iff]
  unfold add
  cases hf : field.check with
  | error o' => simp only [bind, Except.bind, Except.error.injEq]
  | ok r =>
    refine iff_of_false (fun he ↦ ?_) nofun
    cases r with
    | error e => cases he
    | ok =>
      simp only [bind, Except.bind, pure, Except.pure] at he
      split at he
      · cases he
      · split at he
        · cases he
        · split at he <;> cases he

/-- A field that the table admits comes after the others. -/
theorem add_eq_ok_iff {label : Char} {field : BitField} {default : UInt32} {t' : ConfigTable} :
    t.add name label field default = .ok (.ok t') ↔
      t.Admits (.add name label field default) ∧
        t' = { t with parameters := t.parameters ++ [⟨name, label, field, default⟩] } := by
  unfold add
  cases hf : field.check with
  | error o =>
    refine iff_of_false (fun he ↦ nomatch he) fun hc ↦ ?_
    rw [BitField.check_eq_ok_iff.mpr hc.1.1] at hf
    cases hf
  | ok r =>
    cases r with
    | error e =>
      refine iff_of_false (fun he ↦ nomatch he) fun hc ↦ ?_
      rw [BitField.check_eq_ok_iff.mpr hc.1.1] at hf
      cases hf
    | ok =>
      have hfield : field.Checked := BitField.check_eq_ok_iff.mp hf
      simp only [bind, Except.bind, pure, Except.pure]
      split
      case isTrue hl => exact iff_of_false (fun he ↦ nomatch he) fun hc ↦ by simp [hc.1.2.1] at hl
      case isFalse hl =>
        split
        case isTrue hd =>
          refine iff_of_false (fun he ↦ nomatch he) fun hc ↦ ?_
          simp [BitField.fits_iff_lt.mpr hc.1.2.2.1] at hd
        case isFalse hd =>
          split
          case isTrue hn =>
            obtain ⟨p, hp, he⟩ := List.any_eq_true.mp hn
            exact iff_of_false (fun he ↦ nomatch he) fun hc ↦
              hc.1.2.2.2 p hp (beq_iff_eq.mp he)
          case isFalse hn =>
            have hname : ∀ p ∈ t.parameters, p.name ≠ name :=
              fun p hp he ↦ hn (List.any_eq_true.mpr ⟨p, hp, beq_iff_eq.mpr he⟩)
            constructor
            · intro he
              cases he
              have hfits : field.fits default := by simpa using hd
              exact ⟨⟨hfield, by simpa using hl, BitField.fits_iff_lt.mp hfits, hname⟩, rfl⟩
            · rintro ⟨-, rfl⟩
              rfl

/-- Only a definition of a field that cannot be checked stops. -/
theorem call_eq_error_iff {c : Call} {o : Overflow} :
    t.call c = .error o ↔ c.Overflows ∧ o = .sum := by
  cases c with
  | add name label field default => exact add_eq_error_iff
  | set name value => exact iff_of_false nofun And.left

/-- A value is set if a field is found for its name and it fits there. -/
theorem set_eq_ok_iff {t' : ConfigTable} : t.set name value = .ok t' ↔
    (∃ p, t.find? name = some p ∧ p.field.fits value) ∧
      t' = { t with values := (name, value) :: t.values } := by
  unfold set
  cases hp : t.find? name with
  | none => exact iff_of_false (fun he ↦ nomatch he) fun ⟨⟨p, hp, _⟩, _⟩ ↦ nomatch hp
  | some p =>
    by_cases hv : p.field.fits value
    · simp only [hv, if_true, Except.ok.injEq, Option.some.injEq, exists_eq_left', true_and,
        eq_comm]
    · simp only [hv, Bool.false_eq_true, if_false, reduceCtorEq, Option.some.injEq,
        exists_eq_left', false_and]

/-- The field that is found for a name has it. -/
theorem of_find?_eq_some {p : ConfigParameter} (hp : t.find? name = some p) :
    p ∈ t.parameters ∧ p.name = name :=
  ⟨List.mem_of_find?_eq_some hp, by simpa using List.find?_some hp⟩

namespace WellFormed

variable (h : t.WellFormed)

include h

/-- Fields of one name are the same. -/
theorem eq_of_name_eq {p q : ConfigParameter} (hp : p ∈ t.parameters) (hq : q ∈ t.parameters)
    (he : p.name = q.name) : p = q :=
  List.inj_on_of_nodup_map h.names hp hq he

/-- The field of a name is the one that has it. -/
theorem find?_eq_some_iff {p : ConfigParameter} :
    t.find? name = some p ↔ p ∈ t.parameters ∧ p.name = name := by
  refine ⟨of_find?_eq_some, ?_⟩
  rintro ⟨hp, rfl⟩
  cases hf : t.find? p.name with
  | none => exact absurd (beq_self_eq_true p.name) (List.find?_eq_none.mp hf p hp)
  | some q =>
    obtain ⟨hq, hname⟩ := of_find?_eq_some hf
    rw [h.eq_of_name_eq hq hp hname]

/-- Whatever value a field has, it fits. -/
theorem fits_valueOf {p : ConfigParameter} (hp : p ∈ t.parameters) :
    p.field.fits (t.valueOf p) := by
  unfold valueOf
  cases hl : t.values.lookup p.name with
  | none => exact h.defaults p hp
  | some value =>
    obtain ⟨l₁, l₂, hs, -⟩ := List.lookup_eq_some_iff.mp hl
    obtain ⟨q, hq, hname, hfits⟩ := h.values (p.name, value) (hs ▸ List.mem_append_cons_self)
    rwa [h.eq_of_name_eq hq hp hname] at hfits

/-- A call that is not refused keeps a table well-formed. -/
theorem call {c : Call} {t' : ConfigTable} (hc : t.call c = .ok (.ok t')) : t'.WellFormed := by
  cases c with
  | add name label field default =>
    obtain ⟨⟨hfield, hlabel, hlt, hname⟩, rfl⟩ := add_eq_ok_iff.mp hc
    have hfits : field.fits default := BitField.fits_iff_lt.mpr hlt
    constructor
    case fields =>
      exact List.forall_mem_append.mpr ⟨h.fields, List.forall_mem_singleton.mpr hfield⟩
    case labels =>
      exact List.forall_mem_append.mpr ⟨h.labels, List.forall_mem_singleton.mpr hlabel⟩
    case names =>
      rw [List.map_append, List.map_singleton]
      refine h.names.append (List.nodup_singleton name) (List.disjoint_singleton.mpr fun hm ↦ ?_)
      obtain ⟨p, hp, he⟩ := List.mem_map.mp hm
      exact hname p hp he
    case defaults =>
      exact List.forall_mem_append.mpr ⟨h.defaults, List.forall_mem_singleton.mpr hfits⟩
    case values =>
      intro e he
      obtain ⟨p, hp, hfit⟩ := h.values e he
      exact ⟨p, List.mem_append_left _ hp, hfit⟩
  | set name value =>
    obtain ⟨⟨p, hp, hfits⟩, rfl⟩ := set_eq_ok_iff.mp (Except.ok.inj hc)
    obtain ⟨hmem, hname⟩ := of_find?_eq_some hp
    refine ⟨h.fields, h.labels, h.names, h.defaults, fun e he ↦ ?_⟩
    rcases List.mem_cons.mp he with rfl | he
    · exact ⟨p, hmem, hname, hfits⟩
    · exact h.values e he

/-- A call keeps a table well-formed. -/
theorem after {c : Call} {t' : ConfigTable} (ht : t.after c = .ok t') : t'.WellFormed := by
  cases hc : t.call c with
  | error o => cases (after_of_stop hc).symm.trans ht
  | ok r =>
    cases r with
    | error e =>
      obtain rfl := Except.ok.inj ((after_of_error hc).symm.trans ht)
      exact h
    | ok t'' =>
      obtain rfl := Except.ok.inj ((after_of_ok hc).symm.trans ht)
      exact h.call hc

end WellFormed

/-- Calls make well-formed tables. -/
theorem wellFormed_afterAll {calls : List Call} (h : afterAll calls = .ok t) : t.WellFormed := by
  induction calls using List.reverseRecOn generalizing t with
  | nil =>
    cases h
    exact ⟨fun _ hp ↦ absurd hp List.not_mem_nil, fun _ hp ↦ absurd hp List.not_mem_nil,
      List.nodup_nil, fun _ hp ↦ absurd hp List.not_mem_nil, fun _ he ↦ absurd he List.not_mem_nil⟩
  | append_singleton calls c ih =>
    rw [afterAll_concat] at h
    cases hcalls : afterAll calls with
    | error o =>
      rw [hcalls] at h
      cases h
    | ok t' =>
      rw [hcalls] at h
      exact (ih hcalls).after h

/-- Calls make a table unless a field to be defined cannot be checked. -/
theorem afterAll_eq_error_iff {calls : List Call} :
    afterAll calls = .error .sum ↔ ∃ c ∈ calls, c.Overflows := by
  suffices h : ∀ t : ConfigTable, calls.foldlM ConfigTable.after t = .error .sum ↔
      ∃ c ∈ calls, c.Overflows from h empty
  induction calls with
  | nil => exact fun t ↦ iff_of_false nofun fun ⟨_, hc, _⟩ ↦ absurd hc List.not_mem_nil
  | cons c calls ih =>
    intro t
    rw [List.foldlM_cons]
    simp only [List.mem_cons, exists_eq_or_imp]
    cases hc : t.call c with
    | error o =>
      obtain ⟨ho, rfl⟩ := call_eq_error_iff.mp hc
      rw [after_of_stop hc]
      exact iff_of_true rfl (.inl ho)
    | ok r =>
      have ho : ¬c.Overflows := fun ho ↦ nomatch hc.symm.trans (call_eq_error_iff.mpr ⟨ho, rfl⟩)
      rw [or_iff_right ho]
      cases r with
      | error e =>
        rw [after_of_error hc]
        exact ih t
      | ok t' =>
        rw [after_of_ok hc]
        exact ih t'

end DetectorLink.ConfigTable
