import Mathlib.Data.List.Induction
import Mathlib.Data.List.Nodup
import DetectorLink.Module.StatusTable
import DetectorLink.Proofs.Module.Fetched
import DetectorLink.Proofs.Module.Field
import DetectorLink.Proofs.Packet.Parse

/-!
# What status tables extract

A table begins empty and its fields are defined by calls, of which some are refused: of every name
it has the first field that is within its word. A field whose end has more than 32 bits itself is
not refused: the check stops there, and no table is made. From an answer it takes the fields whose
words are complete, each once and under its own name, with the bits of the word that the field
covers. So an answer with as many words as the table asks for shows every field, and bits that no
field covers change nothing.
-/

namespace DetectorLink.StatusTable

open Word

variable (t : StatusTable)

/-- The table after a definition; one that is refused leaves it. -/
def define (p : StatusParameter) : Except Overflow StatusTable := do
  match ← t.add p.name p.field with
  | .ok t' => return t'
  | .error _ => return t

/-- The table that definitions make, one after the other, unless one of them stops. -/
def defineAll (calls : List StatusParameter) : Except Overflow StatusTable :=
  calls.foldlM define empty

/-- The table with one more field, if that is within its word and its name is free. -/
def extend (p : StatusParameter) : StatusTable :=
  if p.field.Checked ∧ ∀ q ∈ t.parameters, q.name ≠ p.name then ⟨t.parameters ++ [p]⟩ else t

/-- The table that fields make, one after the other. -/
def ofFields (calls : List StatusParameter) : StatusTable := calls.foldl extend empty

/-- The first definition of a name with a field that is within its word. -/
def first? (calls : List StatusParameter) (name : String) : Option StatusParameter :=
  calls.find? fun p ↦ p.name == name && decide p.field.Checked

/-- What is extracted from an answer: a field is there if its word is complete, once under its name,
with the bits of that word. -/
structure Extracts (payload : Bytes) (values : List (String × UInt32)) : Prop where
  /-- No name has two values. -/
  names : (values.map Prod.fst).Nodup
  /-- The names are those of the fields whose word is complete. -/
  mem_iff : ∀ name, name ∈ values.map Prod.fst ↔
    ∃ p ∈ t.parameters, p.name = name ∧ p.field.offset < payload.length / 4
  /-- A value has no more bits than its field, and they are those of the word. -/
  shows : ∀ p ∈ t.parameters, ∀ word, (ofByteList payload)[p.field.offset]? = some word →
    ∃ value, (p.name, value) ∈ values ∧ value.toNat < 2 ^ p.field.width ∧
      ∀ i < p.field.width, bit value i = bit word (p.field.shift + i)

/-- Two answers have the same words of fields, with the same bits where the fields are. -/
def Agree (a b : Bytes) : Prop := ∀ p ∈ t.parameters,
  Option.Rel (fun v w ↦ ∀ i < 32, p.field.Covers i → bit v i = bit w i)
    (ofByteList a)[p.field.offset]? (ofByteList b)[p.field.offset]?

variable {t} {p : StatusParameter} {calls : List StatusParameter} {payload : Bytes}

/-! ### Tables that calls make -/

/-- Defining a field stops where checking it does. -/
theorem define_eq (t : StatusTable) (p : StatusParameter) :
    t.define p = if p.field.Overflows then .error .sum else .ok (t.extend p) := by
  have htaken : (∀ q ∈ t.parameters, q.name ≠ p.name) ↔ ¬t.parameters.any (·.name == p.name) := by
    simp only [List.any_eq_true, beq_iff_eq, not_exists, not_and, ne_eq]
  unfold define add
  cases hf : p.field.check with
  | error o =>
    obtain ⟨ho, rfl⟩ := BitField.check_eq_error_iff.mp hf
    rw [if_pos ho]
    rfl
  | ok r =>
    have ho : ¬p.field.Overflows := fun ho ↦ by
      rw [BitField.check_eq_error_iff.mpr ⟨ho, rfl⟩] at hf
      cases hf
    rw [if_neg ho]
    cases r with
    | error e =>
      have hfield : ¬p.field.Checked := fun hc ↦ by
        rw [BitField.check_eq_ok_iff.mpr hc] at hf
        cases hf
      have hsame : t.extend p = t := if_neg fun h ↦ hfield h.1
      rw [hsame]
      rfl
    | ok =>
      have hfield : p.field.Checked := BitField.check_eq_ok_iff.mp hf
      simp only [bind, Except.bind, pure, Except.pure, extend, hfield, true_and, htaken]
      cases t.parameters.any (·.name == p.name) with
      | true => rfl
      | false => rfl

/-- Definitions make their table unless one of their fields stops them. -/
theorem defineAll_eq (calls : List StatusParameter) :
    defineAll calls =
      if ∃ p ∈ calls, p.field.Overflows then .error .sum else .ok (ofFields calls) := by
  suffices h : ∀ t : StatusTable, calls.foldlM define t =
      if ∃ p ∈ calls, p.field.Overflows then .error .sum else .ok (calls.foldl extend t) from h empty
  induction calls with
  | nil => simp [pure, Except.pure]
  | cons p calls ih =>
    intro t
    rw [List.foldlM_cons, define_eq]
    by_cases ho : p.field.Overflows
    · simp only [ho, List.mem_cons, exists_eq_or_imp, true_or, if_true]
      rfl
    · simp only [ho, List.mem_cons, exists_eq_or_imp, false_or, if_false]
      exact ih (t.extend p)

/-- A field is added, or it is left out because it is not within its word or another one has its
name. -/
theorem extend_cases (t : StatusTable) (p : StatusParameter) :
    (p.field.Checked ∧ (∀ q ∈ t.parameters, q.name ≠ p.name) ∧
      (t.extend p).parameters = t.parameters ++ [p]) ∨
    ((p.field.Checked → ∃ q ∈ t.parameters, q.name = p.name) ∧ t.extend p = t) := by
  unfold extend
  split
  case isTrue h => exact .inl ⟨h.1, h.2, rfl⟩
  case isFalse h =>
    refine .inr ⟨fun hfield ↦ ?_, rfl⟩
    by_contra hnone
    exact h ⟨hfield, fun q hq hn ↦ hnone ⟨q, hq, hn⟩⟩

theorem ofFields_concat (calls : List StatusParameter) (p : StatusParameter) :
    ofFields (calls ++ [p]) = (ofFields calls).extend p := by
  rw [ofFields, List.foldl_append]
  rfl

theorem first?_concat (calls : List StatusParameter) (p : StatusParameter) (name : String) :
    first? (calls ++ [p]) name = (first? calls name).or
      (if p.name = name ∧ p.field.Checked then some p else none) := by
  rw [first?, List.find?_append, List.find?_singleton]
  simp only [Bool.and_eq_true, beq_iff_eq, decide_eq_true_eq]
  rfl

theorem of_first?_eq_some {name : String} (h : first? calls name = some p) :
    p ∈ calls ∧ p.name = name ∧ p.field.Checked := by
  have hp := List.find?_some h
  rw [Bool.and_eq_true, beq_iff_eq, decide_eq_true_eq] at hp
  exact ⟨List.mem_of_find?_eq_some h, hp⟩

/-- A table has the first field within its word of every name. -/
theorem mem_ofFields_iff : p ∈ (ofFields calls).parameters ↔ first? calls p.name = some p := by
  induction calls using List.reverseRecOn generalizing p with
  | nil => exact iff_of_false List.not_mem_nil nofun
  | append_singleton calls c ih =>
    rw [ofFields_concat, first?_concat]
    rcases extend_cases (ofFields calls) c with ⟨hc, hfree, hnew⟩ | ⟨htaken, hsame⟩
    · have hnone : first? calls c.name = none := by
        rw [Option.eq_none_iff_forall_ne_some]
        intro q hq
        obtain ⟨-, hname, -⟩ := of_first?_eq_some hq
        exact hfree q (ih.mpr (hname ▸ hq)) hname
      rw [hnew, List.mem_append, List.mem_singleton, ih]
      by_cases hn : c.name = p.name
      · rw [← hn, hnone, Option.none_or, if_pos ⟨rfl, hc⟩, Option.some_inj]
        exact (or_iff_right nofun).trans eq_comm
      · rw [if_neg fun h ↦ hn h.1, Option.or_none]
        exact or_iff_left fun h ↦ hn (congrArg _ h.symm)
    · rw [hsame, ih]
      split
      case isFalse => rw [Option.or_none]
      case isTrue h =>
        obtain ⟨q, hq, hname⟩ := htaken h.2
        rw [ih, hname, h.1] at hq
        rw [hq, Option.some_or]

/-- Fields leave every name to one field. -/
theorem nodup_names_ofFields (calls : List StatusParameter) :
    ((ofFields calls).parameters.map (·.name)).Nodup := by
  induction calls using List.reverseRecOn with
  | nil => exact List.nodup_nil
  | append_singleton calls c ih =>
    rw [ofFields_concat]
    rcases extend_cases (ofFields calls) c with ⟨-, hfree, hnew⟩ | ⟨-, hsame⟩
    · rw [hnew, List.map_append, List.map_singleton]
      refine ih.append (List.nodup_singleton _) (List.disjoint_singleton.mpr fun hm ↦ ?_)
      obtain ⟨q, hq, he⟩ := List.mem_map.mp hm
      exact hfree q hq he
    · rwa [hsame]

/-! ### Answers -/

/-- An answer is long enough exactly if every field has its word. -/
theorem payloadWords_le_iff {n : Nat} :
    t.payloadWords ≤ n ↔ ∀ p ∈ t.parameters, p.field.offset < n := by
  have hfold (ps : List StatusParameter) (m : Nat) :
      (ps.map fun p ↦ p.field.offset + 1).foldl max m ≤ n ↔
        m ≤ n ∧ ∀ p ∈ ps, p.field.offset < n := by
    induction ps generalizing m with
    | nil => simp
    | cons p ps ih =>
      rw [List.map_cons, List.foldl_cons, ih, List.forall_mem_cons, Nat.max_le, and_assoc]
      rfl
  exact (hfold t.parameters 0).trans (and_iff_right (Nat.zero_le n))

/-- The number of words of a table whose fields have their words at offsets of 32 bits is told. -/
theorem checkedPayloadWords_eq (h : ∀ p ∈ t.parameters, p.field.offset < 2 ^ 32) :
    t.checkedPayloadWords = .ok t.payloadWords := by
  have hfold (ps : List StatusParameter) (hps : ∀ p ∈ ps, p.field.offset < 2 ^ 32) (m : Nat) :
      ps.foldlM (fun words p ↦ return max words (← checkedAdd UInt64.size p.field.offset 1)) m =
        Except.ok ((ps.map fun p ↦ p.field.offset + 1).foldl max m) := by
    induction ps generalizing m with
    | nil => rfl
    | cons p ps ih =>
      obtain ⟨hp, hps⟩ := List.forall_mem_cons.mp hps
      rw [List.foldlM_cons, checkedAdd_of_lt (by unfold UInt64.size; omega)]
      exact ih hps _
  exact hfold t.parameters h 0

/-- A field with an offset of 64 bits is read from its word, if that is complete. -/
theorem extract?_eq (h : 4 * p.field.offset < offsetBound) :
    p.extract? payload = (ofByteList payload)[p.field.offset]?.map p.field.extract := by
  rw [StatusParameter.extract?, get?_eq_getElem? payload h]

/-- A value is extracted for a name exactly from a field with this name. -/
theorem mem_extract_iff {name : String} {value : UInt32} :
    (name, value) ∈ t.extract payload ↔
      ∃ p ∈ t.parameters, p.name = name ∧ p.extract? payload = some value := by
  simp only [extract, List.mem_filterMap, Option.map_eq_some_iff, Prod.mk.injEq]
  refine exists_congr fun p ↦ and_congr_right fun _ ↦ ?_
  constructor
  · rintro ⟨_, hv, hn, rfl⟩
    exact ⟨hn, hv⟩
  · rintro ⟨hn, hv⟩
    exact ⟨value, hv, hn, rfl⟩

/-- The names that are extracted are among those of the table, in its order. -/
theorem names_extract_sublist (t : StatusTable) (payload : Bytes) :
    ((t.extract payload).map Prod.fst).Sublist (t.parameters.map (·.name)) := by
  unfold extract
  induction t.parameters with
  | nil => exact .slnil
  | cons p ps ih =>
    cases hv : p.extract? payload with
    | none =>
      rw [List.filterMap_cons_none (by rw [hv]; rfl)]
      exact ih.cons _
    | some value =>
      rw [List.filterMap_cons_some (by rw [hv]; rfl)]
      exact ih.cons_cons _

/-- Answers that agree where the fields are give the same values. -/
theorem extract_eq_of_agree (hfields : ∀ p ∈ t.parameters,
      p.field.Checked ∧ 4 * p.field.offset < offsetBound) {other : Bytes}
    (h : t.Agree payload other) : t.extract other = t.extract payload := by
  refine List.filterMap_congr fun p hp ↦ ?_
  obtain ⟨hfield, hoffset⟩ := hfields p hp
  rw [extract?_eq hoffset, extract?_eq hoffset]
  have hp := h p hp
  generalize (ofByteList payload)[p.field.offset]? = a at hp
  generalize (ofByteList other)[p.field.offset]? = b at hp
  cases hp with
  | none => rfl
  | @some v w hbits =>
    have hvalue : p.field.extract w = p.field.extract v := by
      refine eq_of_bit_eq fun i _ ↦ ?_
      rw [BitField.bit_extract hfield, BitField.bit_extract hfield]
      by_cases hi : i < p.field.width
      · have hcovers : p.field.Covers (p.field.shift + i) :=
          ⟨Nat.le_add_right _ _, Nat.add_lt_add_left hi _⟩
        rw [hbits _ (hcovers.lt hfield) hcovers]
      · rw [decide_eq_false hi, Bool.false_and, Bool.false_and]
    rw [Option.map_some, Option.map_some, Option.map_some, Option.map_some, hvalue]

/-- What is extracted by fields within their words, under different names. -/
theorem extracts_extract (hfields : ∀ p ∈ t.parameters,
      p.field.Checked ∧ 4 * p.field.offset < offsetBound)
    (hnames : (t.parameters.map (·.name)).Nodup) (payload : Bytes) :
    t.Extracts payload (t.extract payload) := by
  constructor
  case names => exact hnames.sublist (names_extract_sublist t payload)
  case mem_iff =>
    intro name
    have hmem : name ∈ (t.extract payload).map Prod.fst ↔
        ∃ value, (name, value) ∈ t.extract payload := by simp
    simp only [hmem, mem_extract_iff]
    constructor
    · rintro ⟨value, p, hp, hname, hvalue⟩
      rw [extract?_eq (hfields p hp).2, Option.map_eq_some_iff] at hvalue
      obtain ⟨word, hword, -⟩ := hvalue
      have hlt := (List.getElem?_eq_some_iff.mp hword).1
      rw [length_ofByteList] at hlt
      exact ⟨p, hp, hname, hlt⟩
    · rintro ⟨p, hp, hname, hlt⟩
      rw [← length_ofByteList] at hlt
      refine ⟨p.field.extract (ofByteList payload)[p.field.offset], p, hp, hname, ?_⟩
      rw [extract?_eq (hfields p hp).2, List.getElem?_eq_getElem hlt, Option.map_some]
  case shows =>
    intro p hp word hword
    obtain ⟨hfield, hoffset⟩ := hfields p hp
    refine ⟨p.field.extract word, mem_extract_iff.mpr ⟨p, hp, rfl, ?_⟩, ?_, fun i hi ↦ ?_⟩
    · rw [extract?_eq hoffset, hword, Option.map_some]
    · rw [BitField.toNat_extract hfield]
      exact Nat.mod_lt _ (Nat.two_pow_pos _)
    · rw [BitField.bit_extract hfield, decide_eq_true hi, Bool.true_and]

/-- Definitions of fields at offsets of 32 bits stop exactly if the end of one of the fields has
more than 32 bits itself. Else they make a table that has the first field within its word of every name.
An answer gives the fields whose words are complete, each once and under its name, as numbers of its
width with the bits of the word that it covers. Every field is given exactly if the answer has as
many complete words as the table asks for, and answers that agree where the fields are give the
same. -/
theorem defineAll_extracts (calls : List StatusParameter)
    (h : ∀ p ∈ calls, p.field.offset < 2 ^ 32) :
    (defineAll calls = .error .sum ↔ ∃ p ∈ calls, p.field.Overflows) ∧
    ((∃ p ∈ calls, p.field.Overflows) ∨ ∃ t, defineAll calls = .ok t ∧
      (∀ p, p ∈ t.parameters ↔ first? calls p.name = some p) ∧
      t.checkedPayloadWords = .ok t.payloadWords ∧
      ∀ payload, t.fetch payload = .ok (t.extract payload) ∧
        t.Extracts payload (t.extract payload) ∧
        ((∀ p ∈ t.parameters, p.name ∈ (t.extract payload).map Prod.fst) ↔
          t.payloadWords ≤ payload.length / 4) ∧
        ∀ other, t.Agree payload other → t.extract other = t.extract payload) := by
  have hmade := defineAll_eq calls
  by_cases hover : ∃ p ∈ calls, p.field.Overflows
  · rw [if_pos hover] at hmade
    exact ⟨iff_of_true hmade hover, .inl hover⟩
  rw [if_neg hover] at hmade
  refine ⟨iff_of_false (fun he ↦ nomatch hmade.symm.trans he) hover,
    .inr ⟨ofFields calls, hmade, fun p ↦ mem_ofFields_iff, ?_⟩⟩
  have hoffsets : ∀ p ∈ (ofFields calls).parameters, p.field.offset < 2 ^ 32 := fun p hp ↦
    h p (of_first?_eq_some (mem_ofFields_iff.mp hp)).1
  have hfields : ∀ p ∈ (ofFields calls).parameters,
      p.field.Checked ∧ 4 * p.field.offset < offsetBound := by
    intro p hp
    have hoffset := hoffsets p hp
    exact ⟨(of_first?_eq_some (mem_ofFields_iff.mp hp)).2.2, by unfold offsetBound; omega⟩
  have hnames := nodup_names_ofFields calls
  refine ⟨checkedPayloadWords_eq hoffsets, fun payload ↦ ?_⟩
  have hextracts := extracts_extract hfields hnames payload
  refine ⟨?_, hextracts, ?_, fun other ↦ extract_eq_of_agree hfields⟩
  · refine (fetch_eq _ payload).trans (if_neg ?_)
    rintro ⟨p, hp, hlast⟩
    have hoffset := hoffsets p hp
    omega
  rw [payloadWords_le_iff]
  refine forall₂_congr fun p hp ↦ ?_
  rw [hextracts.mem_iff]
  constructor
  · rintro ⟨q, hq, hname, hlt⟩
    rwa [List.inj_on_of_nodup_map hnames hq hp hname] at hlt
  · exact fun hlt ↦ ⟨p, hp, rfl, hlt⟩

/-- A field of a whole word and one at the upper edge of another are given by an answer that ends
inside the word of a third. A field beyond its word and a name that is taken were refused. -/
theorem defineAll_extracts_cut :
    let whole : StatusParameter := ⟨"whole", ⟨1, 32, 0⟩⟩
    let edge : StatusParameter := ⟨"edge", ⟨0, 4, 28⟩⟩
    let late : StatusParameter := ⟨"late", ⟨2, 1, 0⟩⟩
    let calls := [whole, ⟨"edge", ⟨0, 8, 28⟩⟩, edge, ⟨"whole", ⟨0, 1, 0⟩⟩, late]
    let t : StatusTable := ⟨[whole, edge, late]⟩
    let payload : Bytes := [1, 2, 3, 0xA5, 0xEF, 0xBE, 0xAD, 0xDE, 1, 0, 0]
    let other : Bytes := [0, 0, 0, 0xA0, 0xEF, 0xBE, 0xAD, 0xDE]
    (∀ p ∈ calls, p.field.offset < 2 ^ 32) ∧ defineAll calls = .ok t ∧
      t.fetch payload = .ok [("whole", 0xDEADBEEF), ("edge", 0xA)] ∧
      t.checkedPayloadWords = .ok 3 ∧
      t.Extracts payload (t.extract payload) ∧ t.extract other = t.extract payload := by
  intro whole edge late calls t payload other
  have hcalls : ∀ p ∈ calls, p.field.offset < 2 ^ 32 := by decide
  have hmade : defineAll calls = .ok t := by rfl
  obtain ⟨-, hover | ⟨t', hmade', -, hwords, hpayload⟩⟩ := defineAll_extracts calls hcalls
  · exact absurd hover (by decide)
  obtain rfl : t' = t := Except.ok.inj (hmade'.symm.trans hmade)
  obtain ⟨hfetch, hextracts, -, hagree⟩ := hpayload payload
  refine ⟨hcalls, hmade, hfetch.trans (by decide), hwords.trans (by decide), hextracts,
    hagree other ?_⟩
  show ∀ p ∈ [whole, edge, late], _
  simp only [List.forall_mem_cons, List.not_mem_nil, false_implies, implies_true, and_true]
  exact ⟨.some fun _ _ _ ↦ rfl, .some (by decide), .none⟩

-- a field of one bit far beyond its word is not refused
example : defineAll [⟨"x", ⟨0, 1, 0xFFFFFFFF⟩⟩] = .error .sum := by rfl

end DetectorLink.StatusTable
