import Mathlib.Data.Char
import DetectorLink.Module.ConfigTable

/-!
# Sections of a configuration block

The sections of a table are in the order of their letters, each as long as its highest word that has
a field. One after the other they fill the block: a section starts after the words of those with
smaller letters, and no word belongs to two of them. By sums of 64 bits a block is packed exactly if
it can be addressed.
-/

namespace DetectorLink.ConfigTable

/-- Sections in the order of their letters, none of them twice. -/
def InOrder (sizes : List (Char × Nat)) : Prop := sizes.Pairwise (·.1 < ·.1)

/-! ### Sizes -/

section Sizes

variable (label : Char) (words : Nat) (sizes : List (Char × Nat))

theorem mem_lengthen (e : Char × Nat) (h : e ∈ lengthen label words sizes) :
    e.1 = label ∨ ∃ d ∈ sizes, d.1 = e.1 := by
  fun_induction lengthen label words sizes with
  | case1 => exact .inl (congrArg Prod.fst (List.mem_singleton.mp h))
  | case2 c size sizes hlt =>
    rcases List.mem_cons.mp h with rfl | h
    · exact .inl rfl
    · exact .inr ⟨e, h, rfl⟩
  | case3 size sizes hlt =>
    rcases List.mem_cons.mp h with rfl | h
    · exact .inl rfl
    · exact .inr ⟨e, List.mem_cons_of_mem _ h, rfl⟩
  | case4 c size sizes hlt hne ih =>
    rcases List.mem_cons.mp h with rfl | h
    · exact .inr ⟨_, List.mem_cons_self, rfl⟩
    · exact (ih h).imp id fun ⟨d, hd, he⟩ ↦ ⟨d, List.mem_cons_of_mem _ hd, he⟩

/-- A section gets its place among the letters. -/
theorem InOrder.lengthen (h : InOrder sizes) : InOrder (lengthen label words sizes) := by
  fun_induction ConfigTable.lengthen label words sizes with
  | case1 => exact List.pairwise_singleton _ _
  | case2 c size sizes hlt =>
    refine List.pairwise_cons.mpr ⟨fun e he ↦ ?_, h⟩
    rcases List.mem_cons.mp he with rfl | he
    · exact hlt
    · exact lt_trans hlt ((List.pairwise_cons.mp h).1 e he)
  | case3 size sizes hlt => exact List.pairwise_cons.mpr (List.pairwise_cons.mp h)
  | case4 c size sizes hlt hne ih =>
    obtain ⟨hc, hs⟩ := List.pairwise_cons.mp h
    refine List.pairwise_cons.mpr ⟨fun e he ↦ ?_, ih hs⟩
    rcases mem_lengthen label words sizes e he with hl | ⟨d, hd, hl⟩
    · rw [hl]
      exact lt_of_le_of_ne (not_lt.mp hlt) (Ne.symm hne)
    · rw [← hl]
      exact hc d hd

/-- A letter that is smaller than those of all the sections has none. -/
theorem lookup_eq_none_of_lt {c : Char} (h : ∀ e ∈ sizes, c < e.1) : sizes.lookup c = none :=
  List.lookup_eq_none_iff.mpr fun e he ↦ bne_iff_ne.mpr (ne_of_lt (h e he))

/-- Only the size of the one section changes. -/
theorem lookup_lengthen (h : InOrder sizes) (c : Char) :
    (lengthen label words sizes).lookup c =
      if c = label then some (((sizes.lookup label).map (max · words)).getD words)
      else sizes.lookup c := by
  fun_induction lengthen label words sizes with
  | case1 =>
    by_cases hc : c = label
    · simp [hc]
    · simp [List.lookup_cons, hc, beq_false_of_ne hc]
  | case2 d size sizes hlt =>
    have hnone : ((d, size) :: sizes).lookup label = none := by
      refine lookup_eq_none_of_lt _ fun e he ↦ ?_
      rcases List.mem_cons.mp he with rfl | he
      · exact hlt
      · exact lt_trans hlt ((List.pairwise_cons.mp h).1 e he)
    rw [hnone]
    by_cases hc : c = label
    · simp [hc]
    · simp [List.lookup_cons, hc, beq_false_of_ne hc]
  | case3 size sizes hlt =>
    by_cases hc : c = label
    · simp [hc]
    · simp [List.lookup_cons, hc, beq_false_of_ne hc]
  | case4 d size sizes hlt hne ih =>
    by_cases hd : c = d
    · simp [hd, Ne.symm hne]
    · simp [List.lookup_cons, beq_false_of_ne hd, beq_false_of_ne hne,
        ih (List.pairwise_cons.mp h).2]

end Sizes

variable (t : ConfigTable)

/-- Where the words of the fields of a section end. -/
def wordEnds (ps : List ConfigParameter) (label : Char) : List Nat :=
  (ps.filter (·.label == label)).map (·.field.offset + 1)

private theorem inOrder_foldl_lengthen (ps : List ConfigParameter) {sizes : List (Char × Nat)}
    (h : InOrder sizes) :
    InOrder (ps.foldl (fun sizes p ↦ lengthen p.label (p.field.offset + 1) sizes) sizes) := by
  induction ps generalizing sizes with
  | nil => exact h
  | cons p ps ih => exact ih (h.lengthen p.label (p.field.offset + 1))

/-- The sections are in the order of their letters. -/
theorem inOrder_sectionSizes : InOrder t.sectionSizes :=
  inOrder_foldl_lengthen t.parameters List.Pairwise.nil

private theorem lookup_foldl_lengthen (ps : List ConfigParameter) {sizes : List (Char × Nat)}
    (h : InOrder sizes) (c : Char) :
    (ps.foldl (fun sizes p ↦ lengthen p.label (p.field.offset + 1) sizes) sizes).lookup c =
      ((sizes.lookup c).toList ++ wordEnds ps c).max? := by
  induction ps generalizing sizes with
  | nil =>
    cases hc : sizes.lookup c with
    | none => simp [wordEnds, hc]
    | some size => simp [wordEnds, hc]
  | cons p ps ih =>
    rw [List.foldl_cons, ih (h.lengthen p.label (p.field.offset + 1)), lookup_lengthen _ _ _ h]
    by_cases hc : c = p.label
    · subst hc
      have hends : wordEnds (p :: ps) p.label = (p.field.offset + 1) :: wordEnds ps p.label := by
        simp [wordEnds]
      rw [if_pos rfl, hends]
      cases sizes.lookup p.label with
      | none => rfl
      | some size =>
        simp only [Option.map_some, Option.getD_some, Option.toList_some, List.singleton_append,
          List.max?_cons', List.foldl_cons]
    · have hends : wordEnds (p :: ps) c = wordEnds ps c := by
        simp [wordEnds, beq_false_of_ne (Ne.symm hc)]
      rw [if_neg hc, hends]

/-- A section is as long as its highest word that has a field. -/
theorem lookup_sectionSizes (c : Char) :
    t.sectionSizes.lookup c = (wordEnds t.parameters c).max? :=
  lookup_foldl_lengthen t.parameters List.Pairwise.nil c

/-- The word of a field is in its section. -/
theorem exists_mem_sectionSizes {p : ConfigParameter} (hp : p ∈ t.parameters) :
    ∃ size, (p.label, size) ∈ t.sectionSizes ∧ p.field.offset < size := by
  have hmem : p.field.offset + 1 ∈ wordEnds t.parameters p.label :=
    List.mem_map.mpr ⟨p, List.mem_filter.mpr ⟨hp, beq_self_eq_true _⟩, rfl⟩
  obtain ⟨size, hsize⟩ := Option.ne_none_iff_exists'.mp
    (mt List.max?_eq_none_iff.mp (List.ne_nil_of_mem hmem))
  obtain ⟨l₁, l₂, hl, -⟩ := List.lookup_eq_some_iff.mp ((t.lookup_sectionSizes p.label).trans hsize)
  refine ⟨size, ?_, (List.max?_eq_some_iff.mp hsize).2 _ hmem⟩
  rw [hl]
  exact List.mem_append_cons_self

/-! ### Starts -/

/-- Words of the sections with smaller letters. -/
def wordsBefore (label : Char) (sizes : List (Char × Nat)) : Nat :=
  wordCount (sizes.filter (·.1 < label))

/-- The first section has none before it. -/
theorem wordsBefore_first {label : Char} {size : Nat} {sizes : List (Char × Nat)}
    (h : InOrder ((label, size) :: sizes)) : wordsBefore label ((label, size) :: sizes) = 0 := by
  have hnone : ((label, size) :: sizes).filter (·.1 < label) = [] := by
    refine List.filter_eq_nil_iff.mpr fun e he ↦ ?_
    rcases List.mem_cons.mp he with rfl | he
    · simp
    · simpa using le_of_lt ((List.pairwise_cons.mp h).1 e he)
  rw [wordsBefore, hnone]
  rfl

/-- Any other section has the words of the first one before it. -/
theorem wordsBefore_cons {d : Char × Nat} {label : Char} (h : d.1 < label)
    (sizes : List (Char × Nat)) :
    wordsBefore label (d :: sizes) = d.2 + wordsBefore label sizes := by
  simp [wordsBefore, wordCount, h]

/-- A section starts after those with smaller letters. -/
theorem lookup_sectionStarts {sizes : List (Char × Nat)} (h : InOrder sizes) {label : Char}
    {size : Nat} (hmem : (label, size) ∈ sizes) (start : Nat) :
    (sectionStarts start sizes).lookup label = some (start + wordsBefore label sizes) := by
  induction sizes generalizing start with
  | nil => exact absurd hmem List.not_mem_nil
  | cons d sizes ih =>
    obtain ⟨hd, hs⟩ := List.pairwise_cons.mp h
    rcases List.mem_cons.mp hmem with rfl | hmem
    · rw [wordsBefore_first h]
      simp [sectionStarts]
    · have hlt : d.1 < label := hd _ hmem
      simp [sectionStarts, List.lookup_cons, beq_false_of_ne (ne_of_gt hlt), ih hs hmem,
        wordsBefore_cons hlt, Nat.add_assoc]

/-- A section ends where the next one starts, or before. -/
theorem wordsBefore_add_le {sizes : List (Char × Nat)} (h : InOrder sizes) {label next : Char}
    {size : Nat} (hmem : (label, size) ∈ sizes) (hlt : label < next) :
    wordsBefore label sizes + size ≤ wordsBefore next sizes := by
  induction sizes with
  | nil => exact absurd hmem List.not_mem_nil
  | cons d sizes ih =>
    obtain ⟨hd, hs⟩ := List.pairwise_cons.mp h
    rcases List.mem_cons.mp hmem with rfl | hmem
    · rw [wordsBefore_first h, wordsBefore_cons hlt]
      omega
    · have hlabel : d.1 < label := hd _ hmem
      rw [wordsBefore_cons hlabel, wordsBefore_cons (lt_trans hlabel hlt), Nat.add_assoc]
      exact Nat.add_le_add_left (ih hs hmem) d.2

/-- A section ends within the block. -/
theorem wordsBefore_add_le_wordCount {sizes : List (Char × Nat)} (h : InOrder sizes) {label : Char}
    {size : Nat} (hmem : (label, size) ∈ sizes) :
    wordsBefore label sizes + size ≤ wordCount sizes := by
  induction sizes with
  | nil => exact absurd hmem List.not_mem_nil
  | cons d sizes ih =>
    obtain ⟨hd, hs⟩ := List.pairwise_cons.mp h
    rcases List.mem_cons.mp hmem with rfl | hmem
    · rw [wordsBefore_first h, wordCount]
      omega
    · rw [wordsBefore_cons (hd _ hmem), wordCount, Nat.add_assoc]
      exact Nat.add_le_add_left (ih hs hmem) d.2

/-! ### Sums of 64 bits -/

/-- The block has fewer bytes than can be addressed. -/
def Addressable : Prop := 4 * wordCount t.sectionSizes < addressBound

instance : Decidable t.Addressable := inferInstanceAs (Decidable (_ < _))

/-- The sizes of sections are told as long as the number of each field's words has 64 bits. -/
theorem checkedSizes_eq : t.checkedSizes =
    if ∀ p ∈ t.parameters, p.field.offset + 1 < UInt64.size then .ok t.sectionSizes
      else .error .sum := by
  have hfold (ps : List ConfigParameter) (sizes : List (Char × Nat)) :
      ps.foldlM (fun sizes p ↦
        return lengthen p.label (← checkedAdd UInt64.size p.field.offset 1) sizes) sizes =
      if ∀ p ∈ ps, p.field.offset + 1 < UInt64.size then
        Except.ok (ps.foldl (fun sizes p ↦ lengthen p.label (p.field.offset + 1) sizes) sizes)
      else .error .sum := by
    induction ps generalizing sizes with
    | nil => simp [pure, Except.pure]
    | cons p ps ih =>
      rw [List.foldlM_cons, List.foldl_cons]
      by_cases hp : p.field.offset + 1 < UInt64.size
      · rw [checkedAdd_of_lt hp]
        simp only [List.forall_mem_cons, hp, true_and]
        exact ih _
      · rw [checkedAdd_of_le (Nat.not_lt.mp hp)]
        simp only [List.forall_mem_cons, hp, false_and, if_false]
        rfl
  exact hfold t.parameters []

/-- The number of words of sections is told as long as it has 64 bits. -/
theorem checkedCount_eq {total : Nat} (ht : total < UInt64.size) (sizes : List (Char × Nat)) :
    checkedCount total sizes =
      if total + wordCount sizes < UInt64.size then .ok (total + wordCount sizes)
      else .error .sum := by
  induction sizes generalizing total with
  | nil => exact (if_pos ht).symm
  | cons d sizes ih =>
    rw [checkedCount, wordCount, ← Nat.add_assoc]
    by_cases hd : total + d.2 < UInt64.size
    · rw [checkedAdd_of_lt hd]
      exact ih hd
    · rw [checkedAdd_of_le (Nat.not_lt.mp hd), if_neg (by omega)]
      rfl

variable {t}

theorem Addressable.wordCount_lt (h : t.Addressable) : wordCount t.sectionSizes < UInt64.size := by
  unfold Addressable addressBound at h
  unfold UInt64.size
  omega

/-- The sizes of the sections of a block that can be addressed are told. -/
theorem Addressable.checkedSizes_eq (h : t.Addressable) : t.checkedSizes = .ok t.sectionSizes := by
  have hwords := h.wordCount_lt
  rw [ConfigTable.checkedSizes_eq]
  refine if_pos fun p hp ↦ ?_
  obtain ⟨size, hsize, hlt⟩ := t.exists_mem_sectionSizes hp
  have := wordsBefore_add_le_wordCount t.inOrder_sectionSizes hsize
  omega

/-- A block that can be addressed is packed. -/
theorem Addressable.pack_eq (h : t.Addressable) : t.pack = .ok t.block := by
  have hwords := h.wordCount_lt
  rw [pack, h.checkedSizes_eq]
  simp only [bind, Except.bind]
  rw [checkedCount_eq (by decide), Nat.zero_add, if_pos hwords]
  exact if_pos h

end DetectorLink.ConfigTable
