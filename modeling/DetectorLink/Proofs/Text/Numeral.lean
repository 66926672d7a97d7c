import Mathlib.Data.List.Induction
import DetectorLink.Text.Blank
import DetectorLink.Text.Numeral

/-!
# Reading numerals of any length

A numeral is written as the digits of its value, letters in either case and after any number of
zeros, perhaps with blanks around it. Reading it in its radix gives the value if that is below the
bound, and otherwise refuses it for its size, however long it is.
-/

namespace DetectorLink

namespace Text

/-- Characters with blanks around them. -/
structure Padded (cs text : List Char) : Prop where
  around : ∃ before after, (∀ c ∈ before, isBlank c = true) ∧ (∀ c ∈ after, isBlank c = true) ∧
    text = before ++ cs ++ after

variable {cs text : List Char}

/-- The visible characters of the ASCII range are no blanks. -/
theorem isBlank_of_lt {c : Char} (hl : 0x20 < c.toNat) (hu : c.toNat < 0x80) :
    isBlank c = false := by
  simp only [isBlank, Bool.or_eq_false_iff, Bool.and_eq_false_iff, decide_eq_false_iff_not,
    beq_eq_false_iff_ne]
  omega

/-- Trimming takes blanks away from around characters that are none. -/
theorem trimChars_of_padded (h : Padded cs text) (hcs : ∀ c ∈ cs, isBlank c = false) :
    trimChars text = cs := by
  obtain ⟨before, after, hbefore, hafter, rfl⟩ := h.around
  rw [trimChars, List.append_assoc, List.dropWhile_append_of_pos hbefore]
  cases cs with
  | nil =>
    rw [List.nil_append, ← List.append_nil after, List.dropWhile_append_of_pos hafter]
    rfl
  | cons c cs =>
    have hfront : (c :: cs ++ after).dropWhile isBlank = c :: cs ++ after := by
      rw [List.cons_append, List.dropWhile_cons, hcs c List.mem_cons_self]
      rfl
    have hback : (c :: cs).reverse.dropWhile isBlank = (c :: cs).reverse := by
      obtain ⟨d, ds, hd⟩ := List.exists_cons_of_ne_nil
        (List.reverse_ne_nil_iff.mpr (List.cons_ne_nil c cs))
      have hmem : d ∈ c :: cs := List.mem_reverse.mp (hd ▸ List.mem_cons_self)
      rw [hd, List.dropWhile_cons, hcs d hmem]
      rfl
    rw [hfront, List.reverse_append,
      List.dropWhile_append_of_pos fun c hc ↦ hafter c (List.mem_reverse.mp hc), hback,
      List.reverse_reverse]

end Text

namespace Numeral

variable {radix bound v : Nat} {c : Char} {cs : List Char}

/-! ### Digits -/

/-- The value of a digit, from the number of its character. -/
theorem digit?_eq (radix : Nat) (c : Char) : digit? radix c =
    (if 48 ≤ c.toNat ∧ c.toNat ≤ 57 then some (c.toNat - 48)
      else if 97 ≤ c.toNat ∧ c.toNat ≤ 122 then some (c.toNat - 97 + 10)
      else if 65 ≤ c.toNat ∧ c.toNat ≤ 90 then some (c.toNat - 65 + 10)
      else none).filter (· < radix) := rfl

theorem toNat_toLower (c : Char) :
    c.toLower.toNat = if 65 ≤ c.toNat ∧ c.toNat ≤ 90 then c.toNat + 32 else c.toNat := by
  have hcase : (c.val ≥ 'A'.val ∧ c.val ≤ 'Z'.val) ↔ 65 ≤ c.toNat ∧ c.toNat ≤ 90 := Iff.rfl
  unfold Char.toLower
  split
  · next h =>
    rw [ite_cond_eq_true _ _ (eq_true (hcase.mp h))]
    show (c.val + 32).toNat = c.val.toNat + 32
    have hle : c.val.toNat ≤ 90 := (hcase.mp h).2
    rw [UInt32.toNat_add]
    exact Nat.mod_eq_of_lt (by simp only [UInt32.reduceToNat]; omega)
  · next h => rw [ite_cond_eq_false _ _ (eq_false (mt hcase.mpr h))]

/-- A letter has the same value in both cases. -/
theorem digit?_toLower (radix : Nat) (c : Char) : digit? radix c.toLower = digit? radix c := by
  rw [digit?_eq, digit?_eq, toNat_toLower]
  congr 1
  split
  · next h =>
    have hlower : 97 ≤ c.toNat + 32 ∧ c.toNat + 32 ≤ 122 := by omega
    rw [ite_cond_eq_false _ _ (eq_false (by omega)), ite_cond_eq_true _ _ (eq_true hlower),
      ite_cond_eq_false _ _ (eq_false (by omega)), ite_cond_eq_false _ _ (eq_false (by omega)),
      Nat.add_sub_add_right c.toNat 32 65]
  · rfl

/-- The digits of a radix have their values in it. -/
theorem digit?_digitChar {d : Nat} (hr : radix ≤ 16) (hd : d < radix) :
    digit? radix (Nat.digitChar d) = some d := by
  have hsixteen : ∀ d < 16, digit? 16 (Nat.digitChar d) = some d := by decide
  have h := hsixteen d (Nat.lt_of_lt_of_le hd hr)
  rw [digit?_eq, Option.filter_eq_some_iff] at h ⊢
  exact ⟨h.1, decide_eq_true hd⟩

/-- What has a value in a radix is the digit of that value there, in one of the two cases. -/
theorem toLower_of_digit? {d : Nat} (hr : radix ≤ 16) (h : digit? radix c = some d) :
    d < radix ∧ c.toLower = Nat.digitChar d := by
  have hchar : ∀ d < 16, (Nat.digitChar d).toNat = if d < 10 then 48 + d else 87 + d := by decide
  rw [digit?_eq, Option.filter_eq_some_iff] at h
  have hd : d < radix := of_decide_eq_true h.2
  refine ⟨hd, Char.toNat_inj.mp ?_⟩
  rw [toNat_toLower, hchar d (Nat.lt_of_lt_of_le hd hr)]
  grind

/-- Digits are no blanks. -/
theorem isBlank_of_digit? {d : Nat} (h : digit? radix c = some d) : Text.isBlank c = false := by
  rw [digit?_eq, Option.filter_eq_some_iff] at h
  apply Text.isBlank_of_lt <;> grind

/-! ### Numerals -/

/-- The digits of a value, letters in either case, after any number of zeros. -/
structure Writes (radix v : Nat) (cs : List Char) : Prop where
  digits : ∃ zeros, cs.map Char.toLower = List.replicate zeros '0' ++ Nat.toDigits radix v

/-- A digit more makes the numeral of a larger value. -/
theorem Writes.snoc {d : Nat} (h : Writes radix v cs) (h1 : 1 < radix) (hd : d < radix)
    (hc : c.toLower = Nat.digitChar d) : Writes radix (radix * v + d) (cs ++ [c]) := by
  obtain ⟨zeros, h⟩ := h.digits
  have hmap : (cs ++ [c]).map Char.toLower =
      List.replicate zeros '0' ++ (Nat.toDigits radix v ++ Nat.toDigits radix d) := by
    rw [List.map_append, h, List.append_assoc, Nat.toDigits_of_lt_base hd, ← hc]
    rfl
  rcases Nat.eq_zero_or_pos v with rfl | hv
  -- what was written is zero, so that its digit is a leading zero now
  · refine ⟨zeros + 1, hmap.trans ?_⟩
    rw [Nat.mul_zero, Nat.zero_add, Nat.toDigits_zero, List.replicate_succ', List.append_assoc]
  · exact ⟨zeros, hmap.trans (by rw [Nat.toDigits_append_toDigits h1 hv hd])⟩

/-- Digits always write a value. -/
theorem exists_writes (h1 : 1 < radix) (hr : radix ≤ 16) (hne : cs ≠ [])
    (hcs : ∀ c ∈ cs, (digit? radix c).isSome) : ∃ v, Writes radix v cs := by
  induction cs using List.reverseRecOn with
  | nil => contradiction
  | append_singleton front c ih =>
    obtain ⟨d, hc⟩ := Option.isSome_iff_exists.mp (hcs c (by simp))
    obtain ⟨hd, hlower⟩ := toLower_of_digit? hr hc
    rcases eq_or_ne front [] with rfl | hfront
    · exact ⟨d, 0, by simp [hlower, Nat.toDigits_of_lt_base hd]⟩
    · obtain ⟨v, hv⟩ := ih hfront fun c hc ↦ hcs c (List.mem_append_left _ hc)
      exact ⟨_, hv.snoc h1 hd hlower⟩

/-- Digits that follow others are read after them. -/
theorem readDigits_append (radix bound acc : Nat) (cs ds : List Char) :
    readDigits radix bound acc (cs ++ ds) =
      (readDigits radix bound acc cs).bind fun n ↦ readDigits radix bound n ds := by
  induction cs generalizing acc with
  | nil => rfl
  | cons c cs ih =>
    rw [List.cons_append, readDigits, readDigits]
    cases digit? radix c with
    | none => rfl
    | some d =>
      dsimp only
      split
      · exact ih _
      · rfl

/-- What the digits of a value are read as. -/
theorem readDigits_toDigits (h1 : 1 < radix) (hr : radix ≤ 16)
    (h : cs.map Char.toLower = Nat.toDigits radix v) :
    readDigits radix bound 0 cs = if v < bound then .ok v else .error .tooLarge := by
  have hone {acc d : Nat} {c : Char} (hc : c.toLower = Nat.digitChar d) (hd : d < radix) :
      readDigits radix bound acc [c] =
        if acc * radix + d < bound then .ok (acc * radix + d) else .error .tooLarge := by
    rw [readDigits, ← digit?_toLower, hc, digit?_digitChar hr hd]
    rfl
  induction v using Nat.strongRecOn generalizing cs with
  | ind v ih =>
    by_cases hlt : v < radix
    · rw [Nat.toDigits_of_lt_base hlt] at h
      obtain ⟨c, rfl, hc⟩ := List.map_eq_singleton_iff.mp h
      rw [hone hc hlt, Nat.zero_mul, Nat.zero_add]
    -- the last digit is read after those of the quotient
    · rw [Nat.toDigits_of_base_le h1 (Nat.le_of_not_lt hlt)] at h
      obtain ⟨front, last, rfl, hfront, hlast⟩ := List.map_eq_append_iff.mp h
      obtain ⟨c, rfl, hc⟩ := List.map_eq_singleton_iff.mp hlast
      have hdiv : v / radix < v := Nat.div_lt_self (by omega) h1
      have hvalue : v / radix * radix + v % radix = v := Nat.div_add_mod' v radix
      rw [readDigits_append, ih _ hdiv hfront]
      split
      · next hq =>
        show readDigits radix bound (v / radix) [c] = _
        rw [hone hc (Nat.mod_lt v (by omega)), hvalue]
      · next hq =>
        have hle : v / radix ≤ v := Nat.le_of_lt hdiv
        rw [ite_cond_eq_false _ _ (eq_false (by omega))]
        rfl

/-- Zeros in front change nothing. -/
theorem readDigits_zeros (h1 : 1 < radix) (hr : radix ≤ 16) (hb : 0 < bound) {zeros : Nat}
    {ds : List Char} (h : cs.map Char.toLower = List.replicate zeros '0') :
    readDigits radix bound 0 (cs ++ ds) = readDigits radix bound 0 ds := by
  induction zeros generalizing cs with
  | zero =>
    obtain rfl := List.map_eq_nil_iff.mp h
    rfl
  | succ zeros ih =>
    obtain ⟨c, cs, rfl, hc, hcs⟩ := List.map_eq_cons_iff.mp h
    have hzero : digit? radix c = some 0 := by
      rw [← digit?_toLower, hc]
      exact digit?_digitChar hr (Nat.lt_trans Nat.zero_lt_one h1)
    rw [List.cons_append, readDigits, hzero]
    simp only [Nat.zero_mul, Nat.zero_add, hb, ite_true]
    exact ih hcs

/-- The digits of a value have values in the radix. -/
theorem exists_of_mem_toDigits (h1 : 1 < radix) (h : c ∈ Nat.toDigits radix v) :
    ∃ d < radix, c = Nat.digitChar d := by
  induction v using Nat.strongRecOn with
  | ind v ih =>
    by_cases hlt : v < radix
    · rw [Nat.toDigits_of_lt_base hlt, List.mem_singleton] at h
      exact ⟨v, hlt, h⟩
    · rw [Nat.toDigits_of_base_le h1 (Nat.le_of_not_lt hlt), List.mem_append,
        List.mem_singleton] at h
      rcases h with h | h
      · exact ih _ (Nat.div_lt_self (by omega) h1) h
      · exact ⟨v % radix, Nat.mod_lt v (by omega), h⟩

/-- The characters of a numeral are digits. -/
theorem Writes.exists_digit? (h : Writes radix v cs) (h1 : 1 < radix) (hr : radix ≤ 16)
    (hc : c ∈ cs) : ∃ d, digit? radix c = some d := by
  obtain ⟨zeros, h⟩ := h.digits
  have hmem : c.toLower ∈ cs.map Char.toLower := List.mem_map_of_mem hc
  rw [h, List.mem_append] at hmem
  rw [← digit?_toLower]
  rcases hmem with hzero | hdigit
  · rw [List.eq_of_mem_replicate hzero]
    exact ⟨0, digit?_digitChar hr (Nat.lt_trans Nat.zero_lt_one h1)⟩
  · obtain ⟨d, hd, hchar⟩ := exists_of_mem_toDigits h1 hdigit
    rw [hchar]
    exact ⟨d, digit?_digitChar hr hd⟩

/-- A numeral has a character. -/
theorem Writes.ne_nil (h : Writes radix v cs) : cs ≠ [] := by
  obtain ⟨zeros, h⟩ := h.digits
  rintro rfl
  exact Nat.toDigits_ne_nil (List.append_eq_nil_iff.mp h.symm).2

/-- A numeral is read as its value, or refused because that is not below the bound. -/
theorem read_of_writes (h1 : 1 < radix) (hr : radix ≤ 16) (hb : 0 < bound)
    (h : Writes radix v cs) :
    read radix bound cs = if v < bound then .ok v else .error .tooLarge := by
  have hplus : '+' ∉ cs := fun hc ↦ by
    obtain ⟨d, hd⟩ := h.exists_digit? h1 hr hc
    contradiction
  have hread : read radix bound cs = readDigits radix bound 0 cs := by
    unfold read
    split
    · exact absurd rfl h.ne_nil
    · exact absurd List.mem_cons_self hplus
    · exact absurd List.mem_cons_self hplus
    · rfl
  obtain ⟨zeros, h⟩ := h.digits
  obtain ⟨front, digits, rfl, hfront, hback⟩ := List.map_eq_append_iff.mp h
  rw [hread, readDigits_zeros h1 hr hb hfront, readDigits_toDigits h1 hr hback]

end Numeral

end DetectorLink
