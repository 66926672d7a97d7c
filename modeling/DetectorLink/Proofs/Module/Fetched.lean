import Mathlib.Algebra.Group.Nat.Defs
import DetectorLink.Module.StatusTable
import DetectorLink.Proofs.Packet.Parse

/-!
# Words at far indices

Offsets of bytes have 64 bits. A word starts at four times its index, and where that is no offset
there is no word. Where it is one, the end of the word is an offset too, except at the last such
index: there fetching fails, although no bytes reach so far. At every other index it gives the word
that reading all of them has there, and a status field is fetched just like its word.
-/

namespace DetectorLink

namespace Word

variable {b : Bytes}

/-- Bytes that offsets reach have no word at the last index whose start is an offset. -/
theorem length_ofByteList_lt (hb : b.length < offsetBound) :
    (ofByteList b).length < 2 ^ 62 := by
  rw [length_ofByteList]
  simp only [offsetBound] at hb
  omega

/-- Only at the last index whose start is an offset the end of the word is none. -/
theorem fetch_eq (b : Bytes) (i : Nat) :
    fetch b i = if i = 2 ^ 62 - 1 then .error .sum else .ok (get? b i) := by
  unfold fetch
  by_cases hstart : 4 * i < offsetBound
  · rw [start?, ite_cond_eq_true _ _ (eq_true hstart)]
    have hstop : stop (4 * i) < offsetBound ↔ i ≠ 2 ^ 62 - 1 := by
      simp only [stop, offsetBound] at *
      omega
    simp only [hstop, ne_eq, ite_not]
  · have hnone : start? i = none := ite_cond_eq_false _ _ (eq_false hstart)
    have hi : i ≠ 2 ^ 62 - 1 := by
      simp only [offsetBound] at hstart
      omega
    rw [ite_cond_eq_false _ _ (eq_false hi), get?, hnone]
    rfl

/-- In bytes that offsets reach, access at any index agrees with reading all words. -/
theorem get?_of_length_lt (hb : b.length < offsetBound) (i : Nat) :
    get? b i = (ofByteList b)[i]? := by
  by_cases hstart : 4 * i < offsetBound
  · exact get?_eq_getElem? b hstart
  · have hnone : start? i = none := ite_cond_eq_false _ _ (eq_false hstart)
    have hlt := length_ofByteList_lt hb
    have hle : (ofByteList b).length ≤ i := by
      simp only [offsetBound] at hstart
      omega
    rw [get?, hnone, List.getElem?_eq_none hle]
    rfl

end Word

namespace StatusParameter

theorem fetch_eq (p : StatusParameter) (payload : Bytes) :
    p.fetch payload = if p.field.offset = 2 ^ 62 - 1 then .error .sum
      else .ok (p.extract? payload) := by
  rw [fetch, Word.fetch_eq]
  split <;> rfl

end StatusParameter

namespace StatusTable

/-- A table is fetched unless a field has its word at the last index whose start is an offset. -/
theorem fetch_eq (t : StatusTable) (payload : Bytes) :
    t.fetch payload = if ∃ p ∈ t.parameters, p.field.offset = 2 ^ 62 - 1 then .error .sum
      else .ok (t.extract payload) := by
  obtain ⟨ps⟩ := t
  have hfound : (ps.mapM fun p ↦ return (← p.fetch payload).map fun v ↦ (p.name, v)) =
      if ∃ p ∈ ps, p.field.offset = 2 ^ 62 - 1 then Except.error Overflow.sum
      else .ok (ps.map fun p ↦ (p.extract? payload).map fun v ↦ (p.name, v)) := by
    induction ps with
    | nil => rfl
    | cons p ps ih =>
      rw [List.mapM_cons, ih, p.fetch_eq]
      by_cases hp : p.field.offset = 2 ^ 62 - 1
      · simp only [hp, List.mem_cons, exists_eq_or_imp, true_or, ite_true]
        rfl
      · simp only [hp, List.mem_cons, exists_eq_or_imp, false_or, ite_false]
        split <;> rfl
  simp only [fetch, hfound, extract]
  split
  · rfl
  · simp only [bind, Except.bind, pure, Except.pure, List.filterMap_map]
    rfl

end StatusTable

namespace Word

/-- In bytes that offsets reach, the word at an index is there just if there are more complete words,
and then it is the one that reading all of them has there. Fetching it, or a status field in it,
gives it at every index, except that at the last one whose start is an offset it fails, because the
end is none; and a table is fetched unless one of its fields is there. -/
theorem fetch_fails_iff {b : Bytes} (hb : b.length < offsetBound) (i : Nat) :
    (fetch b i = .error .sum ↔ i = 2 ^ 62 - 1) ∧
    (i ≠ 2 ^ 62 - 1 → fetch b i = .ok (get? b i)) ∧
    ((get? b i).isSome = true ↔ i < b.length / 4) ∧ get? b i = (ofByteList b)[i]? ∧
    (∀ p : StatusParameter, p.field.offset = i →
      (p.fetch b = .error .sum ↔ i = 2 ^ 62 - 1) ∧
      (i ≠ 2 ^ 62 - 1 → p.fetch b = .ok (p.extract? b)) ∧
      p.extract? b = (ofByteList b)[i]?.map p.field.extract) ∧
    ∀ t : StatusTable,
      (t.fetch b = .error .sum ↔ ∃ p ∈ t.parameters, p.field.offset = 2 ^ 62 - 1) ∧
      ((∀ p ∈ t.parameters, p.field.offset ≠ 2 ^ 62 - 1) → t.fetch b = .ok (t.extract b)) := by
  have hget := get?_of_length_lt hb i
  have hfails {α : Type} (P : Prop) [Decidable P] (a : α) :
      (if P then .error .sum else .ok a : Except Overflow α) = .error .sum ↔ P := by
    split <;> simp only [*, reduceCtorEq]
  refine ⟨?_, fun hi ↦ ?_, ?_, hget, ?_, fun t ↦ ⟨?_, fun hp ↦ ?_⟩⟩
  · rw [fetch_eq, hfails]
  · rw [fetch_eq, ite_cond_eq_false _ _ (eq_false hi)]
  · rw [hget, ← length_ofByteList, isSome_getElem?]
  · rintro p rfl
    refine ⟨?_, fun hi ↦ ?_, ?_⟩
    · rw [StatusParameter.fetch_eq, hfails]
    · rw [StatusParameter.fetch_eq, ite_cond_eq_false _ _ (eq_false hi)]
    · rw [StatusParameter.extract?, hget]
  · rw [t.fetch_eq, hfails]
  · rw [t.fetch_eq, ite_cond_eq_false _ _ (eq_false fun ⟨p, hm, he⟩ ↦ hp p hm he)]

/-- Two words have none at the last index whose start is an offset, but fetching it fails. -/
theorem fetch_fails_iff_last :
    let b : Bytes := [1, 2, 3, 4, 5, 6, 7, 8]
    b.length < offsetBound ∧ fetch b (2 ^ 62 - 1) = .error .sum ∧
      get? b (2 ^ 62 - 1) = none ∧ fetch b (2 ^ 62 - 2) = .ok none := by
  intro b
  have hb : b.length < offsetBound := by decide
  obtain ⟨hfails, -, -, hget, -⟩ := fetch_fails_iff hb (2 ^ 62 - 1)
  obtain ⟨-, hok, -, hget', -⟩ := fetch_fails_iff hb (2 ^ 62 - 2)
  have hnone {i : Nat} (hi : 2 ≤ i) : (ofByteList b)[i]? = none := List.getElem?_eq_none hi
  refine ⟨hb, hfails.mpr rfl, hget.trans (hnone (by decide)), ?_⟩
  rw [hok (by decide), hget', hnone (by decide)]

end Word

end DetectorLink
