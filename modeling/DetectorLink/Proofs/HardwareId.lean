import Mathlib.Tactic.Tauto
import DetectorLink.HardwareId
import DetectorLink.Proofs.Text.Numeral

/-!
# The notations of hardware ids

A text is read in one of three notations, told apart by its mark and by its dots. Marked
hexadecimal and plain decimal numerals give every value of 32 bits and are refused above. A dotted
quad is exactly the text of four octets, and the text of an id is read back as that id.
-/

namespace DetectorLink.HardwareId

variable {cs digits : List Char} {n v : Nat} {text : String} {id : HardwareId}

/-! ### Octets -/

/-- A decimal digit is the one of its value. -/
theorem digitChar_of_isDigit {c : Char} (h : c.isDigit = true) :
    c.toNat - 48 < 10 ∧ Nat.digitChar (c.toNat - 48) = c := by
  have hrange : 48 ≤ c.toNat ∧ c.toNat ≤ 57 := Char.isDigit_iff_toNat.mp h
  have hd : c.toNat - 48 < 10 := by omega
  refine ⟨hd, ?_⟩
  rw [← Char.toNat_inj, Nat.toNat_digitChar_of_lt_ten hd]
  omega

/-- Digits after those of a positive number continue it. -/
theorem toDigits_append_eq_foldl {acc : Nat} (hacc : 0 < acc)
    (hcs : ∀ c ∈ cs, c.isDigit = true) :
    Nat.toDigits 10 acc ++ cs =
      Nat.toDigits 10 (cs.foldl (fun acc c ↦ acc * 10 + (c.toNat - '0'.toNat)) acc) := by
  induction cs generalizing acc with
  | nil => exact List.append_nil _
  | cons c cs ih =>
    obtain ⟨hd, hchar⟩ := digitChar_of_isDigit (hcs c List.mem_cons_self)
    have hstep : Nat.toDigits 10 acc ++ [c] = Nat.toDigits 10 (acc * 10 + (c.toNat - 48)) := by
      rw [Nat.mul_comm acc, ← Nat.toDigits_append_toDigits (by decide) hacc hd,
        Nat.toDigits_of_lt_base hd, hchar]
    calc Nat.toDigits 10 acc ++ c :: cs
      _ = Nat.toDigits 10 acc ++ [c] ++ cs := by rw [List.append_assoc, List.singleton_append]
      _ = Nat.toDigits 10 (acc * 10 + (c.toNat - 48)) ++ cs := by rw [hstep]
      _ = _ := ih (by omega) fun c hc ↦ hcs c (List.mem_cons_of_mem _ hc)

/-- Digits without a leading zero are those of the number that they add up to. -/
theorem eq_toDigits_foldl {c : Char} (hcs : ∀ d ∈ c :: cs, d.isDigit = true)
    (hzero : c = '0' → cs = []) :
    c :: cs =
      Nat.toDigits 10 ((c :: cs).foldl (fun acc c ↦ acc * 10 + (c.toNat - '0'.toNat)) 0) := by
  by_cases hc : c = '0'
  · rw [hzero hc, hc]
    rfl
  · obtain ⟨hd, hchar⟩ := digitChar_of_isDigit (hcs c List.mem_cons_self)
    have hpos : 0 < c.toNat - 48 := by
      refine Nat.pos_of_ne_zero fun h ↦ hc ?_
      rw [← hchar, h]
      rfl
    have happend := toDigits_append_eq_foldl hpos fun c hc ↦ hcs c (List.mem_cons_of_mem _ hc)
    rw [Nat.toDigits_of_lt_base hd, hchar, List.singleton_append] at happend
    rw [List.foldl_cons, Nat.zero_mul, Nat.zero_add]
    exact happend

/-- An octet is read from the digits of a number below 256 and from nothing else. -/
theorem readOctet?_eq_some : readOctet? cs = some n ↔ n < 256 ∧ cs = Nat.toDigits 10 n := by
  constructor
  · intro h
    unfold readOctet? at h
    split at h
    · contradiction
    next hshape =>
    simp only [Bool.or_eq_true, not_or, Bool.and_eq_true, decide_eq_true_eq] at hshape
    split at h
    next hdigits =>
      dsimp only at h
      split at h
      next hlt =>
        obtain rfl := Option.some.inj h
        rw [List.all_eq_true] at hdigits
        cases cs with
        | nil => exact absurd rfl hshape.1.1
        | cons c cs =>
          refine ⟨hlt, eq_toDigits_foldl hdigits ?_⟩
          rintro rfl
          cases cs with
          | nil => rfl
          | cons d cs => exact absurd ⟨by simp, rfl⟩ hshape.2
      · contradiction
    · contradiction
  · rintro ⟨hn, rfl⟩
    have hall : ∀ n < 256, readOctet? (Nat.toDigits 10 n) = some n := by decide +kernel
    exact hall n hn

/-! ### Quads -/

/-- The text of four octets. -/
def quad (a b c d : Nat) : String :=
  ".".intercalate [toString a, toString b, toString c, toString d]

/-- The value of four octets. -/
def quadValue (a b c d : Nat) : Nat := a * 16777216 + b * 65536 + c * 256 + d

theorem toList_quad (a b c d : Nat) :
    (quad a b c d).toList = ['.'].intercalate ([a, b, c, d].map (Nat.toDigits 10)) := by
  simp [quad]

theorem splitDots_eq (cs : List Char) : splitDots cs = cs.splitOn '.' := by
  induction cs with
  | nil => rfl
  | cons c cs ih =>
    rw [splitDots, ih, List.splitOn_cons_eq_if_modifyHead]
    obtain ⟨piece, pieces, hsplit⟩ := List.exists_cons_of_ne_nil (List.splitOn_ne_nil '.' cs)
    rw [hsplit]
    by_cases hc : c = '.' <;> simp [hc]

/-- Digits are no dots. -/
theorem dot_notMem_toDigits (n : Nat) : '.' ∉ Nat.toDigits 10 n := fun h ↦ by
  have hdigit := Nat.isDigit_of_mem_toDigits (by decide) (by decide) h
  contradiction

/-- The pieces of the text of octets are the texts of the octets. -/
theorem splitDots_quad (a b c d : Nat) :
    splitDots (quad a b c d).toList = [a, b, c, d].map (Nat.toDigits 10) := by
  rw [toList_quad, splitDots_eq]
  refine List.splitOn_intercalate '.' ?_ (List.cons_ne_nil _ _)
  intro piece hpiece
  obtain ⟨n, -, rfl⟩ := List.mem_map.mp hpiece
  exact dot_notMem_toDigits n

theorem map_readOctet? {pieces : List (List Char)} {ns : List Nat} :
    pieces.map readOctet? = ns.map some ↔
      (∀ n ∈ ns, n < 256) ∧ pieces = ns.map (Nat.toDigits 10) := by
  induction ns generalizing pieces with
  | nil => simp
  | cons n ns ih =>
    cases pieces with
    | nil => simp
    | cons piece pieces =>
      simp only [List.map_cons, List.cons.injEq, readOctet?_eq_some, ih, List.forall_mem_cons]
      tauto

/-- A quad is read from the text of four octets and from nothing else. -/
theorem readQuad?_eq_some : readQuad? cs = some n ↔
    ∃ a b c d, (∀ octet ∈ [a, b, c, d], octet < 256) ∧ cs = (quad a b c d).toList ∧
      n = quadValue a b c d := by
  constructor
  · intro h
    unfold readQuad? at h
    split at h
    next a b c d hpieces =>
      have hmap : (splitDots cs).map readOctet? = [a, b, c, d].map some := hpieces
      obtain ⟨hoctets, hsplit⟩ := map_readOctet?.mp hmap
      refine ⟨a, b, c, d, hoctets, ?_, (Option.some.inj h).symm⟩
      rw [toList_quad, ← hsplit, splitDots_eq, List.intercalate_splitOn]
    · contradiction
  · rintro ⟨a, b, c, d, hoctets, rfl, rfl⟩
    have hpieces : (splitDots (quad a b c d).toList).map readOctet? = [a, b, c, d].map some :=
      map_readOctet?.mpr ⟨hoctets, splitDots_quad a b c d⟩
    rw [readQuad?, hpieces]
    rfl

/-- The text of an id is that of its octets. -/
theorem text_eq_quad (id : HardwareId) : ∃ a b c d, (∀ octet ∈ [a, b, c, d], octet < 256) ∧
    id.text = quad a b c d ∧ id.raw.toNat = quadValue a b c d := by
  have hraw : id.raw.toNat < 4294967296 := id.raw.toNat_lt
  refine ⟨id.raw.toNat / 16777216, id.raw.toNat / 65536 % 256, id.raw.toNat / 256 % 256,
    id.raw.toNat % 256, ?_, rfl, ?_⟩
  · simp only [List.forall_mem_cons, List.not_mem_nil, false_implies, implies_true, and_true]
    omega
  · simp only [quadValue]
    omega

/-- The characters of a quad are digits and dots. -/
theorem mem_quad {a b c d : Nat} {char : Char} (h : char ∈ (quad a b c d).toList) :
    char = '.' ∨ char.isDigit = true := by
  have hdigit {n : Nat} (h : char ∈ Nat.toDigits 10 n) : char.isDigit = true :=
    Nat.isDigit_of_mem_toDigits (by decide) (by decide) h
  have hsplit : (quad a b c d).toList = Nat.toDigits 10 a ++ '.' :: (Nat.toDigits 10 b ++
      '.' :: (Nat.toDigits 10 c ++ '.' :: Nat.toDigits 10 d)) := by
    simp [toList_quad, List.intercalate]
  rw [hsplit] at h
  simp only [List.mem_append, List.mem_cons] at h
  rcases h with h | rfl | h | rfl | h | rfl | h
  all_goals first | exact .inr (hdigit h) | exact .inl rfl

/-! ### Texts -/

/-- Texts have a hexadecimal mark if they start with one. -/
theorem afterHexMark?_eq_none :
    Numeral.afterHexMark? cs = none ↔ ∀ mark ∈ ['x', 'X'], ¬ ['0', mark] <+: cs := by
  unfold Numeral.afterHexMark?
  split
  · next cs => simp
  · next cs => simp
  · next hlower hupper =>
    refine iff_of_true rfl fun mark hmark ↦ ?_
    rintro ⟨digits, rfl⟩
    simp only [List.mem_cons, List.not_mem_nil, or_false] at hmark
    rcases hmark with rfl | rfl
    · exact hlower _ rfl
    · exact hupper _ rfl

/-- Characters without the letters of the marks have no mark. -/
theorem not_marked (hx : 'x' ∉ cs) (hX : 'X' ∉ cs) :
    ∀ mark ∈ ['x', 'X'], ¬ ['0', mark] <+: cs := by
  intro mark hmark hstart
  have hmem : mark ∈ cs := hstart.subset (List.mem_cons_of_mem _ List.mem_cons_self)
  simp only [List.mem_cons, List.not_mem_nil, or_false] at hmark
  rcases hmark with rfl | rfl
  · exact hx hmem
  · exact hX hmem

/-- The id that a numeral is read as. -/
theorem map_read {radix : Nat} (h1 : 1 < radix) (hr : radix ≤ 16)
    (h : Numeral.Writes radix v digits) :
    ((Numeral.read radix Numeral.wordBound digits).toOption.map fun n ↦ ⟨UInt32.ofNat n⟩) =
      if v < UInt32.size then some (⟨.ofNat v⟩ : HardwareId) else none := by
  have hread : Numeral.read radix Numeral.wordBound digits =
      if v < UInt32.size then .ok v else .error .tooLarge :=
    Numeral.read_of_writes h1 hr (by decide) h
  rw [hread]
  split <;> rfl

/-- Marked texts are read as hexadecimal numerals. -/
theorem parse?_marked {mark : Char} (hmark : mark ∈ ['x', 'X'])
    (hdigits : Numeral.Writes 16 v digits) (h : Text.Padded ('0' :: mark :: digits) text.toList) :
    parse? text = if v < UInt32.size then some ⟨.ofNat v⟩ else none := by
  have hblank : ∀ c ∈ '0' :: mark :: digits, Text.isBlank c = false := by
    simp only [List.mem_cons, List.not_mem_nil, or_false] at hmark
    rintro c (hc | ⟨_, hc | ⟨_, hc⟩⟩)
    · decide
    · rcases hmark with rfl | rfl <;> decide
    · obtain ⟨d, hd⟩ := hdigits.exists_digit? (by decide) (by decide) hc
      exact Numeral.isBlank_of_digit? hd
  have hafter : Numeral.afterHexMark? ('0' :: mark :: digits) = some digits := by
    simp only [List.mem_cons, List.not_mem_nil, or_false] at hmark
    rcases hmark with rfl | rfl <;> rfl
  simp only [parse?, Text.trimChars_of_padded h hblank, hafter]
  exact map_read (by decide) (by decide) hdigits

/-- Texts of digits are read as decimal numerals. -/
theorem parse?_decimal (hdigits : Numeral.Writes 10 v digits)
    (h : Text.Padded digits text.toList) :
    parse? text = if v < UInt32.size then some ⟨.ofNat v⟩ else none := by
  have hvalue : ∀ c ∈ digits, ∃ d, Numeral.digit? 10 c = some d := fun c hc ↦
    hdigits.exists_digit? (by decide) (by decide) hc
  have hblank : ∀ c ∈ digits, Text.isBlank c = false := fun c hc ↦
    Numeral.isBlank_of_digit? (hvalue c hc).choose_spec
  have hother {c : Char} (hc : Numeral.digit? 10 c = none) : c ∉ digits := fun hmem ↦ by
    obtain ⟨d, hd⟩ := hvalue c hmem
    rw [hc] at hd
    contradiction
  have hafter : Numeral.afterHexMark? digits = none :=
    afterHexMark?_eq_none.mpr (not_marked (hother rfl) (hother rfl))
  have hdot : digits.contains '.' = false := by simpa using hother (c := '.') rfl
  simp only [parse?, Text.trimChars_of_padded h hblank, hafter, hdot, Bool.false_eq_true,
    ite_false]
  exact map_read (by decide) (by decide) hdigits

/-- Texts with dots are read as quads. -/
theorem parse?_dotted (hmark : ∀ mark ∈ ['x', 'X'], ¬ ['0', mark] <+: Text.trimChars text.toList)
    (hdot : '.' ∈ Text.trimChars text.toList) :
    parse? text = some id ↔ ∃ a b c d, (∀ octet ∈ [a, b, c, d], octet < 256) ∧
      Text.trimChars text.toList = (quad a b c d).toList ∧ id = ⟨.ofNat (quadValue a b c d)⟩ := by
  have hparse : parse? text =
      (readQuad? (Text.trimChars text.toList)).map fun n ↦ ⟨UInt32.ofNat n⟩ := by
    have hcontains : (Text.trimChars text.toList).contains '.' = true := by simpa using hdot
    simp only [parse?, afterHexMark?_eq_none.mpr hmark, hcontains, ite_true]
  rw [hparse, Option.map_eq_some_iff]
  constructor
  · rintro ⟨n, hread, rfl⟩
    obtain ⟨a, b, c, d, hoctets, htext, rfl⟩ := readQuad?_eq_some.mp hread
    exact ⟨a, b, c, d, hoctets, htext, rfl⟩
  · rintro ⟨a, b, c, d, hoctets, htext, rfl⟩
    exact ⟨_, readQuad?_eq_some.mpr ⟨a, b, c, d, hoctets, htext, rfl⟩, rfl⟩

/-- The text of an id is read back. -/
theorem parse?_text (h : Text.Padded id.text.toList text.toList) : parse? text = some id := by
  obtain ⟨a, b, c, d, hoctets, htext, hvalue⟩ := text_eq_quad id
  have htrim : Text.trimChars text.toList = (quad a b c d).toList := by
    rw [← htext]
    refine Text.trimChars_of_padded h fun c hc ↦ ?_
    rcases mem_quad (htext ▸ hc) with rfl | hdigit
    · rfl
    · have hrange : 48 ≤ c.toNat ∧ c.toNat ≤ 57 := Char.isDigit_iff_toNat.mp hdigit
      exact Text.isBlank_of_lt (by omega) (by omega)
  have hmark : ∀ mark ∈ ['x', 'X'], ¬ ['0', mark] <+: Text.trimChars text.toList := by
    rw [htrim]
    exact not_marked (fun hx ↦ absurd (mem_quad hx) (by decide))
      fun hX ↦ absurd (mem_quad hX) (by decide)
  have hdot : '.' ∈ Text.trimChars text.toList := by
    rw [htrim, toList_quad]
    simp [List.intercalate]
  refine (parse?_dotted hmark hdot).mpr ⟨a, b, c, d, hoctets, htrim, ?_⟩
  rw [← hvalue, UInt32.ofNat_toNat]

/-- Ids have one text each. -/
theorem text_injective : Function.Injective HardwareId.text := fun id other h ↦ by
  have hpadded {cs : List Char} : Text.Padded cs cs := ⟨[], [], nofun, nofun, by simp⟩
  have hid : parse? id.text = some id := parse?_text hpadded
  rw [h, parse?_text hpadded] at hid
  exact (Option.some.inj hid).symm

/-- The notations of ids. An id is read back from its text. Digits write a value in their radix,
and numerals are read as their values, marked ones in radix 16 and others in radix 10, as long as
these are values of 32 bits, and refused above. Texts with dots and without mark are read if they
are the texts of four octets, and the texts of different ids differ. Blanks around a text do not
count. -/
theorem parse?_notations :
    (∀ id text, Text.Padded id.text.toList text.toList → parse? text = some id) ∧
    (∀ radix ∈ [10, 16], ∀ cs ≠ [], (∀ c ∈ cs, (Numeral.digit? radix c).isSome) →
      ∃ v, Numeral.Writes radix v cs) ∧
    (∀ v digits text, ∀ mark ∈ ['x', 'X'], Numeral.Writes 16 v digits →
      Text.Padded ('0' :: mark :: digits) text.toList →
      parse? text = if v < UInt32.size then some ⟨.ofNat v⟩ else none) ∧
    (∀ v digits text, Numeral.Writes 10 v digits → Text.Padded digits text.toList →
      parse? text = if v < UInt32.size then some ⟨.ofNat v⟩ else none) ∧
    (∀ id text, (∀ mark ∈ ['x', 'X'], ¬ ['0', mark] <+: Text.trimChars text.toList) →
      '.' ∈ Text.trimChars text.toList →
      (parse? text = some id ↔ ∃ a b c d, (∀ octet ∈ [a, b, c, d], octet < 256) ∧
        Text.trimChars text.toList = (quad a b c d).toList ∧
        id = ⟨.ofNat (quadValue a b c d)⟩)) ∧
    Function.Injective HardwareId.text := by
  refine ⟨fun _ _ ↦ parse?_text, fun radix hradix cs hne hcs ↦ ?_, fun _ _ _ _ ↦ parse?_marked,
    fun _ _ _ ↦ parse?_decimal, fun _ _ ↦ parse?_dotted, text_injective⟩
  have hbounds : ∀ radix ∈ [10, 16], 1 < radix ∧ radix ≤ 16 := by decide
  exact Numeral.exists_writes (hbounds radix hradix).1 (hbounds radix hradix).2 hne hcs

/-- One id in its notations, with blanks around the first, and a value that is one too large. -/
theorem parse?_notations_module :
    parse? "\t21.50.85.1\u00a0" = some ⟨0x15325501⟩ ∧ parse? "0X0015325501" = some ⟨0x15325501⟩ ∧
      parse? "355620097" = some ⟨0x15325501⟩ ∧ parse? "21.50.85.1" = some ⟨0x15325501⟩ ∧
      parse? "0x100000000" = none := by
  obtain ⟨hquad, -, hmarked, hdecimal, hdotted, -⟩ := parse?_notations
  refine ⟨?_, ?_, ?_, ?_, ?_⟩
  · exact hquad ⟨0x15325501⟩ _ ⟨['\t'], ['\u00a0'], List.forall_mem_singleton.mpr rfl,
      List.forall_mem_singleton.mpr rfl, by decide +kernel⟩
  · exact hmarked 0x15325501 "0015325501".toList _ 'X' (by decide) ⟨2, by decide⟩
      ⟨[], [], nofun, nofun, by decide +kernel⟩
  · exact hdecimal 0x15325501 "355620097".toList _ ⟨0, by decide⟩
      ⟨[], [], nofun, nofun, by decide +kernel⟩
  · exact (hdotted _ _ (afterHexMark?_eq_none.mp (by decide +kernel)) (by decide +kernel)).mpr
      ⟨21, 50, 85, 1, by decide, by decide +kernel, rfl⟩
  · exact hmarked UInt32.size "100000000".toList _ 'x' (by decide) ⟨0, by decide⟩
      ⟨[], [], nofun, nofun, by decide +kernel⟩

end DetectorLink.HardwareId
