import DetectorLink.Module.Discovery
import DetectorLink.Proofs.Packet.Parse
import Mathlib.Algebra.Group.Nat.Defs
import Mathlib.Data.List.Sort

/-!
# What a discovery has found

Answers of many modules arrive in any order. What is kept of a module is what its own answers say,
taken alone: the type and the parent are those of its last discovery answer, and the version that of
its last version answer since. So the list of modules is a function of each module's own answers,
however they are mixed with those of others.
-/

namespace DetectorLink

/-! ### What a version answer says -/

/-- The number that two decimal digits in a byte stand for, four bits each. -/
def decimalByte (n : Nat) : Nat := n / 16 * 10 + n % 16

/-- What a word says of a component: day, month and year of this century in a byte each, from the
lowest one on, as decimal digits; then four bits of the revision and four of the version. -/
structure ComponentVersion.Says (v : ComponentVersion) (word : UInt32) : Prop where
  day : v.day.toNat = decimalByte (word.toNat % 256)
  month : v.month.toNat = decimalByte (word.toNat / 2 ^ 8 % 256)
  year : v.year.toNat = 2000 + decimalByte (word.toNat / 2 ^ 16 % 256)
  revision : v.revision.toNat = word.toNat / 2 ^ 24 % 16
  version : v.version.toNat = word.toNat / 2 ^ 28

namespace ComponentVersion

theorem decimalByte_lt {n : Nat} (h : n < 256) : decimalByte n < 166 := by
  unfold decimalByte
  omega

theorem toNat_digits (word : UInt32) : (digits word).toNat = decimalByte (word.toNat % 256) := by
  have hbyte : (word &&& 0xFF).toNat = word.toNat % 256 := by
    rw [UInt32.toNat_and]
    exact Nat.and_two_pow_sub_one_eq_mod word.toNat 8
  have hlt : decimalByte (word.toNat % 256) < 166 := decimalByte_lt (Nat.mod_lt _ (by decide))
  unfold decimalByte at *
  simp only [digits, UInt32.toNat_add, UInt32.toNat_mul, UInt32.toNat_div, UInt32.toNat_mod, hbyte,
    UInt32.reduceToNat]
  omega

theorem toNat_shiftRight_and (word shift : UInt32) :
    ((word >>> shift) &&& 0xF).toNat = word.toNat / 2 ^ (shift.toNat % 32) % 16 := by
  rw [UInt32.toNat_and, UInt32.toNat_shiftRight, Nat.shiftRight_eq_div_pow]
  exact Nat.and_two_pow_sub_one_eq_mod _ 4

/-- A word is read for what it says. -/
theorem Says.ofWord (word : UInt32) : (.ofWord word : ComponentVersion).Says word := by
  have hlt := word.toNat_lt
  have hshift (k : Nat) : decimalByte (word.toNat / 2 ^ k % 256) < 166 :=
    decimalByte_lt (Nat.mod_lt _ (by decide))
  have h0 : decimalByte (word.toNat % 256) < 166 := decimalByte_lt (Nat.mod_lt _ (by decide))
  have h8 := hshift 8
  have h16 := hshift 16
  constructor
  case day =>
    rw [ComponentVersion.ofWord, UInt32.toNat_toUInt8, toNat_digits]
    omega
  case month =>
    rw [ComponentVersion.ofWord, UInt32.toNat_toUInt8, toNat_digits, UInt32.toNat_shiftRight,
      Nat.shiftRight_eq_div_pow]
    exact Nat.mod_eq_of_lt (by simpa using Nat.lt_trans h8 (by decide))
  case year =>
    rw [ComponentVersion.ofWord, UInt32.toNat_toUInt16, UInt32.toNat_add, toNat_digits,
      UInt32.toNat_shiftRight, Nat.shiftRight_eq_div_pow]
    change (decimalByte (word.toNat / 2 ^ 16 % 256) + 2000) % 2 ^ 32 % 2 ^ 16 = _
    omega
  case revision =>
    rw [ComponentVersion.ofWord, UInt32.toNat_toUInt8, toNat_shiftRight_and]
    change word.toNat / 2 ^ 24 % 16 % 2 ^ 8 = _
    omega
  case version =>
    rw [ComponentVersion.ofWord, UInt32.toNat_toUInt8, toNat_shiftRight_and]
    change word.toNat / 2 ^ 28 % 16 % 2 ^ 8 = _
    omega

/-- What a word says determines the version. -/
theorem Says.eq {v w : ComponentVersion} {word : UInt32} (hv : v.Says word) (hw : w.Says word) :
    v = w := by
  obtain ⟨version, revision, year, month, day⟩ := v
  obtain ⟨version', revision', year', month', day'⟩ := w
  obtain rfl : version = version' := UInt8.toNat_inj.mp (hv.version.trans hw.version.symm)
  obtain rfl : revision = revision' := UInt8.toNat_inj.mp (hv.revision.trans hw.revision.symm)
  obtain rfl : year = year' := UInt16.toNat_inj.mp (hv.year.trans hw.year.symm)
  obtain rfl : month = month' := UInt8.toNat_inj.mp (hv.month.trans hw.month.symm)
  obtain rfl : day = day' := UInt8.toNat_inj.mp (hv.day.trans hw.day.symm)
  rfl

end ComponentVersion

/-- What a payload says of a module: four words, that of the board, that of the firmware and the two
that identify the module. -/
structure DspVersion.Says (v : DspVersion) (payload : Bytes) : Prop where
  words : ∃ hardware firmware, v.hardware.Says hardware ∧ v.firmware.Says firmware ∧
    payload = Word.toByteList [hardware, firmware, v.eepromCode₁, v.eepromCode₂]

namespace DspVersion

/-- A payload is read for what it says. -/
theorem parse?_eq_some_iff {payload : Bytes} {v : DspVersion} :
    parse? payload = some v ↔ v.Says payload := by
  constructor
  · intro h
    unfold parse? at h
    split at h
    case isTrue => cases h
    case isFalse hl =>
      split at h
      case h_2 => cases h
      case h_1 hardware firmware code₁ code₂ hw =>
        cases h
        refine ⟨hardware, firmware, .ofWord _, .ofWord _, ?_⟩
        rw [← hw, Word.toByteList_ofByteList (by omega)]
  · rintro ⟨hardware, firmware, hh, hf, rfl⟩
    obtain ⟨h, f, code₁, code₂⟩ := v
    obtain rfl := hh.eq (.ofWord hardware)
    obtain rfl := hf.eq (.ofWord firmware)
    have hl : (Word.toByteList [hardware, firmware, code₁, code₂]).length = 16 :=
      Word.length_toByteList _
    rw [parse?, if_neg (not_not_intro hl), Word.ofByteList_toByteList]

/-- A payload of exactly four words is a version, any other is none. -/
theorem parse?_eq_none_iff (payload : Bytes) :
    parse? payload = none ↔ payload.length ≠ 4 * 4 := by
  unfold parse?
  split
  · next hl => exact iff_of_true rfl hl
  · next hl =>
    have hl : payload.length = 16 := not_not.mp hl
    have hw : (Word.ofByteList payload).length = 4 := by rw [Word.length_ofByteList, hl]
    match Word.ofByteList payload, hw with
    | [_, _, _, _], _ => exact iff_of_false (Option.some_ne_none _) (not_not_intro hl)

end DspVersion

namespace Packet

/-- An answer to a command. -/
def answers (command : Command) (p : Packet) : Bool := p.isResponse && p.command? == some command

/-- A response names the type of its module. -/
theorem isSome_moduleType? (p : Packet) : p.moduleType?.isSome = p.isResponse := by
  cases hc : p.commandInfo? with
  | none => rw [moduleType?, isResponse, hasFlag, hc]; rfl
  | some c =>
    rw [moduleType?, isResponse, hasFlag, hc, Option.isSome_map, Option.isSome_filter]

theorem answers_iff {command : Command} {p : Packet} :
    p.answers command = true ↔ (∃ t, p.moduleType? = some t) ∧ p.command? = some command := by
  rw [answers, Bool.and_eq_true, beq_iff_eq, ← isSome_moduleType?, Option.isSome_iff_exists]

/-- An answer to one command is none to another. -/
theorem answers_of_answers {command other : Command} {p : Packet}
    (h : p.answers command = true) (hne : command ≠ other) : p.answers other = false := by
  have hc := (answers_iff.mp h).2
  rw [answers, hc, beq_false_of_ne fun he ↦ hne (Option.some.inj he), Bool.and_false]

end Packet

namespace Discovery

variable {packets : List Packet} {p : Packet} {address : UInt32}

/-! ### What the answers of an address say -/

/-- The packets of one address, latest first. -/
def history (address : UInt32) (packets : List Packet) : List Packet :=
  (packets.filter (·.sourceAddress == address)).reverse

/-- The version in the last version answer of a history that has no discovery answer after it. -/
def versionSince? (history : List Packet) : Option DspVersion :=
  ((history.takeWhile (!·.answers .discover)).find? (·.answers .readVersion)).bind
    (DspVersion.parse? ·.payload)

/-- The module at an address as its own answers describe it: by the last discovery answer, and for
an aggregator by the last version answer since. -/
def described? (packets : List Packet) (address : UInt32) : Option DiscoveredModule := do
  let history := history address packets
  let last ← history.find? (·.answers .discover)
  let moduleType ← last.moduleType?
  return {
    hardwareId := ⟨address⟩
    moduleType
    parent := if last.isPassthru then some ⟨last.routerAddress⟩ else none
    version := if moduleType.isDsp then versionSince? history else none }

theorem history_concat_self : history p.sourceAddress (packets ++ [p]) =
    p :: history p.sourceAddress packets := by
  rw [history, List.filter_append, List.filter_singleton, beq_self_eq_true]
  exact List.reverse_concat

theorem history_concat_of_ne (h : p.sourceAddress ≠ address) :
    history address (packets ++ [p]) = history address packets := by
  rw [history, List.filter_append, List.filter_singleton, beq_false_of_ne h]
  exact congrArg List.reverse (List.append_nil _)

/-- A packet of another address changes nothing. -/
theorem described?_concat_of_ne (h : p.sourceAddress ≠ address) :
    described? (packets ++ [p]) address = described? packets address := by
  rw [described?, history_concat_of_ne h]
  rfl

/-- A discovery answer describes its module anew, without a version. -/
theorem described?_concat_discover {t : ModuleType} (h : p.answers .discover = true)
    (ht : p.moduleType? = some t) :
    described? (packets ++ [p]) p.sourceAddress = some (found p t) := by
  have hsince : versionSince? (p :: history p.sourceAddress packets) = none := by
    rw [versionSince?, List.takeWhile_cons_of_neg (by rw [h]; exact Bool.false_ne_true)]
    rfl
  rw [described?, history_concat_self]
  simp only [List.find?_cons_of_pos h, Option.bind_eq_bind, Option.bind_some, ht, hsince, ite_self]
  rfl

theorem hardwareId_of_described? {m : DiscoveredModule} (h : described? packets address = some m) :
    m.hardwareId.raw = address := by
  simp only [described?, Option.bind_eq_bind, Option.bind_eq_some_iff, Option.pure_def,
    Option.some_inj] at h
  obtain ⟨_, -, _, -, rfl⟩ := h
  rfl

/-- A module after a packet that is no discovery answer: a version answer of its own tells the
version of an aggregator. -/
def updated (p : Packet) (m : DiscoveredModule) : DiscoveredModule :=
  if p.answers .readVersion = true ∧ m.hardwareId.raw = p.sourceAddress ∧
      m.moduleType.isDsp = true then
    { m with version := DspVersion.parse? p.payload }
  else m

@[simp] theorem hardwareId_updated (p : Packet) (m : DiscoveredModule) :
    (updated p m).hardwareId = m.hardwareId := by
  unfold updated
  split <;> rfl

theorem updated_of_ne {m : DiscoveredModule} (h : p.sourceAddress ≠ m.hardwareId.raw) :
    updated p m = m :=
  ite_cond_eq_false _ _ (eq_false fun hc ↦ h hc.2.1.symm)

/-- What a history tells of the version after one more packet that is no discovery answer. -/
theorem versionSince?_cons {history : List Packet} (h : p.answers .discover = false) :
    versionSince? (p :: history) =
      if p.answers .readVersion = true then DspVersion.parse? p.payload
      else versionSince? history := by
  rw [versionSince?, List.takeWhile_cons_of_pos (by rw [h]; rfl)]
  split
  · next hv => rw [List.find?_cons_of_pos hv, Option.bind_some]
  · next hv => rw [List.find?_cons_of_neg hv, versionSince?]

/-- A packet that is no discovery answer at most tells the version of its module. -/
theorem described?_concat_of_not_discover (h : p.answers .discover = false) (address : UInt32) :
    described? (packets ++ [p]) address = (described? packets address).map (updated p) := by
  by_cases ha : p.sourceAddress = address
  · subst ha
    rw [described?, described?, history_concat_self]
    simp only [List.find?_cons_of_neg (ne_true_of_eq_false h), versionSince?_cons h,
      Option.bind_eq_bind, Option.map_bind, Option.pure_def, Function.comp_def, Option.map_some]
    congr 1
    funext last
    congr 1
    funext t
    by_cases hv : p.answers .readVersion = true <;> by_cases hd : t.isDsp = true <;>
      simp only [updated, hv, hd, and_self, true_and, false_and, Bool.false_eq_true, ite_true,
        ite_false]
  · rw [described?_concat_of_ne ha]
    cases hm : described? packets address with
    | none => rfl
    | some m =>
      rw [Option.map_some, updated_of_ne]
      rwa [hardwareId_of_described? hm]

/-! ### The list of modules -/

/-- A module of a lower address comes before one of a higher. -/
abbrev Before (m n : DiscoveredModule) : Prop := m.hardwareId.raw < n.hardwareId.raw

theorem mem_insert_iff {m n : DiscoveredModule} {ms : List DiscoveredModule}
    (hs : ms.Pairwise Before) :
    n ∈ insert m ms ↔ n = m ∨ n ∈ ms ∧ n.hardwareId.raw ≠ m.hardwareId.raw := by
  induction ms with
  | nil => simp [insert]
  | cons k ks ih =>
    obtain ⟨hk, hks⟩ := List.pairwise_cons.mp hs
    rw [insert]
    split_ifs with hlt heq
    -- nothing behind a module of a higher address has the address
    · grind
    · grind
    · simp only [List.mem_cons, ih hks]
      grind

theorem pairwise_insert (m : DiscoveredModule) {ms : List DiscoveredModule}
    (hs : ms.Pairwise Before) : (insert m ms).Pairwise Before := by
  induction ms with
  | nil => exact List.pairwise_singleton _ _
  | cons k ks ih =>
    obtain ⟨hk, hks⟩ := List.pairwise_cons.mp hs
    rw [insert]
    split_ifs with hlt heq
    · exact List.pairwise_cons.mpr ⟨by grind, hs⟩
    · refine List.pairwise_cons.mpr ⟨fun n hn ↦ ?_, hks⟩
      rw [Before, heq]
      exact hk n hn
    · refine List.pairwise_cons.mpr ⟨fun n hn ↦ ?_, ih hks⟩
      rcases (mem_insert_iff hks).mp hn with rfl | ⟨hn, -⟩
      · exact UInt32.lt_of_le_of_ne (UInt32.not_lt.mp hlt) (Ne.symm heq)
      · exact hk n hn

/-- The modules are in order of their addresses and are those that the answers describe. -/
structure Lists (packets : List Packet) (d : Discovery) : Prop where
  sorted : d.modules.Pairwise Before
  mem_iff : ∀ m, m ∈ d.modules ↔ described? packets m.hardwareId.raw = some m

theorem lists_empty : Lists [] empty :=
  ⟨.nil, fun _ ↦ iff_of_false List.not_mem_nil (Option.some_ne_none _).symm⟩

variable {d : Discovery}

/-- A discovery answer puts its module into its place. -/
theorem Lists.discover (h : Lists packets d) {t : ModuleType} (hp : p.answers .discover = true)
    (ht : p.moduleType? = some t) :
    Lists (packets ++ [p]) ⟨insert (found p t) d.modules⟩ := by
  refine ⟨pairwise_insert _ h.sorted, fun m ↦ ?_⟩
  rw [mem_insert_iff h.sorted, h.mem_iff]
  by_cases ha : p.sourceAddress = m.hardwareId.raw
  · rw [← ha, described?_concat_discover hp ht, Option.some_inj]
    exact ⟨fun hm ↦ (hm.resolve_right fun hn ↦ hn.2 rfl).symm, fun hm ↦ .inl hm.symm⟩
  · rw [described?_concat_of_ne ha]
    refine ⟨fun hm ↦ (hm.resolve_left ?_).1, fun hm ↦ .inr ⟨hm, Ne.symm ha⟩⟩
    rintro rfl
    exact ha rfl

/-- A packet that is no discovery answer at most tells the version of a module in its place. -/
theorem Lists.updated (h : Lists packets d) (hp : p.answers .discover = false) :
    Lists (packets ++ [p]) ⟨d.modules.map (Discovery.updated p)⟩ := by
  refine ⟨h.sorted.map _ fun m n hmn ↦ ?_, fun m ↦ ?_⟩
  · rwa [Before, hardwareId_updated, hardwareId_updated]
  · rw [described?_concat_of_not_discover hp, List.mem_map, Option.map_eq_some_iff]
    constructor
    · rintro ⟨n, hn, rfl⟩
      rw [hardwareId_updated]
      exact ⟨n, (h.mem_iff n).mp hn, rfl⟩
    · rintro ⟨n, hn, rfl⟩
      rw [hardwareId_updated] at hn
      exact ⟨n, (h.mem_iff n).mpr hn, rfl⟩

/-! ### Packets taken one after the other -/

/-- A discovery answer lists its module; any other packet at most tells the version of a module. -/
theorem learn?_cases (d : Discovery) (p : Packet) :
    (∃ t, p.answers .discover = true ∧ p.moduleType? = some t ∧
      d.learn? p = some (⟨insert (found p t) d.modules⟩, followUps p t)) ∨
    (p.answers .discover = false ∧
      (d.learn? p = some (⟨d.modules.map (Discovery.updated p)⟩, []) ∨
        d.learn? p = none ∧ d.modules.map (Discovery.updated p) = d.modules)) := by
  have hnone (hv : p.answers .readVersion = false) :
      d.modules.map (Discovery.updated p) = d.modules :=
    (List.map_congr_left fun m _ ↦ ite_cond_eq_false _ _
      (eq_false fun hc ↦ ne_true_of_eq_false hv hc.1)).trans (List.map_id _)
  unfold learn?
  split
  · next t ht hc => exact .inl ⟨t, Packet.answers_iff.mpr ⟨⟨t, ht⟩, hc⟩, ht, rfl⟩
  · next t ht hc =>
    have hv : p.answers .readVersion = true := Packet.answers_iff.mpr ⟨⟨t, ht⟩, hc⟩
    have hf : Discovery.updated p = fun m ↦
        if m.hardwareId.raw = p.sourceAddress ∧ m.moduleType.isDsp = true then
          { m with version := DspVersion.parse? p.payload } else m := by
      funext m
      simp only [Discovery.updated, hv, true_and]
    exact .inr ⟨Packet.answers_of_answers hv (by decide), .inl (by rw [hf]; rfl)⟩
  · next hd hv =>
    have hno (command : Command) (hc : ∀ t, p.moduleType? = some t → p.command? = some command →
        False) : p.answers command = false :=
      Bool.eq_false_iff.mpr fun h ↦
        have ⟨⟨t, ht⟩, hcommand⟩ := Packet.answers_iff.mp h
        hc t ht hcommand
    exact .inr ⟨hno _ hd, .inr ⟨rfl, hnone (hno _ hv)⟩⟩

section Runs

variable {σ : Type} (sink : Sink σ) (s : σ)

/-- One more packet keeps the list in accord with the answers, whatever becomes of the requests that
are sent for it. -/
theorem Lists.handlePacket (h : Lists packets d) (p : Packet) :
    Lists (packets ++ [p]) (d.handlePacket sink p s).2.1 := by
  unfold Discovery.handlePacket
  rcases d.learn?_cases p with ⟨t, hp, ht, hl⟩ | ⟨hp, hl | ⟨hl, hsame⟩⟩ <;> rw [hl]
  · exact h.discover hp ht
  · exact h.updated hp
  · have hupdated := h.updated hp
    rwa [hsame] at hupdated

theorem Lists.handleAll (h : Lists packets d) (more : List Packet) :
    Lists (packets ++ more) (Discovery.handleAll sink more d s).1 := by
  induction more generalizing packets d s with
  | nil => rwa [List.append_nil]
  | cons p rest ih =>
    rw [List.append_cons]
    exact ih _ (h.handlePacket sink s p)

end Runs

/-- The answers of an address describe a module exactly if one of them is a discovery answer. -/
theorem isSome_described?_iff :
    (described? packets address).isSome = true ↔
      ∃ p ∈ packets, p.answers .discover = true ∧ p.sourceAddress = address := by
  have hfind : ((history address packets).find? (·.answers .discover)).isSome = true ↔
      ∃ p ∈ packets, p.answers .discover = true ∧ p.sourceAddress = address := by
    simp only [List.find?_isSome, history, List.mem_reverse, List.mem_filter, beq_iff_eq]
    exact ⟨fun ⟨p, ⟨hp, ha⟩, hd⟩ ↦ ⟨p, hp, hd, ha⟩, fun ⟨p, hp, hd, ha⟩ ↦ ⟨p, ⟨hp, ha⟩, hd⟩⟩
  rw [← hfind, described?]
  cases hlast : (history address packets).find? (·.answers .discover) with
  | none => rfl
  | some last =>
    obtain ⟨⟨t, ht⟩, -⟩ := Packet.answers_iff.mp (List.find?_some hlast)
    simp only [Option.bind_eq_bind, Option.bind_some, ht, Option.pure_def, Option.isSome_some]

theorem Lists.mem_addresses_iff (h : Lists packets d) :
    address ∈ d.modules.map (·.hardwareId.raw) ↔
      ∃ p ∈ packets, p.answers .discover = true ∧ p.sourceAddress = address := by
  rw [← isSome_described?_iff, List.mem_map, Option.isSome_iff_exists]
  constructor
  · rintro ⟨m, hm, rfl⟩
    exact ⟨m, (h.mem_iff m).mp hm⟩
  · rintro ⟨m, hm⟩
    have ha := hardwareId_of_described? hm
    exact ⟨m, (h.mem_iff m).mpr (ha ▸ hm), ha⟩

/-- Lists that say the same of every address are the same. -/
theorem Lists.modules_eq {others : List Packet} {e : Discovery} (h : Lists packets d)
    (he : Lists others e) (hsame : ∀ a, described? others a = described? packets a) :
    e.modules = d.modules := by
  have hirrefl : Std.Irrefl Before := ⟨fun m ↦ UInt32.lt_irrefl _⟩
  have hantisymm : Std.Antisymm Before := ⟨fun m n hmn hnm ↦ absurd hnm (UInt32.lt_asymm hmn)⟩
  refine he.sorted.eq_of_mem_iff h.sorted fun m ↦ ?_
  rw [he.mem_iff, h.mem_iff, hsame]

/-- After any packets, the modules found are in ascending order of their addresses, one for every
address that sent a discovery answer. Each is what the answers of its address describe, where only a
payload of four words is a version, and it is the one that these words say. The same packets in
another order give the same modules, as long as those of each address keep their order; what became
of the requests does not matter. -/
theorem handleAll_lists_described {σ τ : Type} (sink : Sink σ) (s : σ) (sink' : Sink τ) (s' : τ)
    (packets others : List Packet)
    (hown : ∀ address, others.filter (·.sourceAddress == address) =
      packets.filter (·.sourceAddress == address)) :
    let modules := (handleAll sink packets (start sink s).2.1 (start sink s).2.2).1.modules
    (modules.map (·.hardwareId.raw)).Pairwise (· < ·) ∧
    (∀ address, address ∈ modules.map (·.hardwareId.raw) ↔
      ∃ p ∈ packets, p.answers .discover = true ∧ p.sourceAddress = address) ∧
    (∀ m ∈ modules, described? packets m.hardwareId.raw = some m) ∧
    (∀ payload, (DspVersion.parse? payload = none ↔ payload.length ≠ 4 * 4) ∧
      ∀ v, DspVersion.parse? payload = some v ↔ v.Says payload) ∧
    (handleAll sink' others (start sink' s').2.1 (start sink' s').2.2).1.modules = modules := by
  intro modules
  have h : Lists packets _ := lists_empty.handleAll sink (start sink s).2.2 packets
  have h' : Lists others _ := lists_empty.handleAll sink' (start sink' s').2.2 others
  have hsame (a : UInt32) : described? others a = described? packets a := by
    rw [described?, described?, history, history, hown]
  exact ⟨h.sorted.map _ fun _ _ ↦ id, fun _ ↦ h.mem_addresses_iff, fun m ↦ (h.mem_iff m).mp,
    fun payload ↦ ⟨DspVersion.parse?_eq_none_iff payload, fun _ ↦ DspVersion.parse?_eq_some_iff⟩,
    h.modules_eq h' hsame⟩

/-- Two aggregators tell their versions, and one of them is then discovered again, with a submodule
in between or first: both times that one is found without a version, and the other with the one that
its words say. -/
theorem handleAll_lists_described_discovered_again :
    let answer (command : Command) (selector : UInt8) (flags source : UInt32)
        (payload : List UInt32) : Packet :=
      ⟨⟨0, source, CommandInfo.toRaw ⟨command, selector, CommandFlag.isCommand |||
        CommandFlag.isResponse ||| flags⟩, UInt32.ofNat (4 * payload.length), 0, 0⟩,
        Word.toByteList payload⟩
    let aggregator := answer .discover 0x30 0 0x15325501 [0x12]
    let version := answer .readVersion 0x30 0 0x15325501 [1, 2, 3, 4]
    let submodule := answer .discover 0x20 CommandFlag.isPassthru 0x15325501 [0x12]
    let second := answer .discover 0x30 0 0x15325502 []
    let secondVersion := answer .readVersion 0x30 0 0x15325502 [0x52190412, 0x63251231, 7, 8]
    let packets := [aggregator, version, second, submodule, secondVersion, aggregator]
    let others := [second, secondVersion, submodule, aggregator, version, aggregator]
    let idle : Recorder := ⟨[], some .stall⟩
    let modules (packets : List Packet) :=
      (handleAll Recorder.sink packets (start Recorder.sink idle).2.1
        (start Recorder.sink idle).2.2).1.modules
    (∀ address, others.filter (·.sourceAddress == address) =
      packets.filter (·.sourceAddress == address)) ∧
    modules packets = [⟨⟨0x12⟩, .roc, some ⟨0x15325501⟩, none⟩, ⟨⟨0x15325501⟩, .dsp, none, none⟩,
      ⟨⟨0x15325502⟩, .dsp, none, some ⟨⟨5, 2, 2019, 4, 12⟩, ⟨6, 3, 2025, 12, 31⟩, 7, 8⟩⟩] ∧
    modules others = modules packets := by
  intro answer aggregator version submodule second secondVersion packets others idle modules
  have hown (address : UInt32) : others.filter (·.sourceAddress == address) =
      packets.filter (·.sourceAddress == address) := by
    have ha : aggregator.sourceAddress = 0x15325501 := by decide +kernel
    have hv : version.sourceAddress = 0x15325501 := by decide +kernel
    have hs : submodule.sourceAddress = 0x12 := by decide +kernel
    have ht : second.sourceAddress = 0x15325502 := by decide +kernel
    have hw : secondVersion.sourceAddress = 0x15325502 := by decide +kernel
    by_cases h : address = 0x12
    · simp [others, packets, ha, hv, hs, ht, hw, h]
    · by_cases h' : address = 0x15325501
      · simp [others, packets, ha, hv, hs, ht, hw, h']
      · simp [others, packets, List.filter_cons, ha, hv, hs, ht, hw, Ne.symm h, Ne.symm h']
  obtain ⟨-, -, -, -, horder⟩ :=
    handleAll_lists_described Recorder.sink idle Recorder.sink idle packets others hown
  exact ⟨hown, by decide +kernel, horder⟩

end Discovery

end DetectorLink
