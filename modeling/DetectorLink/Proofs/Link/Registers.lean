import DetectorLink.Link.Basic
import DetectorLink.Proofs.Link.Medium
import Mathlib.Data.List.Induction

/-!
# Register accesses

A register window is memory of a size that the status block tells, mapped when it is first used. An
access is let through exactly if it is aligned and lies in a window that is there, so the driver is
never asked for a byte outside of a mapped window. The registers then behave like the memory they
are: a write changes its own bytes, a read shows the last words written, and what is refused changes
nothing. This holds for any accesses, one after the other.
-/

namespace DetectorLink

namespace Word

theorem toByteList_cons (w : UInt32) (ws : List UInt32) :
    toByteList (w :: ws) = toBytes w ++ toByteList ws := rfl

/-- Byte `j` of word `k`. -/
theorem getElem?_toByteList (ws : List UInt32) (k : Nat) {j : Nat} (hj : j < 4) :
    (toByteList ws)[4 * k + j]? = ws[k]?.bind fun w ↦ (toBytes w)[j]? := by
  induction ws generalizing k with
  | nil => rfl
  | cons w rest ih =>
    rw [toByteList_cons]
    cases k with
    | zero =>
      rw [List.getElem?_append_left (by rw [length_toBytes]; omega), Nat.mul_zero, Nat.zero_add]
      rfl
    | succ k =>
      rw [List.getElem?_append_right (by rw [length_toBytes]; omega), length_toBytes,
        List.getElem?_cons_succ, ← ih k]
      congr 1
      omega

end Word

/-! ### Windows as memory -/

/-- The bytes of the register windows. -/
abbrev RegisterBytes := (bar i : Nat) → UInt8

namespace RegisterBytes

/-- Bytes with those from `offset` on in one window replaced. -/
def overwrite (r : RegisterBytes) (bar offset : Nat) (data : Bytes) : RegisterBytes := fun b i ↦
  if b = bar ∧ offset ≤ i then (data[i - offset]?).getD (r b i) else r b i

/-- The word at an offset, least significant byte first. -/
def word (r : RegisterBytes) (bar offset : Nat) : UInt32 :=
  Word.ofBytes (r bar offset) (r bar (offset + 1)) (r bar (offset + 2)) (r bar (offset + 3))

variable (r : RegisterBytes) (bar offset : Nat)

theorem overwrite_nil : r.overwrite bar offset [] = r := by
  funext b i
  exact ite_self _

/-- Bytes may be replaced piece by piece. -/
theorem overwrite_append (front back : Bytes) : r.overwrite bar offset (front ++ back) =
    (r.overwrite bar offset front).overwrite bar (offset + front.length) back := by
  funext b i
  unfold overwrite
  by_cases hb : b = bar ∧ offset ≤ i
  · by_cases hi : offset + front.length ≤ i
    · have hback : i - offset - front.length = i - (offset + front.length) := by omega
      rw [ite_cond_eq_true _ _ (eq_true hb), ite_cond_eq_true _ _ (eq_true ⟨hb.1, hi⟩),
        List.getElem?_append_right (by omega), hback, ite_cond_eq_true _ _ (eq_true hb),
        List.getElem?_eq_none (l := front) (by omega), Option.getD_none]
    · rw [ite_cond_eq_true _ _ (eq_true hb), ite_cond_eq_false _ _ (eq_false fun h ↦ hi h.2),
        ite_cond_eq_true _ _ (eq_true hb), List.getElem?_append_left (by omega)]
  · have hb' : ¬(b = bar ∧ offset + front.length ≤ i) := fun h ↦ hb ⟨h.1, by omega⟩
    rw [ite_cond_eq_false _ _ (eq_false hb), ite_cond_eq_false _ _ (eq_false hb'),
      ite_cond_eq_false _ _ (eq_false hb)]

/-- A byte that is not replaced is kept. -/
theorem overwrite_of_not {data : Bytes} {b i : Nat}
    (h : ¬(b = bar ∧ offset ≤ i ∧ i < offset + data.length)) :
    r.overwrite bar offset data b i = r b i := by
  unfold overwrite
  split
  · next hb =>
    rw [List.getElem?_eq_none, Option.getD_none]
    exact Nat.not_lt.mp fun hi ↦ h ⟨hb.1, hb.2, by omega⟩
  · rfl

/-- A word is the same where its bytes are. -/
theorem word_congr {s : RegisterBytes} {size : Nat} (h : ∀ i < size, r bar i = s bar i)
    (hle : offset + 4 ≤ size) : r.word bar offset = s.word bar offset := by
  rw [word, word, h _ (by omega), h _ (by omega), h _ (by omega), h _ (by omega)]

end RegisterBytes

/-- How the register windows of a driver are seen. -/
structure RegisterView (δ : Type) where
  /-- Sizes of the windows. -/
  size : (bar : Nat) → Nat
  /-- The bytes of the windows. -/
  bytes : δ → RegisterBytes
  /-- A window is mapped. -/
  mapped : δ → (bar : Nat) → Prop
  /-- Status and mapping calls succeed. -/
  ready : δ → Prop

namespace RegisterView

variable {δ : Type} (v : RegisterView δ)

/-- A driver goes on being ready, with the windows mapped that were mapped before, and the windows
hold the bytes `r`. -/
structure Becomes (d e : δ) (r : RegisterBytes) : Prop where
  ready : v.ready e
  mapped : ∀ bar, v.mapped d bar → v.mapped e bar
  bytes : ∀ bar < barCount, ∀ i < v.size bar, v.bytes e bar i = r bar i

variable {v} {d e f : δ} {r : RegisterBytes}

theorem Becomes.refl (h : v.ready d) : v.Becomes d d (v.bytes d) :=
  ⟨h, fun _ ↦ id, fun _ _ _ _ ↦ rfl⟩

/-- Registers that are left alone stay as they became. -/
theorem Becomes.trans (h : v.Becomes d e r) (h' : v.Becomes e f (v.bytes e)) :
    v.Becomes d f r :=
  ⟨h'.ready, fun bar hm ↦ h'.mapped bar (h.mapped bar hm),
    fun bar hb i hi ↦ (h'.bytes bar hb i hi).trans (h.bytes bar hb i hi)⟩

/-- Bytes are replaced in what the registers became. -/
theorem Becomes.overwrite {bar offset : Nat} {data : Bytes} (h : v.Becomes d e r)
    (h' : v.Becomes e f ((v.bytes e).overwrite bar offset data)) :
    v.Becomes d f (r.overwrite bar offset data) := by
  refine ⟨h'.ready, fun bar hm ↦ h'.mapped bar (h.mapped bar hm), fun b hb i hi ↦ ?_⟩
  rw [h'.bytes b hb i hi, RegisterBytes.overwrite, RegisterBytes.overwrite, h.bytes b hb i hi]

variable (v)

/-- A driver whose windows are memory of the sizes in its status block. Status and mapping calls
succeed and change no register. Nothing is said of windows that are not mapped, nor of bytes outside
of a window. -/
structure Lawful [Driver δ] : Prop where
  status : ∀ d, v.ready d → ∃ answer block e,
    Driver.readAt DriverCommand.getStatus StatusBlock.byteCount d = (.ok answer, e) ∧
    Hardware.checkStatus (.ok answer) = .ok block ∧
    (∀ bar < barCount, (block.bar bar).toNat = v.size bar) ∧ v.Becomes d e (v.bytes d)
  map : ∀ d bar, v.ready d → bar < barCount → v.size bar ≠ 0 → ∃ e,
    Driver.mapBar bar (v.size bar) d = (.ok (), e) ∧ v.mapped e bar ∧ v.Becomes d e (v.bytes d)
  load : ∀ d bar offset n, v.mapped d bar → offset + n ≤ v.size bar →
    Driver.loadBar bar offset n d = (List.range n).map fun i ↦ v.bytes d bar (offset + i)
  store : ∀ d bar offset data, v.ready d → v.mapped d bar → offset + data.length ≤ v.size bar →
    v.Becomes d (Driver.storeBar bar offset data d) ((v.bytes d).overwrite bar offset data)

/-- An adapter knows the sizes of the windows that it has mapped. -/
structure Serves (s : Hardware × δ) : Prop where
  ready : v.ready s.2
  bars : ∀ bar size, s.1.bars.lookup bar = some size →
    size = v.size bar ∧ size ≠ 0 ∧ v.mapped s.2 bar

variable {v}

/-- What leaves the windows mapped leaves an adapter in order. -/
theorem Serves.of_becomes {h : Hardware} (hs : v.Serves (h, d)) (hd : v.Becomes d e r) :
    v.Serves (h, e) :=
  ⟨hd.ready, fun bar size hl ↦
    have ⟨hsize, hne, hm⟩ := hs.bars bar size hl
    ⟨hsize, hne, hd.mapped bar hm⟩⟩

namespace Lawful

variable [Driver δ]

/-- Sizes are words. -/
theorem size_lt (hv : v.Lawful) (hr : v.ready d) {bar : Nat} (hb : bar < barCount) :
    v.size bar < Word.offsetBound := by
  obtain ⟨_, block, _, -, -, hsize, -⟩ := hv.status d hr
  rw [← hsize bar hb]
  exact Nat.lt_trans (block.bar bar).toNat_lt (by decide)

/-- A window that is there is mapped when its size is asked for. -/
theorem exec_barSize (hv : v.Lawful) {s : Hardware × δ} (hs : v.Serves s) {bar : Nat}
    (hb : bar < barCount) :
    ∃ t, (Hardware.barSize bar).exec s =
        (if v.size bar = 0 then .error (.unsupported s!"BAR{bar} not present")
          else .ok (v.size bar), t) ∧
      v.Serves t ∧ (v.size bar ≠ 0 → v.mapped t.2 bar) ∧
      v.Becomes s.2 t.2 (v.bytes s.2) := by
  obtain ⟨h, d⟩ := s
  have hget : Hardware.get.exec (h, d) = (.ok h, (h, d)) := rfl
  unfold Hardware.barSize
  rw [LinkM.exec_bind_ok _ hget]
  cases hl : h.bars.lookup bar with
  | some size =>
    obtain ⟨rfl, hne, hm⟩ := hs.bars bar size hl
    rw [ite_cond_eq_false _ _ (eq_false hne)]
    exact ⟨(h, d), rfl, hs, fun _ ↦ hm, .refl hs.ready⟩
  | none =>
    obtain ⟨answer, block, e, hread, hcheck, hsize, he⟩ := hv.status d hs.ready
    have hstatus : Hardware.readStatus.exec (h, d) = (.ok block, (h, e)) := by
      rw [Hardware.exec_readStatus, hread, hcheck]
    rw [LinkM.exec_bind_ok _ hstatus]
    dsimp only
    rw [hsize bar hb]
    by_cases hne : v.size bar = 0
    · rw [ite_cond_eq_true _ _ (eq_true hne), ite_cond_eq_true _ _ (eq_true hne)]
      exact ⟨(h, e), rfl, hs.of_becomes he, fun hsome ↦ absurd hne hsome, he⟩
    · rw [ite_cond_eq_false _ _ (eq_false hne), ite_cond_eq_false _ _ (eq_false hne)]
      obtain ⟨f, hmap, hm, hf⟩ := hv.map e bar he.ready hb hne
      rw [LinkM.exec_bind_ok (a := ()) (t := (h, f)) _ (by
        simp only [Hardware.withDriver, LinkM.exec_ofFun, hmap]
        rfl)]
      have hbecomes := he.trans hf
      refine ⟨_, rfl, ⟨hf.ready, fun other size hlookup ↦ ?_⟩, fun _ ↦ hm, hbecomes⟩
      by_cases hsame : other = bar
      · subst hsame
        obtain rfl : v.size other = size := by simpa using hlookup
        exact ⟨rfl, hne, hm⟩
      · exact (hs.of_becomes hbecomes).bars other size (by
          simpa [List.lookup_cons, beq_false_of_ne hsame] using hlookup)

/-- Words are loaded where they lie. -/
theorem loadWords_eq (hv : v.Lawful) {bar offset count : Nat} (hm : v.mapped d bar)
    (hf : offset + 4 * count ≤ v.size bar) :
    Hardware.loadWords bar offset count d =
      (List.range count).map fun i ↦ (v.bytes d).word bar (offset + 4 * i) := by
  have hword (i : Nat) (hi : i ∈ List.range count) :
      Word.ofByteList (Driver.loadBar bar (offset + 4 * i) 4 d) =
        [(v.bytes d).word bar (offset + 4 * i)] := by
    have hi : i < count := List.mem_range.mp hi
    rw [hv.load d bar _ 4 hm (by omega)]
    rfl
  rw [Hardware.loadWords, List.flatMap_def, List.map_congr_left hword, ← List.flatMap_def,
    ← List.map_eq_flatMap]

/-- Words are stored one after the other, least significant byte first. -/
theorem storeWords_becomes (hv : v.Lawful) {bar offset : Nat} {words : List UInt32}
    (hr : v.ready d) (hm : v.mapped d bar) (hf : offset + 4 * words.length ≤ v.size bar) :
    v.Becomes d (Hardware.storeWords bar offset words d)
      ((v.bytes d).overwrite bar offset (Word.toByteList words)) := by
  induction words generalizing offset d with
  | nil =>
    have hkept : v.Becomes d d ((v.bytes d).overwrite bar offset []) := by
      rw [RegisterBytes.overwrite_nil]
      exact .refl hr
    exact hkept
  | cons w rest ih =>
    rw [List.length_cons] at hf
    have hfirst := hv.store d bar offset (Word.toBytes w) hr hm (by rw [Word.length_toBytes]; omega)
    have hrest := @ih _ (offset + 4) hfirst.ready (hfirst.mapped bar hm) (by omega)
    rw [Word.toByteList_cons, RegisterBytes.overwrite_append]
    exact hfirst.overwrite hrest

end Lawful

end RegisterView

/-! ### Accesses -/

/-- An access to registers. -/
inductive RegisterAccess where
  /-- Read words. -/
  | read (bar offset count : Nat)
  /-- Write words. -/
  | write (bar offset : Nat) (words : List UInt32)
  deriving DecidableEq, Repr

namespace RegisterAccess

/-- The window. -/
def bar : RegisterAccess → Nat
  | read bar _ _ => bar
  | write bar _ _ => bar

/-- The offset of the first byte. -/
def offset : RegisterAccess → Nat
  | read _ offset _ => offset
  | write _ offset _ => offset

/-- Number of words. -/
def count : RegisterAccess → Nat
  | read _ _ count => count
  | write _ _ words => words.length

variable {δ : Type} [Driver δ]

/-- Access registers through a link. -/
def perform : RegisterAccess → LinkIO δ (List UInt32)
  | read bar offset count => Link.registerRead bar offset count
  | write bar offset words => do
    Link.registerWrite bar offset words
    return []

/-- A link and its host after accesses, one after the other. -/
def performAll (accesses : List RegisterAccess) (s : Link × Host δ) : Link × Host δ :=
  accesses.foldl (fun s a ↦ (a.perform.exec s).2) s

/-- An access is aligned and lies in a window that is there. -/
def Fits (size : Nat → Nat) (a : RegisterAccess) : Prop :=
  a.offset % 4 = 0 ∧ a.bar < barCount ∧ size a.bar ≠ 0 ∧ a.offset + 4 * a.count ≤ size a.bar

instance (size : Nat → Nat) (a : RegisterAccess) : Decidable (a.Fits size) := by
  unfold Fits
  infer_instance

/-- The error of an access that does not fit. -/
def refusal (size : Nat → Nat) (a : RegisterAccess) : LinkError :=
  if a.offset % 4 ≠ 0 then
    .invalidArgument s!"register offset {Numeral.marked 1 a.offset} is not 4-byte aligned"
  else if barCount ≤ a.bar then .unsupported s!"BAR{a.bar}"
  else if size a.bar = 0 then .unsupported s!"BAR{a.bar} not present"
  else .overflow

/-- What an access answers if the registers hold these words. -/
def answer (a : RegisterAccess) (word : (bar offset : Nat) → UInt32) : List UInt32 :=
  match a with
  | read bar offset count => (List.range count).map fun i ↦ word bar (offset + 4 * i)
  | write _ _ _ => []

/-- The bytes of the windows after an access. -/
def effect (size : Nat → Nat) (a : RegisterAccess) (r : RegisterBytes) : RegisterBytes :=
  match a with
  | read _ _ _ => r
  | write bar offset words =>
    if a.Fits size then r.overwrite bar offset (Word.toByteList words) else r

/-- The word that an access writes to an offset. -/
def written? (size : Nat → Nat) (a : RegisterAccess) (bar offset : Nat) : Option UInt32 :=
  match a with
  | read _ _ _ => none
  | write b o words =>
    if a.Fits size ∧ b = bar ∧ o ≤ offset then words[(offset - o) / 4]? else none

/-- The word that was last written to an offset. -/
def lastWritten? (size : Nat → Nat) (accesses : List RegisterAccess) (bar offset : Nat) :
    Option UInt32 :=
  accesses.reverse.findSome? (·.written? size bar offset)

/-! ### One access -/

variable {v : RegisterView δ} {size : Nat → Nat}

/-- What lies in a window does not reach beyond 64 bits. -/
theorem isNone_registerEnd?_iff {offset count size : Nat} (hs : size < Word.offsetBound) :
    (Hardware.registerEnd? offset count size).isNone = true ↔ ¬offset + 4 * count ≤ size := by
  unfold Hardware.registerEnd? Word.start?
  by_cases hc : 4 * count < Word.offsetBound
  · rw [ite_cond_eq_true _ _ (eq_true hc), Option.bind_eq_bind, Option.bind_some]
    by_cases hstop : offset + 4 * count ≤ size
    · have hfits : offset + 4 * count < Word.offsetBound ∧ offset + 4 * count ≤ size :=
        ⟨Nat.lt_of_le_of_lt hstop hs, hstop⟩
      rw [ite_cond_eq_true _ _ (eq_true hfits)]
      exact iff_of_false Bool.false_ne_true (not_not_intro hstop)
    · rw [ite_cond_eq_false _ _ (eq_false fun h ↦ hstop h.2)]
      exact iff_of_true rfl hstop
  · rw [ite_cond_eq_false _ _ (eq_false hc)]
    exact iff_of_true rfl (by omega)

/-- An aligned access is let through exactly if it fits. -/
theorem exec_admitAccess (hv : v.Lawful) {s : Hardware × δ} (hs : v.Serves s) {a : RegisterAccess}
    (ha : a.offset % 4 = 0) :
    ∃ t, (Hardware.admitAccess a.bar a.offset a.count).exec s =
        (if a.Fits v.size then .ok () else .error (a.refusal v.size), t) ∧
      v.Serves t ∧ (a.Fits v.size → v.mapped t.2 a.bar) ∧ v.Becomes s.2 t.2 (v.bytes s.2) := by
  unfold Hardware.admitAccess refusal
  rw [ite_cond_eq_false _ _ (eq_false (not_not_intro ha))]
  by_cases hb : barCount ≤ a.bar
  · have hn : ¬a.Fits v.size := fun hf ↦ Nat.not_lt.mpr hb hf.2.1
    rw [ite_cond_eq_true _ _ (eq_true hb), ite_cond_eq_false _ _ (eq_false hn),
      ite_cond_eq_true _ _ (eq_true hb)]
    exact ⟨s, rfl, hs, fun hf ↦ absurd hf hn, .refl hs.ready⟩
  · have hlt : a.bar < barCount := Nat.not_le.mp hb
    obtain ⟨t, hsize, ht, hm, hbecomes⟩ := hv.exec_barSize hs hlt
    rw [ite_cond_eq_false _ _ (eq_false hb), ite_cond_eq_false _ _ (eq_false hb)]
    refine ⟨t, ?_, ht, fun hf ↦ hm hf.2.2.1, hbecomes⟩
    by_cases hz : v.size a.bar = 0
    · have hn : ¬a.Fits v.size := fun hf ↦ hf.2.2.1 hz
      rw [ite_cond_eq_true _ _ (eq_true hz)] at hsize
      rw [LinkM.exec_bind_error _ hsize, ite_cond_eq_false _ _ (eq_false hn),
        ite_cond_eq_true _ _ (eq_true hz)]
    · have hfits : a.Fits v.size ↔ a.offset + 4 * a.count ≤ v.size a.bar :=
        ⟨fun hf ↦ hf.2.2.2, fun hstop ↦ ⟨ha, hlt, hz, hstop⟩⟩
      have hnone : (Hardware.registerEnd? a.offset a.count (v.size a.bar)).isNone = true ↔
          ¬a.Fits v.size := by
        rw [hfits]
        exact isNone_registerEnd?_iff (hv.size_lt hs.ready hlt)
      rw [ite_cond_eq_false _ _ (eq_false hz)] at hsize
      rw [LinkM.exec_bind_ok _ hsize, ite_cond_eq_false _ _ (eq_false hz)]
      by_cases hf : a.Fits v.size
      · rw [ite_cond_eq_true _ _ (eq_true hf),
          ite_cond_eq_false _ _ (eq_false fun h ↦ hnone.mp h hf)]
        rfl
      · rw [ite_cond_eq_false _ _ (eq_false hf), ite_cond_eq_true _ _ (eq_true (hnone.mpr hf))]
        rfl

/-- A link refuses what no board allows, before it asks its adapter. -/
theorem checkRegister_eq (size : Nat → Nat) (a : RegisterAccess) :
    Link.checkRegister a.bar a.offset =
      if a.offset % 4 = 0 ∧ a.bar < barCount then .ok () else .error (a.refusal size) := by
  unfold Link.checkRegister refusal
  by_cases ha : a.offset % 4 = 0
  · by_cases hb : barCount ≤ a.bar
    · simp [ha, hb]
    · simp [ha, hb]
  · simp [ha]

/-- A link has an adapter that is in order. -/
def Serves (v : RegisterView δ) (s : Link × Host δ) : Prop :=
  ∃ h, s.1.medium = .hardware h ∧ v.Serves (h, s.2.driver)

/-- What is done after an access is let through is done to a driver that has mapped the window; what
is refused changes no register. -/
theorem exec_guarded (hv : v.Lawful) {s : Link × Host δ} (hs : Serves v s) (a : RegisterAccess)
    {α : Type} (f : HardwareM δ α) (pipe : PipeM δ α) (socket : SocketM α) :
    let r := (do
      LinkM.lift (Link.checkRegister a.bar a.offset)
      Link.onMedium (do Hardware.admitAccess a.bar a.offset a.count; f) pipe socket).exec s
    (¬a.Fits v.size ∧ r.1 = .error (a.refusal v.size) ∧ Serves v r.2 ∧
      v.Becomes s.2.driver r.2.2.driver (v.bytes s.2.driver)) ∨
    (a.Fits v.size ∧ ∃ h e, v.Serves (h, e) ∧ v.mapped e a.bar ∧
      v.Becomes s.2.driver e (v.bytes s.2.driver) ∧
      r = ((f.exec (h, e)).1, ({ s.1 with medium := .hardware (f.exec (h, e)).2.1 },
        { s.2 with driver := (f.exec (h, e)).2.2 }))) := by
  intro r
  obtain ⟨link, host⟩ := s
  obtain ⟨h, hm, hserves⟩ := hs
  by_cases hc : a.offset % 4 = 0 ∧ a.bar < barCount
  · have hcheck : (LinkM.lift (Link.checkRegister a.bar a.offset)).exec (link, host) =
        (.ok (), (link, host)) := by
      rw [checkRegister_eq v.size, ite_cond_eq_true _ _ (eq_true hc)]
      rfl
    obtain ⟨⟨h', e⟩, hadmit, ht, hmapped, hbecomes⟩ := exec_admitAccess hv hserves hc.1
    have hr : r = _ := (LinkM.exec_bind_ok (fun _ ↦ Link.onMedium (do
      Hardware.admitAccess a.bar a.offset a.count; f) pipe socket) hcheck).trans
      (Link.exec_onMedium_hardware _ _ _ _ hm)
    by_cases hf : a.Fits v.size
    · rw [ite_cond_eq_true _ _ (eq_true hf)] at hadmit
      rw [LinkM.exec_bind_ok _ hadmit] at hr
      exact .inr ⟨hf, h', e, ht, hmapped hf, hbecomes, hr⟩
    · rw [ite_cond_eq_false _ _ (eq_false hf)] at hadmit
      rw [LinkM.exec_bind_error _ hadmit] at hr
      refine .inl ⟨hf, congrArg Prod.fst hr, ?_, ?_⟩
      · rw [hr]
        exact ⟨h', rfl, ht⟩
      · rw [hr]
        exact hbecomes
  · have hcheck : (LinkM.lift (Link.checkRegister a.bar a.offset)).exec (link, host) =
        (.error (a.refusal v.size), (link, host)) := by
      rw [checkRegister_eq v.size, ite_cond_eq_false _ _ (eq_false hc)]
      rfl
    have hr : r = (.error (a.refusal v.size), (link, host)) := LinkM.exec_bind_error _ hcheck
    rw [hr]
    exact .inl ⟨fun hf ↦ hc ⟨hf.1, hf.2.1⟩, rfl, ⟨h, hm, hserves⟩, .refl hserves.ready⟩

/-- One access, whatever was done before: it succeeds exactly if it fits, and has its effect. -/
theorem exec_perform (hv : v.Lawful) {s : Link × Host δ} (hs : Serves v s) (a : RegisterAccess) :
    (a.perform.exec s).1 =
        (if a.Fits v.size then .ok (a.answer (v.bytes s.2.driver).word)
          else .error (a.refusal v.size)) ∧
      Serves v (a.perform.exec s).2 ∧
      v.Becomes s.2.driver (a.perform.exec s).2.2.driver
        (a.effect v.size (v.bytes s.2.driver)) := by
  cases a with
  | read bar offset count =>
    rcases exec_guarded hv hs (.read bar offset count) (Hardware.withDriver fun d ↦
      (.ok (Hardware.loadWords bar offset count d), d)) _ _ with
      ⟨hf, herror, hserves, hkept⟩ | ⟨hf, h, e, hserves, hm, hkept, hr⟩
    · rw [ite_cond_eq_false _ _ (eq_false hf)]
      exact ⟨herror, hserves, hkept⟩
    · have hr : (perform (.read bar offset count)).exec s =
          (.ok (Hardware.loadWords bar offset count e),
            ({ s.1 with medium := .hardware h }, { s.2 with driver := e })) := hr
      have hwords : Hardware.loadWords bar offset count e =
          answer (.read bar offset count) (v.bytes s.2.driver).word := by
        refine (hv.loadWords_eq hm hf.2.2.2).trans (List.map_congr_left fun i hi ↦ ?_)
        refine RegisterBytes.word_congr _ _ _ (hkept.bytes bar hf.2.1) ?_
        have hend : offset + 4 * count ≤ v.size bar := hf.2.2.2
        have hi : i < count := List.mem_range.mp hi
        show offset + 4 * i + 4 ≤ v.size bar
        omega
      rw [ite_cond_eq_true _ _ (eq_true hf), hr, hwords]
      exact ⟨rfl, ⟨h, rfl, hserves⟩, hkept⟩
  | write bar offset words =>
    have hperform : (perform (.write bar offset words)).exec s =
        Prod.map (·.map fun _ ↦ []) id ((Link.registerWrite bar offset words).exec s) := by
      rw [perform, LinkM.exec_bind]
      rcases (Link.registerWrite bar offset words).exec s with ⟨_ | _, _⟩ <;> rfl
    rcases exec_guarded hv hs (.write bar offset words) (Hardware.withDriver fun d ↦
      (.ok (), Hardware.storeWords bar offset words d)) _ _ with
      ⟨hf, herror, hserves, hkept⟩ | ⟨hf, h, e, hserves, hm, hkept, hr⟩
    · have herror : ((Link.registerWrite bar offset words).exec s).1 =
          .error (refusal v.size (.write bar offset words)) := herror
      rw [hperform, ite_cond_eq_false _ _ (eq_false hf), effect,
        ite_cond_eq_false _ _ (eq_false hf), Prod.map_fst, herror]
      exact ⟨rfl, hserves, hkept⟩
    · have hr : (Link.registerWrite bar offset words).exec s =
          (.ok (), ({ s.1 with medium := .hardware h },
            { s.2 with driver := Hardware.storeWords bar offset words e })) := hr
      have hstored := hv.storeWords_becomes hserves.ready hm hf.2.2.2
      rw [hperform, hr, ite_cond_eq_true _ _ (eq_true hf), effect,
        ite_cond_eq_true _ _ (eq_true hf)]
      exact ⟨rfl, ⟨h, rfl, hserves.of_becomes hstored⟩, hkept.overwrite hstored⟩

/-! ### Any accesses -/

/-- A byte of an aligned word after aligned words were written. -/
theorem overwrite_toByteList (r : RegisterBytes) {b o bar offset j : Nat} (words : List UInt32)
    (ho : o % 4 = 0) (hoffset : offset % 4 = 0) (hj : j < 4) :
    r.overwrite b o (Word.toByteList words) bar (offset + j) =
      ((if b = bar ∧ o ≤ offset then words[(offset - o) / 4]? else none).bind
        fun w ↦ (Word.toBytes w)[j]?).getD (r bar (offset + j)) := by
  unfold RegisterBytes.overwrite
  by_cases h : b = bar ∧ o ≤ offset
  · have hindex : offset + j - o = 4 * ((offset - o) / 4) + j := by omega
    rw [ite_cond_eq_true _ _ (eq_true ⟨h.1.symm, by omega⟩), ite_cond_eq_true _ _ (eq_true h),
      hindex, Word.getElem?_toByteList _ _ hj]
  · -- words are aligned, so a word that begins before the first one written ends before it
    have hbefore : ¬(bar = b ∧ o ≤ offset + j) := fun hc ↦ h ⟨hc.1.symm, by omega⟩
    rw [ite_cond_eq_false _ _ (eq_false hbefore), ite_cond_eq_false _ _ (eq_false h)]
    rfl

variable (size) in
/-- An access changes a word only if it writes it. -/
theorem word_effect (a : RegisterAccess) (r : RegisterBytes) {bar offset : Nat}
    (ho : offset % 4 = 0) : (a.effect size r).word bar offset =
      (a.written? size bar offset).getD (r.word bar offset) := by
  cases a with
  | read b o count => rfl
  | write b o words =>
    by_cases hf : Fits size (.write b o words)
    · have hsame : (Fits size (.write b o words) ∧ b = bar ∧ o ≤ offset) ↔ b = bar ∧ o ≤ offset :=
        ⟨fun h ↦ h.2, fun h ↦ ⟨hf, h⟩⟩
      have hbyte (j : Nat) (hj : j < 4) :
          r.overwrite b o (Word.toByteList words) bar (offset + j) = _ :=
        overwrite_toByteList r words hf.1 ho hj
      have hzero := hbyte 0 (by decide)
      rw [Nat.add_zero] at hzero
      rw [effect, written?, ite_cond_eq_true _ _ (eq_true hf), RegisterBytes.word, hzero,
        hbyte 1 (by decide), hbyte 2 (by decide), hbyte 3 (by decide)]
      simp only [hsame]
      cases (if b = bar ∧ o ≤ offset then words[(offset - o) / 4]? else none) with
      | none => rfl
      | some w => exact Word.ofBytes_toBytes w
    · rw [effect, written?, ite_cond_eq_false _ _ (eq_false hf),
        ite_cond_eq_false _ _ (eq_false fun h ↦ hf h.1)]
      rfl

theorem lastWritten?_concat (size : Nat → Nat) (accesses : List RegisterAccess)
    (a : RegisterAccess) (bar offset : Nat) :
    lastWritten? size (accesses ++ [a]) bar offset =
      (a.written? size bar offset).or (lastWritten? size accesses bar offset) := by
  rw [lastWritten?, List.reverse_concat, List.findSome?_cons]
  cases a.written? size bar offset <;> rfl

theorem performAll_concat (accesses : List RegisterAccess) (a : RegisterAccess)
    (s : Link × Host δ) :
    performAll (accesses ++ [a]) s = (a.perform.exec (performAll accesses s)).2 :=
  List.foldl_append

/-- After any accesses an adapter is in order, and each word is the one last written to it. -/
theorem performAll_serves (hv : v.Lawful) {s : Link × Host δ} (hs : Serves v s)
    (accesses : List RegisterAccess) :
    Serves v (performAll accesses s) ∧
      ∀ bar < barCount, ∀ offset, offset % 4 = 0 → offset + 4 ≤ v.size bar →
        (v.bytes (performAll accesses s).2.driver).word bar offset =
          (lastWritten? v.size accesses bar offset).getD
            ((v.bytes s.2.driver).word bar offset) := by
  induction accesses using List.reverseRecOn with
  | nil => exact ⟨hs, fun _ _ _ _ _ ↦ rfl⟩
  | append_singleton accesses a ih =>
    obtain ⟨hserves, hwords⟩ := ih
    obtain ⟨-, hafter, hbecomes⟩ := exec_perform hv hserves a
    rw [performAll_concat]
    refine ⟨hafter, fun bar hb offset ho hle ↦ ?_⟩
    have hword := RegisterBytes.word_congr _ bar offset (hbecomes.bytes bar hb) hle
    rw [hword, word_effect v.size a _ ho, hwords bar hb offset ho hle, lastWritten?_concat,
      Option.getD_or]

/-- After any accesses through a link whose adapter had mapped nothing yet, another one succeeds
exactly if it is aligned and lies in a window that is there, whatever its offset and number of
words are; otherwise it is refused for the first of these reasons. A read answers with the words
last written, or with what was there before. A write changes its own bytes, least significant byte
of each word first; nothing else changes a register. -/
theorem perform_exact (hv : v.Lawful) {link : Link} {host : Host δ} {adapter : Hardware}
    (hl : link.medium = .hardware adapter) (hb : adapter.bars = []) (hr : v.ready host.driver)
    (history : List RegisterAccess) (next : RegisterAccess) :
    let s := performAll history (link, host)
    let after := next.perform.exec s
    let last (bar offset : Nat) := (lastWritten? v.size history bar offset).getD
      ((v.bytes host.driver).word bar offset)
    after.1 = (if next.Fits v.size then .ok (next.answer last)
      else .error (next.refusal v.size)) ∧
    ∀ bar < barCount, ∀ i < v.size bar,
      v.bytes after.2.2.driver bar i = next.effect v.size (v.bytes s.2.driver) bar i := by
  intro s after last
  have hserves : Serves v (link, host) := ⟨adapter, hl, hr, fun bar size hlookup ↦ by
    rw [hb] at hlookup
    contradiction⟩
  obtain ⟨hs, hwords⟩ := performAll_serves hv hserves history
  obtain ⟨hresult, -, hbecomes⟩ := exec_perform hv hs next
  refine ⟨hresult.trans ?_, hbecomes.bytes⟩
  by_cases hf : next.Fits v.size
  · rw [ite_cond_eq_true _ _ (eq_true hf), ite_cond_eq_true _ _ (eq_true hf)]
    cases next with
    | write => rfl
    | read bar offset count =>
      obtain ⟨ho, hbar, -, hend⟩ := hf
      refine congrArg Except.ok (List.map_congr_left fun i hi ↦ ?_)
      have hi : i < count := List.mem_range.mp hi
      have ho : offset % 4 = 0 := ho
      have hend : offset + 4 * count ≤ v.size bar := hend
      exact hwords bar hbar _ (by omega) (by omega)
  · rw [ite_cond_eq_false _ _ (eq_false hf), ite_cond_eq_false _ _ (eq_false hf)]

end RegisterAccess

/-! ### A board in good order -/

theorem Memory.byte_store (m : Memory) (address : Nat) (data : Bytes) (a : Nat) :
    (m.store address data).byte a =
      if address ≤ a then (data[a - address]?).getD (m.byte a) else m.byte a := by
  show (if a < address then _ else ((data.toArray)[a - address]?).getD _) = _
  rw [List.getElem?_toArray]
  split_ifs with hlt hle hle
  · omega
  · rfl
  · rfl
  · omega

namespace Board

/-- The register windows of a board without faults whose status is told by a block. -/
def registers (block : StatusBlock) : RegisterView Board where
  size bar := (block.bar bar).toNat
  bytes b bar i := b.memory.byte (barAddress bar + i)
  mapped _ bar := bar < barCount
  ready b := b.fault = none ∧ b.status = Word.toByteList block.words

/-- A status block is accepted as it is told. -/
theorem checkStatus_words {block : StatusBlock} (hl : block.layout = StatusBlock.supportedLayout) :
    Hardware.checkStatus (.ok (Word.toByteList block.words)) = .ok block := by
  have hlength : (Word.toByteList block.words).length = StatusBlock.byteCount := rfl
  have hblock : StatusBlock.ofWords? block.words = some block := rfl
  simp only [Hardware.checkStatus, Except.mapError, bind, Except.bind, hlength, ne_eq,
    not_true_eq_false, ite_false, Word.ofByteList_toByteList, hblock, hl, ite_true]

/-- Windows that do not exceed a page lie apart. -/
theorem lawful_registers {block : StatusBlock} (hl : block.layout = StatusBlock.supportedLayout)
    (hsize : ∀ bar < barCount, (block.bar bar).toNat ≤ pageSize) :
    (registers block).Lawful where
  status := by
    rintro b ⟨hf, hs⟩
    refine ⟨b.status, block, b, ?_, ?_, fun _ _ ↦ rfl, .refl ⟨hf, hs⟩⟩
    · have hlength : b.status.length ≤ StatusBlock.byteCount := by
        rw [hs, Word.length_toByteList]
        exact Nat.le_refl _
      show readAt DriverCommand.getStatus StatusBlock.byteCount b = _
      rw [readAt, takeFault, hf]
      exact congrArg (fun bytes ↦ (Except.ok bytes, b)) (List.take_of_length_le hlength)
    · rw [hs]
      exact checkStatus_words hl
  map _ _ hr hb _ := ⟨_, rfl, hb, .refl hr⟩
  load b bar offset n _ _ := by
    show (List.range n).map (fun i ↦ b.memory.byte (barAddress bar + offset + i)) = _
    simp only [Nat.add_assoc]
    rfl
  store := by
    intro b bar offset data hr hb hend
    refine ⟨hr, fun _ ↦ id, fun other ho i hi ↦ ?_⟩
    have hi : i < pageSize := Nat.lt_of_lt_of_le hi (hsize other ho)
    have hend : offset + data.length ≤ pageSize := Nat.le_trans hend (hsize bar hb)
    show (b.memory.store (barAddress bar + offset) data).byte (barAddress other + i) =
      if other = bar ∧ offset ≤ i then
        (data[i - offset]?).getD (b.memory.byte (barAddress other + i))
      else b.memory.byte (barAddress other + i)
    rw [Memory.byte_store]
    by_cases hsame : other = bar
    · subst hsame
      have hindex : barAddress other + i - (barAddress other + offset) = i - offset := by omega
      simp only [true_and, Nat.add_le_add_iff_left, hindex]
    · have hn : ¬(other = bar ∧ offset ≤ i) := fun h ↦ hsame h.1
      rw [ite_cond_eq_false _ _ (eq_false hn)]
      split
      · next hle =>
        -- the other window begins a page or more behind the one that is written
        have hafter : barAddress bar + pageSize ≤ barAddress other := by
          simp only [barAddress, pageSize] at hle hi ⊢
          omega
        rw [List.getElem?_eq_none (by omega), Option.getD_none]
      · rfl

end Board

/-- Windows of 4096 and 256 bytes and one that is missing. What was written at first is partly
written over; an access that is not aligned, one without a window, one of a missing window and two
that end beyond 64 bits are refused. -/
theorem RegisterAccess.perform_exact_board :
    let block : StatusBlock := ⟨1, 2, 0, 0, 0, 0, 0, 0, 0, 0, 0, 4096, 256, 0, 0, 0, 0, 0, 0, 0⟩
    let board : Board := ⟨[], Word.toByteList block.words, [], none, .zero, []⟩
    let link : Link := ⟨.hardware ⟨.optical, 0, 0, 0, []⟩, true, false⟩
    let host : Host Board := .bare board
    let history := [write 1 0 [0x01020304, 5], write 0 4092 [6], write 1 4 [7], write 1 250 [8],
      write 3 0 [8], write 2 0 [8], write 1 0xFFFFFFFFFFFFFFFC [8], read 0 0 0x4000000000000000]
    let s := performAll history (link, host)
    ((read 1 0 3).perform.exec s).1 = .ok [0x01020304, 7, 0] ∧
    ((read 0 4092 1).perform.exec s).1 = .ok [6] ∧
    ((read 0 4096 0).perform.exec s).1 = .ok [] ∧
    ((read 0 4096 1).perform.exec s).1 = .error .overflow ∧
    ((write 1 0xFFFFFFFFFFFFFFFC [8]).perform.exec s).1 = .error .overflow ∧
    ((write 2 0 [8]).perform.exec s).1 = .error (.unsupported "BAR2 not present") ∧
    ((write 3 0 [8]).perform.exec s).1 = .error (.unsupported "BAR3") := by
  intro block board link host history s
  have hlawful : (Board.registers block).Lawful := Board.lawful_registers rfl (by decide)
  have hresult (next : RegisterAccess) :=
    (@perform_exact _ _ _ hlawful link host _ rfl rfl ⟨rfl, rfl⟩ history next).1
  refine ⟨(hresult _).trans ?_, (hresult _).trans ?_, (hresult _).trans ?_, (hresult _).trans ?_,
    (hresult _).trans ?_, (hresult _).trans ?_, (hresult _).trans ?_⟩
  all_goals decide +kernel

end DetectorLink
