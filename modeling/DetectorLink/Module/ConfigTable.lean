import DetectorLink.Module.Field

/-!
# Configuration tables

Named fields of a configuration block with their values. The block is the sections one after the
other, by their letters; a section is as long as its highest word that has a field.
-/

namespace DetectorLink

/-- A named field of a configuration block. -/
structure ConfigParameter where
  /-- Name. -/
  name : String
  /-- Letter or digit of its section. -/
  label : Char
  /-- Where it is in the section. -/
  field : BitField
  /-- Value it has until another one is set. -/
  default : UInt32
  deriving DecidableEq, Repr

/-- Fields in the order of their definition, and the values that have been set. -/
structure ConfigTable where
  /-- The fields. -/
  parameters : List ConfigParameter
  /-- Values by the names they have been set for, the last one first. -/
  values : List (String × UInt32)
  deriving DecidableEq, Repr

namespace ConfigTable

/-- No fields. -/
def empty : ConfigTable := ⟨[], []⟩

/-- True for a letter or digit of the ASCII range. -/
def isLabel (c : Char) : Bool := c.isAlphanum

/-- Give the section of a letter at least `words` words. Sections are in the order of their
letters. -/
def lengthen (label : Char) (words : Nat) : List (Char × Nat) → List (Char × Nat)
  | [] => [(label, words)]
  | (c, size) :: sizes =>
    if label < c then (label, words) :: (c, size) :: sizes
    else if label = c then (c, max size words) :: sizes
    else (c, size) :: lengthen label words sizes

/-- Number of words of sections together. -/
def wordCount : List (Char × Nat) → Nat
  | [] => 0
  | (_, size) :: sizes => size + wordCount sizes

/-- Number of words of `sizes` after the first `total`, by sums of 64 bits. -/
def checkedCount (total : Nat) : List (Char × Nat) → Except Overflow Nat
  | [] => .ok total
  | (_, size) :: sizes => do checkedCount (← checkedAdd UInt64.size total size) sizes

/-- Sections with where they start, one after the other from `start` on. -/
def sectionStarts (start : Nat) : List (Char × Nat) → List (Char × Nat)
  | [] => []
  | (c, size) :: sizes => (c, start) :: sectionStarts (start + size) sizes

variable (t : ConfigTable)

/-- The field of a name. -/
def find? (name : String) : Option ConfigParameter := t.parameters.find? (·.name == name)

/-- Define a field. -/
def add (name : String) (label : Char) (field : BitField) (default : UInt32) :
    Except Overflow (Except ModuleError ConfigTable) := do
  match ← field.check with
  | .error e => return .error (.invalidParameter name e)
  | .ok () =>
    if !isLabel label then return .error (.invalidParameter name (.badSection label))
    else if !field.fits default then
      return .error (.invalidParameter name (.wideDefault default.toNat field.width))
    else if t.parameters.any (·.name == name) then
      return .error (.invalidParameter name .definedTwice)
    else return .ok { t with parameters := t.parameters ++ [⟨name, label, field, default⟩] }

/-- Give a field another value. -/
def set (name : String) (value : UInt32) : Except ModuleError ConfigTable :=
  match t.find? name with
  | none => .error (.invalidParameter name .unknown)
  | some p =>
    if p.field.fits value then .ok { t with values := (name, value) :: t.values }
    else .error (.invalidParameter name (.wideValue value.toNat p.field.width))

/-- Value of a field: the one set last, or its default. -/
def valueOf (p : ConfigParameter) : UInt32 := (t.values.lookup p.name).getD p.default

/-- Value of the field of a name. -/
def get? (name : String) : Option UInt32 := (t.find? name).map t.valueOf

/-- Sections with their numbers of words, in their order. -/
def sectionSizes : List (Char × Nat) :=
  t.parameters.foldl (fun sizes p => lengthen p.label (p.field.offset + 1) sizes) []

/-- Sections with their numbers of words, by sums of 64 bits. -/
def checkedSizes : Except Overflow (List (Char × Nat)) :=
  t.parameters.foldlM (fun sizes p =>
    return lengthen p.label (← checkedAdd UInt64.size p.field.offset 1) sizes) []

/-- Put the value of a field into its word of the block. -/
def place (starts : List (Char × Nat)) (block : List UInt32) (p : ConfigParameter) : List UInt32 :=
  match starts.lookup p.label with
  | some start => block.modify (start + p.field.offset) (· ||| p.field.insert (t.valueOf p))
  | none => block

/-- The fields put one after the other into `words` words that are zero. -/
def fill (sizes : List (Char × Nat)) (words : Nat) : List UInt32 :=
  t.parameters.foldl (t.place (sectionStarts 0 sizes)) (List.replicate words 0)

/-- The configuration block, however long it is. -/
def block : List UInt32 := t.fill t.sectionSizes (wordCount t.sectionSizes)

/-- The configuration block, if its numbers of words have 64 bits and it can be addressed. -/
def pack : Except Overflow (List UInt32) := do
  let sizes ← t.checkedSizes
  let words ← checkedCount 0 sizes
  if 4 * words < addressBound then return t.fill sizes words else .error .capacity

end ConfigTable

end DetectorLink
