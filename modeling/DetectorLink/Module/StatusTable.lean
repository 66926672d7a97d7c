import DetectorLink.Bytes
import DetectorLink.Module.Field

/-!
# Status tables

Named fields of a status answer. Fields whose word is missing from an answer are left out.
-/

namespace DetectorLink

/-- A named field of an answer. -/
structure StatusParameter where
  /-- Name. -/
  name : String
  /-- Where it is. -/
  field : BitField
  deriving DecidableEq, Repr

/-- Value of the field, if the answer has its word. -/
def StatusParameter.extract? (p : StatusParameter) (payload : Bytes) : Option UInt32 :=
  (Word.get? payload p.field.offset).map p.field.extract

/-- Value of the field, unless the end of its word is no offset of 64 bits. -/
def StatusParameter.fetch (p : StatusParameter) (payload : Bytes) :
    Except Overflow (Option UInt32) :=
  (Word.fetch payload p.field.offset).map (·.map p.field.extract)

/-- Fields in the order of their definition. -/
structure StatusTable where
  /-- The fields. -/
  parameters : List StatusParameter
  deriving DecidableEq, Repr

namespace StatusTable

/-- No fields. -/
def empty : StatusTable := ⟨[]⟩

variable (t : StatusTable)

/-- Define a field. -/
def add (name : String) (field : BitField) : Except Overflow (Except ModuleError StatusTable) := do
  match ← field.check with
  | .error e => return .error (.invalidParameter name e)
  | .ok () =>
    if t.parameters.any (·.name == name) then return .error (.invalidParameter name .definedTwice)
    else return .ok ⟨t.parameters ++ [⟨name, field⟩]⟩

/-- Number of words in a complete answer. -/
def payloadWords : Nat := (t.parameters.map fun p => p.field.offset + 1).foldl max 0

/-- Number of words in a complete answer, unless the number of a field's words has more than 64
bits. -/
def checkedPayloadWords : Except Overflow Nat :=
  t.parameters.foldlM (fun words p =>
    return max words (← checkedAdd UInt64.size p.field.offset 1)) 0

/-- Values of the fields that an answer has. -/
def extract (payload : Bytes) : List (String × UInt32) :=
  t.parameters.filterMap fun p => (p.extract? payload).map fun v => (p.name, v)

/-- Values of the fields that an answer has, unless the end of a field's word is no offset of
64 bits. -/
def fetch (payload : Bytes) : Except Overflow (List (String × UInt32)) := do
  let found ← t.parameters.mapM fun p => return (← p.fetch payload).map fun v => (p.name, v)
  return found.filterMap id

end StatusTable

end DetectorLink
