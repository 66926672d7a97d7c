import DetectorLink.Bytes

/-!
# Commands of the tool

What the tool can be asked to do, and the text under which a command is logged.
-/

namespace DetectorLink

/-- A command of the tool. -/
inductive ToolCommand where
  /-- Print the status of the board. -/
  | status
  /-- Print received packets: how many, and for how many milliseconds without data. -/
  | dump (count timeout : Option Nat)
  /-- Ask for modules and list those that answer within some milliseconds. -/
  | discover (timeout : Nat)
  /-- Verify the configured modules. -/
  | verify
  /-- Read register words. -/
  | read (bar offset count : Nat)
  /-- Write register words. -/
  | write (bar offset : Nat) (values : List UInt32)
  /-- Reset the link. -/
  | reset
  deriving DecidableEq, Repr

namespace ToolCommand

/-- Text of a value that may be missing. -/
def optionText : Option Nat → String
  | none => "None"
  | some n => s!"Some({n})"

/-- Fields in braces behind a name. -/
def record (name : String) (fields : List (String × String)) : String :=
  name ++ " \x7b " ++ ", ".intercalate (fields.map fun (label, text) => s!"{label}: {text}") ++
    " \x7d"

/-- The command with its arguments, for logs. -/
def text : ToolCommand → String
  | status => "Status"
  | dump count timeout =>
    record "Dump" [("count", optionText count), ("timeout", optionText timeout)]
  | discover timeout => record "Discover" [("timeout", toString timeout)]
  | verify => "Verify"
  | read bar offset count =>
    record "Read" [("bar", toString bar), ("offset", toString offset), ("count", toString count)]
  | write bar offset values =>
    record "Write" [("bar", toString bar), ("offset", toString offset),
      ("values", "[" ++ ", ".intercalate (values.map fun v => toString v.toNat) ++ "]")]
  | reset => "Reset"

end ToolCommand

end DetectorLink
