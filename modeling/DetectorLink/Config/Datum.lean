/-!
# Data of a configuration

What a configuration text says, before it is taken for a configuration: a tree of named entries and
lists. Only what a configuration may depend on is kept: numbers with a point and dates are all one,
since no entry asks for them.
-/

namespace DetectorLink

/-- A value in a configuration text. -/
inductive Datum where
  /-- Nothing. -/
  | null
  /-- A truth value. -/
  | bool (b : Bool)
  /-- An integer. -/
  | int (n : Int)
  /-- A number that is not written as an integer. -/
  | real
  /-- A date or a time. -/
  | moment
  /-- A text. -/
  | text (s : String)
  /-- Values in order. -/
  | list (items : List Datum)
  /-- Named values. -/
  | table (entries : List (String × Datum))
  deriving Repr, Inhabited

end DetectorLink
