import DetectorLink.Config.Datum

/-!
# Tables under construction

Tables are written in pieces: a header names a table, dotted names reach into it, and a header in
double brackets adds a table to a list. Each table may be given by one header only, and a table
that a header gave is not reached by dotted names.
-/

namespace DetectorLink.Toml

/-- How a table came to be. -/
inductive Origin where
  /-- A longer header goes through it. -/
  | implied
  /-- A dotted name goes through it. -/
  | dotted
  /-- A header gave it. -/
  | declared
  deriving DecidableEq, Repr

/-- A named part of a table under construction. -/
inductive Node where
  /-- A finished value. -/
  | leaf (value : Datum)
  /-- A table that may still grow. -/
  | table (origin : Origin) (entries : List (String × Node))
  /-- A list of tables, of which the last may still grow; latest first. -/
  | tables (items : List (List (String × Node)))

/-- Named parts of a table. -/
abbrev Entries := List (String × Node)

/-- Give a name another part, or add it at the end. -/
def Entries.put (name : String) (node : Node) : Entries → Entries
  | [] => [(name, node)]
  | (n, old) :: rest => if n = name then (n, node) :: rest else (n, old) :: Entries.put name node rest

/-- Change the table that a path leads to, making the tables on the way as `made`. A dotted name
does not go through a table that a header gave. -/
def descend (made : Origin) (change : Origin → Entries → Option Entries) :
    List String → Origin → Entries → Option Entries
  | [], origin, entries => change origin entries
  | name :: path, _, entries =>
    match entries.lookup name with
    | none => do
      let inner ← descend made change path made []
      return Entries.put name (.table made inner) entries
    | some (.table origin inner) =>
      if made = .dotted ∧ origin = .declared then none
      else do
        let inner ← descend made change path origin inner
        return Entries.put name (.table origin inner) entries
    | some (.tables (last :: before)) => do
      let last ← descend made change path .declared last
      return Entries.put name (.tables (last :: before)) entries
    | some _ => none

/-- Define a name in a table. After dotted names the table has to be one of theirs. -/
def define (dottedName : Bool) (name : String) (value : Datum) (origin : Origin)
    (entries : Entries) : Option Entries :=
  if dottedName = decide (origin = .dotted) ∧ (entries.lookup name).isNone then
    some (Entries.put name (.leaf value) entries)
  else none

/-- Define a dotted name in a table. -/
def defineDotted (path : List String) (name : String) (value : Datum) (origin : Origin)
    (entries : Entries) : Option Entries :=
  descend .dotted (define (!path.isEmpty) name value) path origin entries

/-- Open the table of a header. -/
def openTable (name : String) (_ : Origin) (entries : Entries) : Option Entries :=
  match entries.lookup name with
  | none => some (Entries.put name (.table .declared []) entries)
  | some (.table .implied inner) => some (Entries.put name (.table .declared inner) entries)
  | some _ => none

/-- Open a new table in the list of a header. -/
def openListed (name : String) (_ : Origin) (entries : Entries) : Option Entries :=
  match entries.lookup name with
  | none => some (Entries.put name (.tables [[]]) entries)
  | some (.tables items) => some (Entries.put name (.tables ([] :: items)) entries)
  | some _ => none

mutual

/-- The value of a finished part. -/
def Node.toDatum : Node → Datum
  | .leaf value => value
  | .table _ entries => .table (entriesToData entries)
  | .tables items => .list (tablesToData items).reverse

/-- The values of the parts of a table. -/
def entriesToData : List (String × Node) → List (String × Datum)
  | [] => []
  | (name, node) :: rest => (name, node.toDatum) :: entriesToData rest

/-- The tables of a list. -/
def tablesToData : List (List (String × Node)) → List Datum
  | [] => []
  | entries :: rest => .table (entriesToData entries) :: tablesToData rest

end

end DetectorLink.Toml
