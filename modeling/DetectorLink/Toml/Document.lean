import DetectorLink.Toml.Moment
import DetectorLink.Toml.Node
import DetectorLink.Toml.Quoted

/-!
# Configuration texts

A text is a sequence of lines, each of which is empty, opens a table or defines a name in the table
opened last. `read?` answers with the table that the text describes, or with nothing if it is not
well-formed.
-/

namespace DetectorLink.Toml

/-- A character of a name without quotes. -/
def isNameChar (c : Char) : Bool := c.isAlphanum || c == '_' || c == '-'

/-- A single name and what follows it. -/
def name? (cs : List Char) : Option (String × List Char) :=
  match quotedLine? cs with
  | some found => some found
  | none =>
    let bare := cs.takeWhile isNameChar
    if bare.isEmpty then none else some (String.ofList bare, cs.dropWhile isNameChar)

/-- Names separated by points, blanks around each. There are at most `fuel` of them. -/
def dottedName? : Nat → List Char → Option (List String × List Char)
  | 0, _ => none
  | fuel + 1, cs => do
    let (name, cs) ← name? (skipBlanks cs)
    match skipBlanks cs with
    | '.' :: cs =>
      let (names, cs) ← dottedName? fuel cs
      return (name :: names, cs)
    | cs => return ([name], cs)

/-- A character that ends a value without quotes. -/
def endsScalar (c : Char) : Bool :=
  isBlank c || c == '\n' || c == '\r' || c == ',' || c == ']' || c == '\x7d' || c == '#'

/-- The value of a text without quotes. -/
def scalar? (cs : List Char) : Option Datum :=
  if cs = ['t', 'r', 'u', 'e'] then some (.bool true)
  else if cs = ['f', 'a', 'l', 's', 'e'] then some (.bool false)
  else match integer? cs with
    | some n => some (.int n)
    | none => if isReal cs then some .real else if isMoment cs then some .moment else none

/-- A value without quotes and what follows it. A date may go on after a blank with a time. -/
def bareValue? (cs : List Char) : Option (Datum × List Char) :=
  let word := cs.takeWhile (!endsScalar ·)
  let rest := cs.dropWhile (!endsScalar ·)
  match afterDate? word, rest with
  | some [], ' ' :: d :: more =>
    if isDigit d then
      let time := (d :: more).takeWhile (!endsScalar ·)
      (scalar? (word ++ ' ' :: time)).map (·, (d :: more).dropWhile (!endsScalar ·))
    else (scalar? word).map (·, rest)
  | _, _ => (scalar? word).map (·, rest)

/-- How deep lists and tables within a line may be nested. -/
def maxDepth : Nat := 80

mutual

/-- A value and what follows it. -/
def value? (fuel depth : Nat) (cs : List Char) : Option (Datum × List Char) :=
  match fuel with
  | 0 => none
  | fuel + 1 =>
    match cs with
    | '[' :: cs => if depth = 0 then none else items? fuel (depth - 1) [] cs
    | '\x7b' :: cs => if depth = 0 then none else pairs? fuel (depth - 1) [] cs
    | '"' :: _ | '\'' :: _ => (quoted? cs).map fun (s, cs) => (.text s, cs)
    | cs => bareValue? cs

/-- The items of a list up to its end; those before are given latest first. -/
def items? (fuel depth : Nat) (found : List Datum) (cs : List Char) :
    Option (Datum × List Char) :=
  match fuel with
  | 0 => none
  | fuel + 1 => do
    match ← skipGaps false cs with
    | ']' :: cs => return (.list found.reverse, cs)
    | cs =>
      let (item, cs) ← value? fuel depth cs
      match ← skipGaps false cs with
      | ',' :: cs => items? fuel depth (item :: found) cs
      | ']' :: cs => return (.list (item :: found).reverse, cs)
      | _ => none

/-- The entries of a table within a line up to its end. -/
def pairs? (fuel depth : Nat) (found : Entries) (cs : List Char) : Option (Datum × List Char) :=
  match fuel with
  | 0 => none
  | fuel + 1 => do
    match ← skipGaps false cs with
    | '\x7d' :: cs => return (.table (entriesToData found), cs)
    | cs =>
      let (names, cs) ← dottedName? cs.length cs
      match cs with
      | '=' :: cs =>
        let (value, cs) ← value? fuel depth (skipBlanks cs)
        let found ← defineDotted names.dropLast (names.getLastD "") value .declared found
        match ← skipGaps false cs with
        | ',' :: cs => pairs? fuel depth found cs
        | '\x7d' :: cs => return (.table (entriesToData found), cs)
        | _ => none
      | _ => none

end

/-- What a line says. -/
inductive Line where
  /-- Nothing. -/
  | empty
  /-- It opens a table. -/
  | header (path : List String) (name : String)
  /-- It opens a new table of a list. -/
  | listed (path : List String) (name : String)
  /-- It defines a name. -/
  | entry (path : List String) (name : String) (value : Datum)

/-- The path and the last name of a dotted name. -/
def splitLast (names : List String) : List String × String :=
  (names.dropLast, names.getLastD "")

/-- What the line at the start of a text says, and what follows it. A value may go on over several
lines. -/
def line? (cs : List Char) : Option (Line × List Char) :=
  match skipBlanks cs with
  | '[' :: '[' :: cs => do
    let (names, cs) ← dottedName? cs.length cs
    let (path, name) := splitLast names
    match cs with
    | ']' :: ']' :: cs => return (.listed path name, ← endLine? cs)
    | _ => none
  | '[' :: cs => do
    let (names, cs) ← dottedName? cs.length cs
    let (path, name) := splitLast names
    match cs with
    | ']' :: cs => return (.header path name, ← endLine? cs)
    | _ => none
  | cs =>
    match endLine? cs with
    | some rest => some (.empty, rest)
    | none => do
      let (names, cs) ← dottedName? cs.length cs
      let (path, name) := splitLast names
      match cs with
      | '=' :: cs =>
        let (value, cs) ← value? (2 * cs.length + 1) maxDepth (skipBlanks cs)
        return (.entry path name value, ← endLine? cs)
      | _ => none

/-- Take a line into the root table. The path of the table opened last comes and goes with it. -/
def Line.apply (opened : List String) (root : Entries) : Line → Option (List String × Entries)
  | .empty => some (opened, root)
  | .header path name => do
    return (path ++ [name], ← descend .implied (openTable name) path .declared root)
  | .listed path name => do
    return (path ++ [name], ← descend .implied (openListed name) path .declared root)
  | .entry path name value => do
    return (opened, ← descend .implied (defineDotted path name value) opened .declared root)

/-- Take the lines of a text, at most `fuel` of them. -/
def lines? : Nat → List String → Entries → List Char → Option Entries
  | _, _, root, [] => some root
  | 0, _, _, _ => none
  | fuel + 1, opened, root, cs => do
    let (line, cs) ← line? cs
    let (opened, root) ← line.apply opened root
    lines? fuel opened root cs

/-- The text without the mark that may stand at its start. -/
def withoutMark (cs : List Char) : List Char :=
  match cs with
  | '\ufeff' :: cs => cs
  | cs => cs

/-- The table that a text describes. -/
def read? (text : String) : Option Datum :=
  let cs := withoutMark text.toList
  (lines? (cs.length + 1) [] [] cs).map fun root => .table (entriesToData root)

end DetectorLink.Toml
