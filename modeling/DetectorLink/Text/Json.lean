import DetectorLink.Decimal.Shortest
import DetectorLink.Text.Numeral

/-!
# JSON texts

Reports in JSON are values that are written either on one line or with one entry a line, indented
by two spaces. Entries keep their order. Numbers with a point have the fewest digits that read
back; the exponent is written out from the sixteenth place on, and below the fifth.
-/

namespace DetectorLink

/-- A JSON value. -/
inductive Json where
  | null
  | bool (b : Bool)
  | int (n : Int)
  | float (x : Float)
  | str (s : String)
  | array (items : List Json)
  | object (entries : List (String × Json))

namespace Json

/-- A value or null. -/
def ofOption {α : Type} (f : α → Json) : Option α → Json
  | some a => f a
  | none => null

/-- A natural number. -/
def nat (n : Nat) : Json := int n

/-- A word. -/
def word (w : UInt32) : Json := nat w.toNat

/-- A byte. -/
def byte (b : UInt8) : Json := nat b.toNat

/-- Escaped form of a character. -/
def escape (c : Char) : List Char :=
  match c with
  | '"' => ['\\', '"']
  | '\\' => ['\\', '\\']
  | '\n' => ['\\', 'n']
  | '\r' => ['\\', 'r']
  | '\t' => ['\\', 't']
  | c =>
    if c.toNat = 8 then ['\\', 'b']
    else if c.toNat = 12 then ['\\', 'f']
    else if c.toNat < 32 then ['\\', 'u'] ++ (Numeral.hex 4 c.toNat).toList
    else [c]

/-- A text in quotes. -/
def quote (s : String) : String := "\"" ++ String.ofList (s.toList.flatMap escape) ++ "\""

/-- Digits with a point after the first `whole` of them, or as many zeros before them. -/
def positional (digits : List Char) (whole : Int) : String :=
  if whole ≤ 0 then
    "0." ++ String.ofList (List.replicate (-whole).toNat '0' ++ digits)
  else
    let n := whole.toNat
    let padded := digits ++ List.replicate (n - digits.length) '0'
    let tail := padded.drop n
    String.ofList (padded.take n) ++ "." ++ if tail.isEmpty then "0" else String.ofList tail

/-- Digits with a point after the first one and an exponent. -/
def scientific (digits : List Char) (exponent : Int) : String :=
  let mantissa := match digits with
    | d :: e :: rest => String.ofList (d :: '.' :: e :: rest)
    | ds => String.ofList ds
  mantissa ++ "e" ++ (if 0 ≤ exponent then "+" else "") ++ toString exponent

/-- A finite number with a point; there is no text for others. -/
def number (x : Float) : String :=
  if !x.isFinite then "null"
  else
    let b := Decimal.Binary.ofBits x.toBits
    let sign := if b.negative then "-" else ""
    let d := Decimal.shortest b
    let digits := Nat.toDigits 10 d.digits
    let leading := (digits.length : Int) + d.exponent - 1
    if d.digits = 0 then sign ++ "0.0"
    else if -5 ≤ leading ∧ leading < 16 then sign ++ positional digits (leading + 1)
    else sign ++ scientific digits leading

mutual

/-- The value on one line. -/
def compact : Json → String
  | null => "null"
  | bool b => if b then "true" else "false"
  | int n => toString n
  | float x => number x
  | str s => quote s
  | array items => "[" ++ ",".intercalate (compactItems items) ++ "]"
  | object entries => "\x7b" ++ ",".intercalate (compactEntries entries) ++ "\x7d"

/-- The items of an array. -/
def compactItems : List Json → List String
  | [] => []
  | j :: js => j.compact :: compactItems js

/-- The entries of an object. -/
def compactEntries : List (String × Json) → List String
  | [] => []
  | (k, j) :: rest => (quote k ++ ":" ++ j.compact) :: compactEntries rest

end

/-- Lines between brackets, indented by two spaces; nothing stands between the brackets of none. -/
def block (start stop : String) (depth : Nat) (lines : List String) : String :=
  let indent (d : Nat) := "\n" ++ String.ofList (List.replicate (2 * d) ' ')
  if lines.isEmpty then start ++ stop
  else start ++ ",".intercalate (lines.map (indent (depth + 1) ++ ·)) ++ indent depth ++ stop

mutual

/-- The value with one entry a line, at some depth. -/
def pretty (depth : Nat) : Json → String
  | array items => block "[" "]" depth (prettyItems (depth + 1) items)
  | object entries => block "\x7b" "\x7d" depth (prettyEntries (depth + 1) entries)
  | null => "null"
  | bool b => if b then "true" else "false"
  | int n => toString n
  | float x => number x
  | str s => quote s

/-- The items of an array. -/
def prettyItems (depth : Nat) : List Json → List String
  | [] => []
  | j :: js => j.pretty depth :: prettyItems depth js

/-- The entries of an object. -/
def prettyEntries (depth : Nat) : List (String × Json) → List String
  | [] => []
  | (k, j) :: rest => (quote k ++ ": " ++ j.pretty depth) :: prettyEntries depth rest

end

end Json

end DetectorLink
