import DetectorLink.Toml.Blank

/-!
# Quoted texts

A text stands between quotes, or between threefold quotes if it holds line ends. Between double
quotes a backslash begins an escape; between single quotes every character stands for itself. A
line end directly after threefold quotes does not belong to the text.
-/

namespace DetectorLink.Toml

/-- Value of a hexadecimal digit. -/
def hexDigit? (c : Char) : Option Nat :=
  if '0' ≤ c ∧ c ≤ '9' then some (c.toNat - '0'.toNat)
  else if 'a' ≤ c ∧ c ≤ 'f' then some (c.toNat - 'a'.toNat + 10)
  else if 'A' ≤ c ∧ c ≤ 'F' then some (c.toNat - 'A'.toNat + 10)
  else none

/-- The character with a hexadecimal code. -/
def coded? (digits : List Char) : Option Char := do
  let ds ← digits.mapM hexDigit?
  let n := ds.foldl (fun n d => n * 16 + d) 0
  if n.isValidChar then some (Char.ofNat n) else none

/-- The character that a one-letter escape stands for. -/
def escaped? : Char → Option Char
  | 'b' => some '\x08'
  | 't' => some '\t'
  | 'n' => some '\n'
  | 'f' => some '\x0c'
  | 'r' => some '\r'
  | 'e' => some '\x1b'
  | '"' => some '"'
  | '\\' => some '\\'
  | _ => none

/-- A text with what follows it. -/
abbrev Quoted := Option (String × List Char)

/-- The text whose characters were collected last first. -/
def collected (acc : List Char) : String := String.ofList acc.reverse

/-- A text up to a double quote. -/
def basic (acc : List Char) : List Char → Quoted
  | '"' :: cs => some (collected acc, cs)
  | '\\' :: 'x' :: a :: b :: cs => (coded? [a, b]).bind fun c => basic (c :: acc) cs
  | '\\' :: 'u' :: a :: b :: c :: d :: cs =>
    (coded? [a, b, c, d]).bind fun c => basic (c :: acc) cs
  | '\\' :: 'U' :: a :: b :: c :: d :: e :: f :: g :: h :: cs =>
    (coded? [a, b, c, d, e, f, g, h]).bind fun c => basic (c :: acc) cs
  | '\\' :: c :: cs => (escaped? c).bind fun c => basic (c :: acc) cs
  | c :: cs => if isControl c then none else basic (c :: acc) cs
  | [] => none

/-- A text up to a single quote. -/
def literal (acc : List Char) : List Char → Quoted
  | '\'' :: cs => some (collected acc, cs)
  | c :: cs => if isControl c then none else literal (c :: acc) cs
  | [] => none

/-- A text up to threefold double quotes, with up to two more before them. After a backslash at the
end of a line, blanks and line ends are left out. -/
def basicLines (skipping : Bool) (acc : List Char) : List Char → Quoted
  | '"' :: '"' :: '"' :: '"' :: '"' :: cs => some (collected ('"' :: '"' :: acc), cs)
  | '"' :: '"' :: '"' :: '"' :: cs => some (collected ('"' :: acc), cs)
  | '"' :: '"' :: '"' :: cs => some (collected acc, cs)
  | '\\' :: 'x' :: a :: b :: cs => (coded? [a, b]).bind fun c => basicLines false (c :: acc) cs
  | '\\' :: 'u' :: a :: b :: c :: d :: cs =>
    (coded? [a, b, c, d]).bind fun c => basicLines false (c :: acc) cs
  | '\\' :: 'U' :: a :: b :: c :: d :: e :: f :: g :: h :: cs =>
    (coded? [a, b, c, d, e, f, g, h]).bind fun c => basicLines false (c :: acc) cs
  | '\\' :: c :: cs =>
    match escaped? c with
    | some c => basicLines false (c :: acc) cs
    | none =>
      if (lineEnd? (skipBlanks (c :: cs))).isSome then basicLines true acc cs else none
  | '\r' :: '\n' :: cs => basicLines skipping (if skipping then acc else '\n' :: acc) cs
  | '\n' :: cs => basicLines skipping (if skipping then acc else '\n' :: acc) cs
  | c :: cs =>
    if isControl c then none
    else if skipping && isBlank c then basicLines true acc cs
    else basicLines false (c :: acc) cs
  | [] => none

/-- A text up to threefold single quotes, with up to two more before them. -/
def literalLines (acc : List Char) : List Char → Quoted
  | '\'' :: '\'' :: '\'' :: '\'' :: '\'' :: cs => some (collected ('\'' :: '\'' :: acc), cs)
  | '\'' :: '\'' :: '\'' :: '\'' :: cs => some (collected ('\'' :: acc), cs)
  | '\'' :: '\'' :: '\'' :: cs => some (collected acc, cs)
  | '\r' :: '\n' :: cs => literalLines ('\n' :: acc) cs
  | '\n' :: cs => literalLines ('\n' :: acc) cs
  | c :: cs => if isControl c then none else literalLines (c :: acc) cs
  | [] => none

/-- The text after a line end that follows threefold quotes. -/
def afterOpening (cs : List Char) : List Char := (lineEnd? cs).getD cs

/-- A text on one line, as names have it. -/
def quotedLine? : List Char → Quoted
  | '"' :: cs => basic [] cs
  | '\'' :: cs => literal [] cs
  | _ => none

/-- A text with any quotes. -/
def quoted? : List Char → Quoted
  | '"' :: '"' :: '"' :: cs => basicLines false [] (afterOpening cs)
  | '\'' :: '\'' :: '\'' :: cs => literalLines [] (afterOpening cs)
  | cs => quotedLine? cs

end DetectorLink.Toml
