/-!
# Blanks, line ends and comments

Entries end with their line. Between the items of a list, line ends and comments count as blanks.
A control character is allowed nowhere but in a line end; a tab is no control character.
-/

namespace DetectorLink.Toml

/-- A character that no text may hold unescaped. -/
def isControl (c : Char) : Bool := (c.toNat < 32 && c != '\t') || c.toNat == 127

/-- A blank within a line. -/
def isBlank (c : Char) : Bool := c == ' ' || c == '\t'

/-- The text after the blanks at its start. -/
def skipBlanks (cs : List Char) : List Char := cs.dropWhile isBlank

/-- The text after a line end at its start. -/
def lineEnd? : List Char → Option (List Char)
  | '\n' :: cs => some cs
  | '\r' :: '\n' :: cs => some cs
  | _ => none

/-- The line end, or the end of the text, after a comment. -/
def skipComment : List Char → Option (List Char)
  | [] => some []
  | '\n' :: cs => some ('\n' :: cs)
  | '\r' :: '\n' :: cs => some ('\n' :: cs)
  | c :: cs => if isControl c then none else skipComment cs

/-- The text after the rest of a line that holds nothing but blanks and a comment. -/
def endLine? (cs : List Char) : Option (List Char) :=
  let rest := match skipBlanks cs with
    | '#' :: cs => skipComment cs
    | cs => some cs
  match rest with
  | some [] => some []
  | some cs => lineEnd? cs
  | none => none

/-- The text after blanks, line ends and comments. -/
def skipGaps (inComment : Bool) : List Char → Option (List Char)
  | [] => some []
  | '\n' :: cs => skipGaps false cs
  | '\r' :: '\n' :: cs => skipGaps false cs
  | c :: cs =>
    if inComment then if isControl c then none else skipGaps true cs
    else if c == '#' then skipGaps true cs
    else if isBlank c then skipGaps false cs
    else some (c :: cs)

end DetectorLink.Toml
