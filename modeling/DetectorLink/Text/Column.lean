/-!
# Columns

Report lines align their fields in columns counted in characters.
-/

namespace DetectorLink.Text

/-- `s` followed by enough spaces to fill `width` characters. -/
def padRight (width : Nat) (s : String) : String :=
  s ++ String.ofList (List.replicate (width - s.length) ' ')

/-- Items separated by a mark. -/
def joinWith (mark : String) (items : List String) : String := mark.intercalate items

end DetectorLink.Text
