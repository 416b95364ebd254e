/-!
# Lines and columns

A text is cut into lines at its line feeds. A carriage return right before the line feed belongs to
the line's end; one anywhere else belongs to the line. Text that ends with a line feed has no empty
line behind it. Columns are filled with blanks to a width, counted in characters.
-/

namespace CallPlan.Text

/-- The line without the carriage return that ends it. -/
def dropReturn (line : List Char) : List Char :=
  if line.getLast? = some '\r' then line.dropLast else line

/-- The lines of a text. -/
def lines (cs : List Char) : List (List Char) :=
  let parts := cs.splitOn '\n'
  parts.dropLast.map dropReturn ++ (parts.getLast?.toList.filter fun line => !line.isEmpty)

/-- `n` copies of the text, one after the other. -/
def repeated (s : String) (n : Nat) : String :=
  String.join (List.replicate n s)

/-- The text with blanks behind it up to the width. -/
def alignLeft (width : Nat) (s : String) : String :=
  s ++ repeated " " (width - s.length)

/-- The text with blanks in front of it up to the width. -/
def alignRight (width : Nat) (s : String) : String :=
  repeated " " (width - s.length) ++ s

end CallPlan.Text
