import CallPlan.Render.Style
import CallPlan.Text.Lines

/-!
# Pages

A page is source text that grows line by line at a current level of indentation.
-/

namespace CallPlan

/-- A line of source text, some levels further in than its surroundings. -/
structure SourceLine where
  level : Nat
  text : String
deriving DecidableEq, Repr

/-- Text in the making. -/
structure Page where
  indent : String
  newline : String
  level : Nat
  text : String
deriving DecidableEq, Repr

namespace Page

/-- An empty page at the outermost level. -/
def blank (indent newline : String) : Page := ⟨indent, newline, 0, ""⟩

/-- An empty page in a style. -/
def ofStyle (s : Style) : Page := blank s.indent s.newline

/-- The indentation of the current level. -/
def margin (p : Page) : String := Text.repeated p.indent p.level

/-- Whether nothing but white space is written. -/
def isEmpty (p : Page) : Bool := Text.allBlank p.text.toList

/-- Adds text as it is. -/
def add (p : Page) (text : String) : Page := { p with text := p.text ++ text }

/-- Ends the line. -/
def addNewline (p : Page) : Page := p.add p.newline

/-- Adds the indentation of the current level. -/
def addIndent (p : Page) : Page := p.add p.margin

/-- Adds a line at the current level, indented even if it is empty. -/
def addLine (p : Page) (line : String) : Page := ((p.addIndent).add line).addNewline

/-- Goes one level further in. -/
def goIn (p : Page) : Page := { p with level := p.level + 1 }

/-- Goes one level out, if there is one. -/
def goOut (p : Page) : Page := { p with level := p.level - 1 }

/-- Adds lines, each at its own level. -/
def addLines (p : Page) (lines : List SourceLine) : Page :=
  lines.foldl (fun p line =>
    { ({ p with level := p.level + line.level }).addLine line.text with level := p.level }) p

/-- Lines stand below each other, each ended and at its own level. -/
theorem text_addLines (p : Page) (lines : List SourceLine) :
    (p.addLines lines).text = p.text ++ String.join (lines.map fun line =>
      Text.repeated p.indent (p.level + line.level) ++ line.text ++ p.newline) := by
  induction lines generalizing p with
  | nil => simp [addLines]
  | cons line lines ih =>
    rw [addLines, List.foldl_cons, ← addLines, ih]
    simp [addLine, addIndent, addNewline, add, margin, String.append_assoc]

end Page

/-- The text of lines in a style. -/
def Style.textOf (s : Style) (lines : List SourceLine) : String :=
  ((Page.ofStyle s).addLines lines).text

end CallPlan
