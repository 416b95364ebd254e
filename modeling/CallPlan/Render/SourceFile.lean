import CallPlan.Render.Page
import CallPlan.Text.Path

/-!
# Source files

A source file holds one class: a comment with the name of the file, the package, and the class.
-/

namespace CallPlan

/-- A generated source file. -/
structure SourceFile where
  className : String
  /-- The default package is the empty one. -/
  package : String
  comment : String
  /-- The text of the class. -/
  body : String
deriving DecidableEq, Repr

namespace SourceFile

def fileName (f : SourceFile) : String := f.className ++ ".java"

/-- Where the file belongs: one directory for each part of its package. -/
def path (f : SourceFile) : String :=
  let directories :=
    if f.package.isEmpty then [] else (f.package.toList.splitOn '.').map String.ofList
  (directories ++ [f.fileName]).foldl Text.Path.join ""

/-- A line of the comment, without trailing blanks if it is empty. -/
def commentLine (line : List Char) : String :=
  if line.isEmpty then " *" else " * " ++ String.ofList line

/-- The lines of the comment. -/
def commentLines (f : SourceFile) : List String :=
  ["/*", " * " ++ f.fileName, " *"] ++ (Text.lines f.comment.toList).map commentLine ++ [" */"]

/-- The lines that name the package. -/
def packageLines (f : SourceFile) : List String :=
  if f.package.isEmpty then [] else ["package " ++ f.package ++ ";", ""]

/-- The text of the file. -/
def text (f : SourceFile) (s : Style) : String :=
  s.textOf ((f.commentLines ++ f.packageLines).map (SourceLine.mk 0)) ++ f.body

end SourceFile

end CallPlan
