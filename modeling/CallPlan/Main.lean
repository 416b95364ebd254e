import CallPlan.Run.Session

/-!
# The program

Reads the files that the command line names, carries out the session, and hands its results to the
system.
-/

namespace CallPlan

/-- The text of a file, if it can be read. -/
def readText (path : String) : IO (Option String) := do
  try
    let text ← IO.FS.readFile path
    return some text
  catch _ => return none

/-- The paths of the files that a command line asks for. -/
def inputPaths (args : List String) : List String :=
  match CommandLine.parse args with
  | .ok ⟨some (.inspect a), _⟩ => a.config.toList ++ [a.catalog]
  | .ok ⟨some (.generate a), _⟩ => a.config.toList ++ [a.catalog]
  | _ => []

/-- The directory that a path lies in. -/
def directoryOf (path : String) : String :=
  "/".intercalate ((path.toList.splitOn '/').dropLast.map String.ofList)

/-- Writes a file, and the directories that lead to it, if it can. -/
def writeText (path text : String) : IO Bool := do
  let directory := directoryOf path
  try
    unless directory.isEmpty do
      IO.FS.createDirAll directory
    IO.FS.writeFile path text
    return true
  catch _ => return false

end CallPlan

open CallPlan in
/-- The program. -/
def main (args : List String) : IO UInt32 := do
  let texts ← (inputPaths args).mapM fun path => do
    let text? ← readText path
    return (path, text?)
  let session ← (Session.run (fun path => (texts.lookup path).join) args).carryOut writeText
  IO.print session.printed
  unless session.complaint.isEmpty do
    IO.eprintln session.complaint
  return session.exitCode.toUInt32
