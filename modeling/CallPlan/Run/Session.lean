import CallPlan.Run.CommandLine
import CallPlan.Run.Generation

/-!
# Sessions

What a command line leads to, given the files that there are: the text that is printed, the files
that are to be written, and whether all went well. A session that is carried out writes its files;
it fails at the first one that cannot be written.
-/

namespace CallPlan

/-- What a session leads to. -/
structure Session where
  exitCode : Nat
  printed : String := ""
  /-- Why the session fails. -/
  complaint : String := ""
  /-- Paths and texts of the files, in the order in which they are written. -/
  written : List (String × String) := []

namespace Session

/-- The name of the program and what it is. -/
def version : String := "crasher 0.1.0 - JUnit crash test generator"

/-- What is printed if there is no command. -/
def greeting : String := version ++ "\nRun 'crasher --help' for usage."

/-- How the program is called. -/
def usage : String :=
  "Usage: crasher [-v] [generate | inspect] <CATALOG> [CLASSES] | version"

/-- A session that prints something. -/
def saying (text : String) : Session := { exitCode := 0, printed := text ++ "\n" }

/-- A session that fails. -/
def failing (e : RunError) (written : List (String × String)) : Session :=
  { exitCode := 1, complaint := "Error: " ++ e.message, written }

/-- The settings in a file, or the usual ones if there is none, with the overrides put in. -/
def settingsOf (read : String → Option String) (path? : Option String) (o : Overrides) :
    Except RunError Settings := do
  let s ← match path? with
    | none => pure {}
    | some path =>
      match read path with
      | none => throw (.unreadable path)
      | some text => (Settings.parse text).mapError .settings
  (s.override o).check.mapError .settings

/-- The catalogue in a file. -/
def catalogOf (read : String → Option String) (path : String) : Except RunError Catalog :=
  match read path with
  | none => .error (.unreadable path)
  | some text => (Catalog.parse text).mapError .catalog

/-- Settings, catalogue and classes for a command. -/
def prepare (read : String → Option String) (a : CommandLine.CatalogArguments) (o : Overrides) :
    Except RunError (Settings × Catalog × List ClassName) := do
  let s ← settingsOf read a.config o
  let k ← catalogOf read a.catalog
  let classes ← k.resolveAll a.classes
  return (s, k, classes)

/-- The session of an inspection. -/
def inspecting (read : String → Option String) (a : CommandLine.CatalogArguments) : Session :=
  let result := do
    let (s, k, classes) ← prepare read a a.overrides
    inspect k classes s
  match result with
  | .error e => failing e []
  | .ok reports =>
    saying (if a.json then (ClassTally.jsonOf reports).pretty else ClassTally.textOf reports)

/-- The session of a generating run. -/
def generating (read : String → Option String) (a : CommandLine.GenerateArguments) : Session :=
  match prepare read a.toCatalogArguments a.overrides with
  | .error e => failing e []
  | .ok (s, k, classes) =>
    let (result, written) := (generate k classes s a.output).run.run []
    match result with
    | .error e => failing e written.reverse
    | .ok report =>
      { saying (if a.json then report.toJson.pretty else report.summary) with
        written := written.reverse }

/-- The session that a command line leads to, where `read` gives the texts of files. -/
def run (read : String → Option String) (args : List String) : Session :=
  match CommandLine.parse args with
  | .error .helpWanted => saying usage
  | .error _ => { exitCode := 2, complaint := usage }
  | .ok invocation =>
    match invocation.command with
    | none => saying greeting
    | some .version => saying version
    | some (.inspect a) => inspecting read a
    | some (.generate a) => generating read a

/-! ### Carrying out -/

/-- Writes files one after the other, up to the first one that cannot be written, and returns its
path. -/
def firstUnwritable {m : Type → Type} [Monad m] (write : String → String → m Bool) :
    List (String × String) → m (Option String)
  | [] => pure none
  | (path, text) :: rest => do
    if ← write path text then firstUnwritable write rest else pure (some path)

/-- The session as it ends when `write` writes its files and says whether it could. -/
def carryOut {m : Type → Type} [Monad m] (write : String → String → m Bool) (s : Session) :
    m Session := do
  match ← firstUnwritable write s.written with
  | none => pure s
  | some path => pure (failing (.unwritable path) s.written)

end Session

end CallPlan
