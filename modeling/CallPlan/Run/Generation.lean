import CallPlan.Block.Subject
import CallPlan.Render.Suite
import CallPlan.Run.Report
import CallPlan.Run.Settings

/-!
# Generating and inspecting

For every class the plans of its operations are counted and a sample of them is taken. An inspection
stops there. A generating run turns the sample into blocks, writes these as test classes, and at
last writes a suite for every package that got a test class.

Files that are written before a run fails stay written.
-/

namespace CallPlan

/-- Why a run fails. -/
inductive RunError where
  | settings (e : SettingsError)
  | catalog (e : CatalogError)
  /-- The plans of a class cannot be counted. -/
  | counting (tested : ClassName) (e : PlanError)
  /-- No sample of an operation's plans can be taken. -/
  | sampling (op : Operation) (e : PlanError)
  /-- The block of an index cannot be built. -/
  | block (index : Nat) (tested : ClassName) (e : PlanError)
  | render (e : RenderError)
  | unreadable (path : String)
  | unwritable (path : String)
deriving Repr

/-- The reason in words, with what was attempted in front. -/
def RunError.message : RunError → String
  | settings e => e.message
  | catalog e => e.message
  | counting tested e =>
    "failed to build plan space for " ++ tested.qualifiedName ++ ": " ++ e.message
  | sampling op e => "failed to select plans of " ++ op.signature ++ ": " ++ e.message
  | block index tested e =>
    "failed to build block " ++ toString index ++ " of " ++ tested.qualifiedName ++ ": " ++
      e.message
  | render e => e.message
  | unreadable path => "failed to read " ++ path
  | unwritable path => "failed to write " ++ path

/-! ### Classes -/

/-- The class of a name, if the catalogue has it. -/
def Catalog.resolve (k : Catalog) (name : String) : Except RunError ClassName := do
  let c ← (ClassName.parse name).mapError fun e => .catalog (.badName e)
  let _ ← (k.entryOf c).mapError .catalog
  return c

/-- The classes of the names, or all classes if there are no names. -/
def Catalog.resolveAll (k : Catalog) (names : List String) : Except RunError (List ClassName) :=
  if names.isEmpty then .ok (k.entries.map Entry.name) else names.mapM k.resolve

namespace Subject

/-- The subject for a class as the settings want it. -/
def ofSettings (k : Catalog) (s : Settings) (tested : ClassName) : Except RunError Subject :=
  (ofCatalog k tested s.depth s.tested s.used).mapError (.counting tested)

/-! ### Plans -/

/-- How many plans the operations have, and how many of them a sample would hold. -/
def tally (c : Subject) (limit : Nat) : List OperationTally :=
  c.operationRanges.map fun (op, start, stop) =>
    { operation := op.signature, plans := stop - start,
      selected := sampleSize (stop - start) limit }

/-- The sample of one operation, as indices of the subject, and the tally of the operation. -/
def sampleRange (limit : Nat) (range : Operation × Nat × Nat) :
    Except RunError (List Nat × OperationTally) :=
  let (op, start, stop) := range
  match sample (stop - start) limit with
  | .error e => .error (.sampling op e)
  | .ok chosen =>
    .ok (chosen.map (start + ·),
      { operation := op.signature, plans := stop - start, selected := chosen.length })

/-- The samples of all operations, one after the other, and the tallies. -/
def sample (c : Subject) (limit : Nat) :
    Except RunError (List Nat × List OperationTally) := do
  let parts ← c.operationRanges.mapM (sampleRange limit)
  return (parts.flatMap (·.1), parts.map (·.2))

/-! ### Blocks -/

/-- The blocks of the indices, one after the other. -/
def blocksInOrder (c : Subject) (indices : List Nat) : Except RunError (List Block) :=
  indices.mapM fun index => (c.get index).mapError (.block index c.tested)

/-- How many indices each of the workers gets. -/
def shareOf (indices workers : Nat) : Nat := (indices + workers - 1) / workers

/-- The blocks of the indices, built by so many workers side by side on consecutive shares. -/
def blocksAt (c : Subject) (indices : List Nat) (workers : Nat) :
    Except RunError (List Block) :=
  if workers ≤ 1 ∨ indices.length < 2 then c.blocksInOrder indices
  else do
    -- `pieces` counts the elements besides the first one
    let shares := pieces (shareOf indices.length workers - 1) indices
    let tasks := shares.map fun share => Task.spawn fun _ => c.blocksInOrder share
    let blocks ← tasks.mapM Task.get
    return blocks.flatten

end Subject

/-! ### Inspection -/

/-- The tally of a class. -/
def Subject.classTally (c : Subject) (operations : List OperationTally)
    (testClasses : List String) : ClassTally :=
  { tested := c.tested.qualifiedName, depth := c.depth, plans := c.size, operations, testClasses }

/-- Counts the plans of a class. -/
def inspectClass (k : Catalog) (s : Settings) (tested : ClassName) :
    Except RunError ClassTally := do
  let c ← Subject.ofSettings k s tested
  return c.classTally (c.tally s.plansPerOperation) []

/-- Counts the plans of classes. -/
def inspect (k : Catalog) (classes : List ClassName) (s : Settings) :
    Except RunError (List ClassTally) :=
  classes.mapM (inspectClass k s)

/-! ### Generation -/

/-- The names of the test classes of each package. -/
abbrev Suites := List (String × List String)

namespace Suites

/-- The names that a package has got. -/
def namesOf (s : Suites) (package : String) : List String := (s.lookup package).getD []

/-- Adds names to those of a package. -/
def add (package : String) (names : List String) : Suites → Suites
  | [] => [(package, names)]
  | (p, ns) :: rest =>
    if p = package then (p, ns ++ names) :: rest else (p, ns) :: add package names rest

/-- The packages in ascending order. -/
def sorted (s : Suites) : Suites := s.mergeSort fun a b => !(b.1 < a.1)

end Suites

/-- A computation that writes files, which stay written if it fails. The file written last comes
first, with its path and its text. -/
abbrev Writing := ExceptT RunError (StateM (List (String × String)))

namespace Writing

/-- Writes a file below a directory and returns its path. -/
def file (output : String) (f : SourceFile) (s : Style) : Writing String := do
  let path := Text.Path.join output f.path
  modify ((path, f.text s) :: ·)
  return path

/-- Carries out a step that writes nothing. -/
def step {α : Type} : Except RunError α → Writing α
  | .ok a => pure a
  | .error e => throw e

end Writing

/-- The test classes of blocks, whose names are not among the `taken` ones. -/
def testClassesOf (s : Settings) (c : Subject) (blocks : List Block)
    (taken : List String) : Except RunError (List TestClass) := do
  let classes ←
    (TestClass.split c.tested blocks s.testsPerClass s.filtering).mapError .render
  return (TestClass.avoid taken classes).map fun t =>
    { t with scope := c.scope, comment := s.comment, style := s.style }

/-- What a run has done so far. -/
structure Progress where
  suites : Suites := []
  report : RunReport := {}

/-- Writes the test classes of one class. -/
def generateClass (k : Catalog) (s : Settings) (output : String) (p : Progress)
    (tested : ClassName) : Writing Progress := do
  let c ← Writing.step (Subject.ofSettings k s tested)
  let (indices, operations) ← Writing.step (c.sample s.plansPerOperation)
  let blocks ← Writing.step (c.blocksAt indices s.workers)
  let classes ← Writing.step (testClassesOf s c blocks (p.suites.namesOf tested.package))
  let paths ← classes.mapM fun t => Writing.file output t.sourceFile s.style
  let names := classes.map TestClass.name
  return {
    suites := if names.isEmpty then p.suites else p.suites.add tested.package names
    report :=
      { classes := p.report.classes ++ [c.classTally operations names]
        files := p.report.files ++ paths } }

/-- Writes the suite of one package. -/
def generateSuite (s : Settings) (output : String) (suite : String × List String) :
    Writing String :=
  Writing.file output (Suite.file suite.1 suite.2 s.comment s.style) s.style

/-- Writes the test classes of classes, and then the suites. -/
def generate (k : Catalog) (classes : List ClassName) (s : Settings) (output : String) :
    Writing RunReport := do
  let p ← classes.foldlM (generateClass k s output) {}
  let paths ← p.suites.sorted.mapM (generateSuite s output)
  return { p.report with files := p.report.files ++ paths }

end CallPlan
