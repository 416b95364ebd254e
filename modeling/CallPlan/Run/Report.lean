import CallPlan.Run.Json

/-!
# Reports

What a run has found or done: for every class the tally of its operations, that is how many plans
each has and how many of them are in the sample, then the test classes, and at last the files.
-/

namespace CallPlan

/-- The plans of one operation. -/
structure OperationTally where
  operation : String
  plans : Nat
  /-- How many plans the sample holds. -/
  selected : Nat
deriving DecidableEq, Repr

/-- The plans of one class. -/
structure ClassTally where
  tested : String
  depth : Nat
  plans : Nat
  operations : List OperationTally
  /-- The test classes that were written for the class. -/
  testClasses : List String
deriving DecidableEq, Repr

/-- What a generating run has done. -/
structure RunReport where
  classes : List ClassTally := []
  files : List String := []
deriving DecidableEq, Repr

/-- The number of generated tests. -/
def RunReport.numberOfTests (r : RunReport) : Nat :=
  ((r.classes.flatMap ClassTally.operations).map OperationTally.selected).foldl (· + ·) 0

/-! ### As text -/

/-- The line of an operation. -/
def OperationTally.line (f : OperationTally) : String :=
  "  " ++ Text.alignLeft 48 f.operation ++ " " ++ Text.alignRight 20 (toString f.plans) ++
    " plans, " ++ toString f.selected ++ " selected"

/-- The lines of a class. -/
def ClassTally.lines (c : ClassTally) : List String :=
  [c.tested ++ " (depth " ++ toString c.depth ++ "): " ++ toString c.plans ++ " plans"] ++
    c.operations.map OperationTally.line ++
    if c.testClasses.isEmpty then [] else ["  -> " ++ ", ".intercalate c.testClasses]

/-- The text of several classes. -/
def ClassTally.textOf (classes : List ClassTally) : String :=
  "\n".intercalate (classes.flatMap ClassTally.lines)

/-- The text of a generating run. -/
def RunReport.summary (r : RunReport) : String :=
  ClassTally.textOf r.classes ++ "\nWrote " ++ toString r.numberOfTests ++ " tests in " ++
    toString r.files.length ++ " files"

/-! ### As data -/

def OperationTally.toJson (f : OperationTally) : Json :=
  .object [("operation", .text f.operation), ("plans", .number f.plans),
    ("selected", .number f.selected)]

def ClassTally.toJson (c : ClassTally) : Json :=
  .object [("class", .text c.tested), ("depth", .number c.depth), ("plans", .number c.plans),
    ("functions", .list (c.operations.map OperationTally.toJson)),
    ("test_classes", .list (c.testClasses.map .text))]

/-- The data of several classes. -/
def ClassTally.jsonOf (classes : List ClassTally) : Json :=
  .list (classes.map ClassTally.toJson)

def RunReport.toJson (r : RunReport) : Json :=
  .object [("classes", .list (r.classes.map ClassTally.toJson)),
    ("files", .list (r.files.map .text))]

end CallPlan
