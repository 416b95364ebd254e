import CallPlan.Plan.Evaluation

/-!
# Verdicts on failures

A failure that turns up while an operation is tested counts against the operation unless something
else explains it: the test itself could not be carried out, the operation declares the failure, the
test harness raised it, or the operation itself rejected its arguments or its state.
-/

namespace CallPlan

/-- Whether a failure is part of what an operation promises. -/
inductive Verdict where
  | expected
  /-- The operation is likely to have a defect. -/
  | unexpected
deriving DecidableEq, Repr

/-- Frames of the test harness start with one of these. -/
def harnessRoots : List String := ["junit.", "edu.gatech.cc.junit."]

/-- Simple names of the exceptions, all of the core package, by which an operation rejects a
call. -/
def rejectionNames : List String := ["IllegalArgumentException", "IllegalStateException"]

/-- Whether an exception says that a call was not allowed. -/
def isRejection (exception : ClassName) : Bool :=
  exception.package == ClassName.corePackage && rejectionNames.contains exception.simpleName

/-- Whether a frame belongs to the test harness. -/
def isHarnessFrame (frame : String) : Bool :=
  harnessRoots.any fun package => package.toList.isPrefixOf frame.toList

/-- Whether a failure that `op` raised is accounted for. -/
def Operation.accountsFor (op : Operation) (f : Failure) : Bool :=
  op.failures.contains f.exception ||
    match f.raisedIn with
    | none => false
    | some frame => isHarnessFrame frame || (frame == op.qualifiedName && isRejection f.exception)

/-- The **verdict** on a failure that turned up while `op` was tested. -/
def Operation.judge (op : Operation) : EvalError → Verdict
  | .raised _ failure => if op.accountsFor failure then .expected else .unexpected
  | .inaccessible _ => .expected
  | .notInstantiable .. => .expected
  | .unbound _ => .unexpected

end CallPlan
