import CallPlan.Plan.Expression

/-!
# Evaluation of plans

A plan is evaluated from the inside out and from left to right, the implicit argument first. What a
call does is up to an executor, which may keep a state of its own; the state survives failures. The
first failure ends the evaluation.
-/

namespace CallPlan

/-- A failure that an operation raised. -/
structure Failure where
  /-- The type of the exception. -/
  exception : ClassName
  message : String
  /-- The stack frame that raised it, if known. -/
  raisedIn : Option String := none
deriving DecidableEq, Repr

/-- The failure in words. -/
def Failure.text (f : Failure) : String :=
  f.exception.binaryName ++
    (if f.message.isEmpty then "" else ": " ++ f.message) ++
    match f.raisedIn with
    | none => ""
    | some frame => " (at " ++ frame ++ ")"

/-- Why an evaluation yields no value. Operations and types are given as the executor names them. -/
inductive EvalError where
  /-- The operation was carried out and failed. -/
  | raised (operation : String) (failure : Failure)
  /-- The operation may not be used where the test is. -/
  | inaccessible (operation : String)
  /-- No instance of the type can be made. -/
  | notInstantiable (type message : String)
  /-- A variable has no value yet. -/
  | unbound (name : String)
deriving DecidableEq, Repr

/-- The reason in words. -/
def EvalError.message : EvalError → String
  | raised operation failure => operation ++ " raised " ++ failure.text
  | inaccessible operation => operation ++ " may not be invoked from the test context"
  | notInstantiable type message => "cannot instantiate " ++ type ++ ": " ++ message
  | unbound name => "variable `" ++ name ++ "` is read before it is bound"

/-- A computation that may fail, on top of a state that is kept in either case. -/
abbrev Evaluation (σ : Type) := ExceptT EvalError (StateM σ)

/-- Carries out an operation on its implicit argument and its other arguments. -/
abbrev Executor (σ : Type) := Operation → Option Value → List Value → Evaluation σ Value

/-- The values of local variables, the one bound last in front. -/
abbrev Locals := List (String × Value)

/-- The value of a variable. -/
def Locals.read {σ : Type} (locals : Locals) (v : Variable) : Evaluation σ Value :=
  match locals.lookup v.name with
  | some value => pure value
  | none => throw (.unbound v.name)

namespace Expression

variable {σ : Type}

mutual

/-- The value of an expression. -/
def evaluate (perform : Executor σ) (locals : Locals) : Expression → Evaluation σ Value
  | literal l => pure l.value
  | var v => locals.read v
  | call op implicit arguments => do
    let receiver ← evaluateImplicit perform locals implicit
    let values ← evaluateAll perform locals arguments
    perform op receiver values
  | array component components => do
    let values ← evaluateAll perform locals components
    return .array component values

/-- The value of an implicit argument, if there is one. -/
def evaluateImplicit (perform : Executor σ) (locals : Locals) :
    Option Expression → Evaluation σ (Option Value)
  | none => pure none
  | some e => do
    let value ← e.evaluate perform locals
    return some value

/-- The values of several expressions, from left to right. -/
def evaluateAll (perform : Executor σ) (locals : Locals) :
    List Expression → Evaluation σ (List Value)
  | [] => pure []
  | e :: es => do
    let value ← e.evaluate perform locals
    let values ← evaluateAll perform locals es
    return value :: values

end

end Expression

end CallPlan
