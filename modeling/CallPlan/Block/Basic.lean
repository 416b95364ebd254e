import CallPlan.Block.NameSupply
import CallPlan.Plan.Evaluation
import CallPlan.Signature.Catalog

/-!
# Blocks

A block is the body of one test: statements that bind one local variable for every argument of an
operation and then carry out the operation on them.
-/

namespace CallPlan

/-- A statement of a block. -/
inductive Statement where
  /-- Declares a local variable and gives it a value. -/
  | bind (v : Variable) (value : Expression)
  /-- Evaluates an expression for its effect. -/
  | run (value : Expression)

/-- The source text of a statement in a scope. -/
def Statement.text (s : Scope) : Statement → String
  | .bind v value => v.type.nameIn s ++ " " ++ v.name ++ " = " ++ value.text s ++ ";"
  | .run value => value.text s ++ ";"

/-- Statements that test an operation, and the names they use. -/
structure Block where
  operation : Operation
  statements : List Statement
  names : NameSupply

namespace Block

/-- The block without statements. -/
def empty (op : Operation) : Block := ⟨op, [], .empty⟩

/-- Adds a statement at the end. -/
def push (b : Block) (s : Statement) : Block := { b with statements := b.statements ++ [s] }

/-- A variable of the type that the block does not use yet. -/
def freshVariable (b : Block) (t : TypeExpr) : Variable × Block :=
  let (name, names) := b.names.fresh t
  (⟨name, t⟩, { b with names })

/-- Binds a plan to a fresh variable of the type. -/
def bindPlan (b : Block) (t : TypeExpr) (plan : Expression) : Variable × Block :=
  let (v, b) := b.freshVariable t
  (v, b.push (.bind v plan))

/-- Binds plans to fresh variables, in order. -/
def bindPlans (b : Block) : List (TypeExpr × Expression) → List Variable × Block
  | [] => ([], b)
  | (t, plan) :: rest =>
    let (v, b) := b.bindPlan t plan
    let (vs, b) := bindPlans b rest
    (v :: vs, b)

/-- Adds the call of the operation. The instance that a constructor makes is bound to one more
variable. -/
def addCall (b : Block) (call : Expression) : Block :=
  if b.operation.isConstructor then (b.bindPlan b.operation.result call).2
  else b.push (.run call)

/-- The block that binds `plans` to variables and calls the operation on them. With an implicit
argument, its plan is the first. -/
def build (op : Operation) (implicit : Option Implicit) (plans : List Expression) :
    Except PlanError Block :=
  let types := implicit.toList.map Implicit.type ++ op.parameters
  if plans.length ≠ types.length then .error (.planCount op types.length plans.length)
  else
    let (locals, block) := (empty op).bindPlans (types.zip plans)
    let arguments := locals.map Expression.var
    let call := match implicit with
      | none => Expression.call? op none arguments
      | some _ => Expression.call? op arguments.head? arguments.tail
    call.map block.addCall

/-- The block for an operation with the implicit argument that the catalogue asks for. -/
def ofCatalog (k : Catalog) (op : Operation) (plans : List Expression) : Except PlanError Block :=
  build op (k.implicit? op) plans

/-- The texts of the statements. -/
def texts (b : Block) (s : Scope) : List String := b.statements.map (Statement.text s)

/-- Carries out statements in order. The value is that of the last one. -/
def runAll {σ : Type} (perform : Executor σ) (locals : Locals) (last : Value) :
    List Statement → Evaluation σ Value
  | [] => pure last
  | .bind v e :: rest => do
    let value ← e.evaluate perform locals
    runAll perform ((v.name, value) :: locals) value rest
  | .run e :: rest => do
    let value ← e.evaluate perform locals
    runAll perform locals value rest

/-- Carries out the block, starting with no variable bound. -/
def execute {σ : Type} (b : Block) (perform : Executor σ) : Evaluation σ Value :=
  runAll perform [] .void b.statements

end Block

end CallPlan
