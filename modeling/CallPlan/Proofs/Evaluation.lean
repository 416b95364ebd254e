import CallPlan.Plan.Evaluation
import CallPlan.Proofs.Plans

/-!
# Evaluating plans

No plan for a type reads a local variable (`IsPlan.closed`), so what a plan evaluates to depends on
the executor alone (`Expression.Closed.evaluate_eq`). A call evaluates the expressions for its slots
from left to right, the implicit one first, and then asks the executor for its operation
(`Expression.evaluate_callOn`). An executor that is `recorded` keeps a list of all that it was asked
for.
-/

namespace CallPlan

/-! ### Closed expressions -/

namespace Expression

mutual

/-- No local variable is read in the expression. -/
def Closed : Expression → Prop
  | literal _ => True
  | var _ => False
  | call _ implicit arguments => ClosedImplicit implicit ∧ AllClosed arguments
  | array _ components => AllClosed components

/-- No local variable is read in the implicit argument, if there is one. -/
def ClosedImplicit : Option Expression → Prop
  | none => True
  | some e => e.Closed

/-- No local variable is read in any of the expressions. -/
def AllClosed : List Expression → Prop
  | [] => True
  | e :: es => e.Closed ∧ AllClosed es

end

theorem allClosed_iff {es : List Expression} : AllClosed es ↔ ∀ e ∈ es, e.Closed := by
  induction es with
  | nil => simp [AllClosed]
  | cons e es ih => simp [AllClosed, ih]

/-- A call is closed if the expressions for all its slots are. -/
theorem closed_callOn_iff {op : Operation} {implicit : Option Implicit} {plans : List Expression} :
    (Assembly.callOn op implicit plans).Closed ↔ AllClosed plans := by
  cases implicit <;> cases plans <;>
    simp [Assembly.callOn, Assembly.split, Closed, ClosedImplicit, AllClosed]

end Expression

/-- A plan for a type reads no local variable. -/
theorem IsPlan.closed {k : Catalog} {granted : Access} {budget : Nat} {type : TypeExpr}
    {demand : Demand} {e : Expression} (h : IsPlan k granted budget type demand e) : e.Closed := by
  refine IsPlan.induction ?seed ?array ?call h
  case seed =>
    intro budget type demand e hseed
    obtain ⟨l, rfl, -⟩ | ⟨component, -, rfl⟩ := TypeExpr.mem_seeds hseed
    · trivial
    · trivial
  case array => exact fun budget component demand e hclosed => ⟨hclosed, trivial⟩
  case call =>
    intro budget type demand op plans _ hplans
    rw [Expression.closed_callOn_iff, Expression.allClosed_iff]
    exact forall_mem_of_forall₂ hplans

namespace Expression

variable {σ : Type}

mutual

/-- What a closed expression evaluates to does not depend on local variables. -/
theorem Closed.evaluate_eq (perform : Executor σ) (locals : Locals) :
    ∀ {e : Expression}, e.Closed → e.evaluate perform locals = e.evaluate perform []
  | literal l, _ => by rw [evaluate, evaluate]
  | var v, h => h.elim
  | call op implicit arguments, h => by
    rw [evaluate, evaluate, ClosedImplicit.evaluateImplicit_eq perform locals h.1,
      AllClosed.evaluateAll_eq perform locals h.2]
  | array component components, h => by
    rw [evaluate, evaluate, AllClosed.evaluateAll_eq perform locals h]

theorem ClosedImplicit.evaluateImplicit_eq (perform : Executor σ) (locals : Locals) :
    ∀ {implicit : Option Expression}, ClosedImplicit implicit →
      evaluateImplicit perform locals implicit = evaluateImplicit perform [] implicit
  | none, _ => by rw [evaluateImplicit, evaluateImplicit]
  | some e, h => by
    rw [evaluateImplicit, evaluateImplicit, Closed.evaluate_eq perform locals h]

theorem AllClosed.evaluateAll_eq (perform : Executor σ) (locals : Locals) :
    ∀ {es : List Expression}, AllClosed es →
      evaluateAll perform locals es = evaluateAll perform [] es
  | [], _ => by rw [evaluateAll, evaluateAll]
  | e :: es, h => by
    rw [evaluateAll, evaluateAll, Closed.evaluate_eq perform locals h.1,
      AllClosed.evaluateAll_eq perform locals h.2]

end

/-! ### Calls -/

/-- There are as many values as expressions, and what is done with them may rely on that. -/
theorem evaluateAll_bind_congr {α : Type} {perform : Executor σ} {locals : Locals}
    {es : List Expression} {f g : List Value → Evaluation σ α}
    (h : ∀ values, values.length = es.length → f values = g values) :
    evaluateAll perform locals es >>= f = evaluateAll perform locals es >>= g := by
  induction es generalizing f g with
  | nil =>
    simp only [evaluateAll, pure_bind]
    exact h [] rfl
  | cons e es ih =>
    simp only [evaluateAll, bind_assoc, pure_bind]
    refine bind_congr fun value => ih fun values hlength => ?_
    exact h (value :: values) (by rw [List.length_cons, List.length_cons, hlength])

end Expression

/-- Asks for an operation, given the values for all its slots. With an implicit argument, its value
is the first. -/
def Executor.onSlots {σ : Type} (perform : Executor σ) (op : Operation) :
    Option Implicit → List Value → Evaluation σ Value
  | some _, receiver :: arguments => perform op (some receiver) arguments
  | _, arguments => perform op none arguments

/-- A call evaluates the expressions for its slots in order and then asks for its operation. -/
theorem Expression.evaluate_callOn {σ : Type} (perform : Executor σ) (locals : Locals)
    (op : Operation) (implicit : Option Implicit) (plans : List Expression) :
    (Assembly.callOn op implicit plans).evaluate perform locals =
      evaluateAll perform locals plans >>= perform.onSlots op implicit := by
  cases implicit <;> cases plans <;>
    simp [Assembly.callOn, Assembly.split, evaluate, evaluateImplicit, evaluateAll,
      Executor.onSlots]

/-! ### Keeping record -/

/-- An operation that an executor was asked for, with the values for its slots and what came of
it. -/
structure Event where
  operation : Operation
  implicit : Option Value
  arguments : List Value
  outcome : Except EvalError Value

/-- The executor that does the same and keeps record of it, the first event in front. -/
def Executor.recorded {σ : Type} (perform : Executor σ) : Executor (σ × List Event) :=
  fun op implicit arguments => ExceptT.mk fun (state, events) =>
    let (outcome, after) := (perform op implicit arguments).run.run state
    (outcome, after, events ++ [⟨op, implicit, arguments, outcome⟩])

end CallPlan
