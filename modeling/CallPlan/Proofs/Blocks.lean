import CallPlan.Block.Subject
import CallPlan.Proofs.Fitting
import CallPlan.Proofs.PlanTree
import Mathlib

/-!
# Building blocks

A block calls its operation on fresh variables, and these have the types that the operation wants.
So a block is built from any plans, as long as there are as many as the operation has slots
(`Block.build_eq_ok`).
-/

namespace CallPlan

namespace Block

/-- The types of an operation's slots. -/
def slotTypes (op : Operation) (implicit : Option Implicit) : List TypeExpr :=
  implicit.toList.map Implicit.type ++ op.parameters

/-- The variables that are bound to plans, and the block up to there. -/
def boundPlans (op : Operation) (implicit : Option Implicit) (plans : List Expression) :
    List Variable × Block :=
  (empty op).bindPlans ((slotTypes op implicit).zip plans)

/-- Variables for slots of the types, with numbers from `start` on. -/
def variablesFrom (start : Nat) (types : List TypeExpr) : List Variable :=
  (types.zipIdx start).map fun (t, number) => ⟨NameSupply.nameOf t.initial number, t⟩

theorem types_variablesFrom (start : Nat) (types : List TypeExpr) :
    (variablesFrom start types).map Variable.type = types := by
  simp [variablesFrom, Function.comp_def]

/-- Variables have the types of the slots and are numbered on from the names that the block uses. -/
theorem fst_bindPlans (b : Block) (entries : List (TypeExpr × Expression)) :
    (b.bindPlans entries).1 =
      variablesFrom (b.names.initials.length + 1) (entries.map Prod.fst) := by
  induction entries generalizing b with
  | nil => rfl
  | cons entry entries ih =>
    obtain ⟨t, plan⟩ := entry
    simp only [bindPlans, ih]
    rfl

/-- Plans are bound to variables with the types of the slots. -/
theorem types_boundPlans {op : Operation} {implicit : Option Implicit} {plans : List Expression}
    (h : plans.length = (slotTypes op implicit).length) :
    (boundPlans op implicit plans).1.map Variable.type = slotTypes op implicit := by
  rw [boundPlans, fst_bindPlans, types_variablesFrom, List.map_fst_zip h.ge]

theorem allFit_vars (locals : List Variable) :
    Expression.AllFit (locals.map .var) (locals.map Variable.type) := by
  rw [Expression.AllFit, List.forall₂_map_left_iff, List.forall₂_map_right_iff, List.forall₂_same]
  exact fun v _ => TypeExpr.fits_refl v.type

/-- A call on variables of the wanted types is built. -/
theorem call?_vars {op : Operation} {implicit : Option Implicit} {locals : List Variable}
    (htypes : locals.map Variable.type = slotTypes op implicit)
    (hreceiver : op.isConstructor = false → implicit.isSome = !op.isStatic) :
    Expression.call? op (Assembly.split implicit (locals.map .var)).1
        (Assembly.split implicit (locals.map .var)).2 =
      .ok (Assembly.callOn op implicit (locals.map .var)) := by
  cases implicit with
  | none =>
    have harguments := allFit_vars locals
    rw [htypes] at harguments
    exact Expression.call?_eq_ok harguments (by simp [Assembly.split]) hreceiver
  | some i =>
    cases locals with
    | nil => simp [slotTypes] at htypes
    | cons v locals =>
      obtain ⟨htype, hparameters⟩ := List.cons.inj htypes
      have harguments := allFit_vars locals
      rw [hparameters] at harguments
      refine Expression.call?_eq_ok harguments ?_ hreceiver
      rintro e ⟨⟩
      change v.type.isReference = true
      rw [htype]
      rfl

/-- With as many plans as there are slots, a block is built if the call on its variables is. -/
theorem build_eq_map_call? {op : Operation} {implicit : Option Implicit} {plans : List Expression}
    (hlength : plans.length = (slotTypes op implicit).length) :
    build op implicit plans =
      (Expression.call? op
        (Assembly.split implicit ((boundPlans op implicit plans).1.map .var)).1
        (Assembly.split implicit ((boundPlans op implicit plans).1.map .var)).2).map
        (boundPlans op implicit plans).2.addCall := by
  rw [build]
  refine (if_neg (not_not.mpr hlength)).trans ?_
  cases implicit with
  | none => rfl
  | some i =>
    have hsplit (es : List Expression) : Assembly.split (some i) es = (es.head?, es.tail) := by
      cases es <;> rfl
    rw [hsplit]
    rfl

/-- A block **is built** from as many plans as there are slots, if the operation has an implicit
argument exactly when it needs one. -/
theorem build_eq_ok {op : Operation} {implicit : Option Implicit} {plans : List Expression}
    (hlength : plans.length = (slotTypes op implicit).length)
    (hreceiver : op.isConstructor = false → implicit.isSome = !op.isStatic) :
    build op implicit plans =
      .ok ((boundPlans op implicit plans).2.addCall
        (Assembly.callOn op implicit ((boundPlans op implicit plans).1.map .var))) := by
  rw [build_eq_map_call? hlength, call?_vars (types_boundPlans hlength) hreceiver]
  rfl

end Block

end CallPlan
