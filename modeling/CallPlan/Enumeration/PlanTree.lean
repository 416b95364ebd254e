import CallPlan.Plan.Seed
import CallPlan.Signature.Catalog
import CallPlan.Enumeration.Counting

/-!
# Plan trees

A plan tree stands for a finite collection of plans. Its leaves list plans, its inner nodes join
alternatives or combine independent slots. `PlanTree.get` finds the plan of an index on its path
from the root, without laying out the others.

Every inner node keeps its size, because subtrees are shared and counting a tree afresh would visit
each of them once for every path that leads to it. `PlanTree.sum` and `PlanTree.product` are the
ways to build inner nodes; they fill in the size.
-/

namespace CallPlan

/-- How a combination puts one plan for each slot together. -/
inductive Assembly where
  /-- A call; if there is an implicit argument it is the first slot. -/
  | operation (op : Operation) (implicit : Option Implicit)
  /-- An array with one component for each slot. -/
  | array (component : TypeExpr)
deriving DecidableEq, Repr

namespace Assembly

/-- The type of what is put together. -/
def type : Assembly → TypeExpr
  | operation op _ => op.result
  | array component => .array component

/-- Puts plans together. With an implicit argument, its plan is the first. -/
def build? (a : Assembly) (plans : List Expression) : Except PlanError Expression :=
  match a, plans with
  | operation op (some _), receiver :: arguments => Expression.call? op (some receiver) arguments
  | operation op _, arguments => Expression.call? op none arguments
  | array component, components => Expression.fill? component components

end Assembly

/-- A tree that stands for a collection of plans. -/
inductive PlanTree where
  /-- The listed plans. -/
  | values (type : TypeExpr) (plans : List Expression)
  /-- The plans of all children, one child after the other. -/
  | alternatives (type : TypeExpr) (budget size : Nat) (children : List PlanTree)
  /-- What comes of one plan of each slot. -/
  | combination (assembly : Assembly) (size : Nat) (slots : List PlanTree)

namespace PlanTree

/-- The number of plans, cut off at `maxCount`. -/
def size : PlanTree → Nat
  | values _ plans => plans.length
  | alternatives _ _ size _ => size
  | combination _ size _ => size

/-- The type that the plans are for. -/
def type : PlanTree → TypeExpr
  | values type _ => type
  | alternatives type _ _ _ => type
  | combination assembly _ _ => assembly.type

/-- The index ranges of several trees. -/
def indexRanges (trees : List PlanTree) : IndexRanges := ⟨trees.map size⟩

/-- Alternatives for one type. -/
def sum (type : TypeExpr) (budget : Nat) (children : List PlanTree) : PlanTree :=
  .alternatives type budget (indexRanges children).size children

/-- A combination of independent slots. -/
def product (assembly : Assembly) (slots : List PlanTree) : PlanTree :=
  .combination assembly (productOf (slots.map size)) slots

/-- A sum has the indices of all its children, as far as they can be counted. -/
@[simp]
theorem size_sum (type : TypeExpr) (budget : Nat) (children : List PlanTree) :
    (sum type budget children).size = (indexRanges children).size := rfl

/-- A product has an index for every choice of one plan for each slot, as far as these can be
counted. -/
@[simp]
theorem size_product (assembly : Assembly) (slots : List PlanTree) :
    (product assembly slots).size = productOf (slots.map size) := rfl

mutual

/-- The plan at an index. -/
def get : PlanTree → Nat → Except PlanError Expression
  | values _ plans, index =>
    match plans[index]? with
    | some plan => .ok plan
    | none => .error (.indexOutOfRange index plans.length)
  | alternatives _ _ _ children, index => do
    let (child, offset) ← (indexRanges children).locate index
    getFrom children child offset
  | combination assembly size slots, index =>
    if index < size then do
      let plans ← getAll slots (digitsOf index (slots.map PlanTree.size))
      assembly.build? plans
    else
      .error (.indexOutOfRange index size)

/-- The plan at an index of the numbered child. -/
def getFrom : List PlanTree → Nat → Nat → Except PlanError Expression
  | [], _, index => .error (.indexOutOfRange index 0)
  | child :: _, 0, index => child.get index
  | _ :: rest, number + 1, index => getFrom rest number index

/-- One plan of each slot, at an index of its own. -/
def getAll : List PlanTree → List Nat → Except PlanError (List Expression)
  | slot :: rest, index :: indices => do
    let plan ← slot.get index
    let plans ← getAll rest indices
    return plan :: plans
  | _, _ => .ok []

end

end PlanTree

/-- The calls of one operation: its implicit argument, if it takes one, and a tree for each of its
slots. -/
structure Calls where
  operation : Operation
  implicit : Option Implicit
  slots : List PlanTree

namespace Calls

/-- The number of calls, cut off at `maxCount`. -/
def size (c : Calls) : Nat := productOf (c.slots.map PlanTree.size)

/-- The calls as a plan tree. -/
def toTree (c : Calls) : PlanTree := .product (.operation c.operation c.implicit) c.slots

/-- One plan for each slot, for the call at an index. -/
def parts (c : Calls) (index : Nat) : Except PlanError (List Expression) :=
  if index < c.size then
    PlanTree.getAll c.slots (digitsOf index (c.slots.map PlanTree.size))
  else
    .error (.indexOutOfRange index c.size)

end Calls

end CallPlan
