import CallPlan.Enumeration.PlanTree
import Std.Data.HashMap

/-!
# The plans that a catalogue offers

The tree of a type holds the seeds of the type, arrays with one component, and the calls of the
operations that produce the type. Calls nest at most as deep as a budget says: the slots of a call
are trees with a budget less by one, so budget and type together go down at every step, however the
types of the catalogue refer to each other.

The tree for a type, a demand and a budget is built once and shared.
-/

namespace CallPlan

/-- What decides on the tree of a type. -/
structure TreeKey where
  type : TypeExpr
  demand : Demand
  budget : Nat
deriving DecidableEq, Hashable, Repr

/-- The trees built so far. -/
abbrev Memo := Std.HashMap TreeKey PlanTree

/-- A computation that builds trees or finds them built. -/
abbrev Sharing := StateM Memo

namespace Sharing

/-- The tree for a key: the one built before, or else the one that `build` makes. -/
def remember (key : TreeKey) (build : Sharing PlanTree) : Sharing PlanTree := do
  match (← get).get? key with
  | some tree => return tree
  | none =>
    let tree ← build
    modify (·.insert key tree)
    return tree

/-- The types of an operation's slots, with the plans that are wanted for each. -/
def slotsOf (op : Operation) (implicit : Option Implicit) : List (TypeExpr × Demand) :=
  (implicit.toList.map fun i => (i.type, .nonNull)) ++ op.parameters.map fun t => (t, .all)

/-- The calls of an operation, with slots from `below`. -/
def calls (k : Catalog) (below : TypeExpr → Demand → Sharing PlanTree) (op : Operation) :
    Sharing Calls := do
  let implicit := k.implicit? op
  let slots ← (slotsOf op implicit).mapM fun (type, demand) => below type demand
  return ⟨op, implicit, slots⟩

/-- The alternatives for a type that call an operation. Operations without any call are left out. -/
def callAlternatives (k : Catalog) (granted : Access)
    (below : TypeExpr → Demand → Sharing PlanTree) (type : TypeExpr) :
    Sharing (List PlanTree) := do
  let found ← (k.producers type granted).mapM (calls k below)
  return (found.filter (·.size ≠ 0)).map Calls.toTree

/-- The alternative that lists the seeds, if there are any. -/
def seedAlternative (type : TypeExpr) (demand : Demand) : List PlanTree :=
  let plans := type.seeds demand
  if plans.isEmpty then [] else [.values type plans]

/-- The alternative of arrays with one component, if there are any. -/
def arrayAlternative (component : TypeExpr) (components : PlanTree) : List PlanTree :=
  let tree := PlanTree.product (.array component) [components]
  if tree.size = 0 then [] else [tree]

/-- The tree of a type, given the alternatives that call an operation. -/
def treeWith (budget : Nat) (called : TypeExpr → Sharing (List PlanTree)) :
    TypeExpr → Demand → Sharing PlanTree
  | .array component, demand =>
    remember ⟨.array component, demand, budget⟩ do
      let arrays ←
        if component.leaf.isVoid then pure []
        else
          let components ← treeWith budget called component .all
          pure (arrayAlternative component components)
      let rest ← called (.array component)
      return .sum (.array component) budget
        (seedAlternative (.array component) demand ++ arrays ++ rest)
  | type, demand =>
    remember ⟨type, demand, budget⟩ do
      let rest ← called type
      return .sum type budget (seedAlternative type demand ++ rest)

/-- The **tree of a type**: all plans whose calls nest at most `budget` deep and use operations
that `granted` admits. -/
def treeOf (k : Catalog) (granted : Access) : Nat → TypeExpr → Demand → Sharing PlanTree
  | 0 => treeWith 0 fun _ => pure []
  | budget + 1 =>
    treeWith (budget + 1) (callAlternatives k granted (treeOf k granted budget))

/-- The **calls of an operation** whose calls nest at most `budget` deep, the operation's own
included. -/
def callsOf (k : Catalog) (granted : Access) (op : Operation) :
    Nat → ExceptT PlanError Sharing Calls
  | 0 => throw (.budgetSpent op)
  | budget + 1 => calls k (treeOf k granted budget) op

end Sharing

end CallPlan
