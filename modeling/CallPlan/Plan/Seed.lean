import CallPlan.Plan.Expression

/-!
# Seeds

The seeds of a type are the plans at hand without any call: characteristic literals of primitive
types and strings, the empty array, and `null` for references. Where a receiver is needed `null` is
left out.
-/

namespace CallPlan

/-- Which plans are wanted for a type. -/
inductive Demand where
  | all
  /-- No literal `null`, as for receivers and enclosing instances. -/
  | nonNull
deriving DecidableEq, Hashable, Repr

/-- The literals that a primitive type offers, zero first for numbers. -/
def Primitive.seeds : Primitive → List Literal
  | .boolean => [.boolean true, .boolean false]
  | .byte => [.byte 0, .byte 1, .byte (-1)]
  | .short => [.short 0, .short 1, .short (-1)]
  | .char => [.char ' ', .char 'a', .char '\x00']
  | .int => [.int 0, .int 1, .int (-1)]
  | .long => [.long 0, .long 1, .long (-1)]
  | .float => [.float .zero, .float .one, .float .minusOne]
  | .double => [.double .zero, .double .one, .double .minusOne]

namespace TypeExpr

/-- The seeds of a type other than `null`. -/
def valueSeeds (t : TypeExpr) : List Expression :=
  match t with
  | .void => []
  | .primitive p => p.seeds.map .literal
  | .named _ => if t.isString then [.literal (.string ""), .literal (.string "hallo")] else []
  | .array component => if t.leaf.isVoid then [] else [.array component []]

/-- The `null` of a type as a plan, if the type has one. -/
def nullSeed (t : TypeExpr) : List Expression :=
  if h : t.isReference = true then [.literal (.null t h)] else []

/-- The **seeds** of a type, with `null` last where it is wanted. -/
def seeds (t : TypeExpr) (demand : Demand) : List Expression :=
  t.valueSeeds ++ if demand = .all then t.nullSeed else []

end TypeExpr

end CallPlan
