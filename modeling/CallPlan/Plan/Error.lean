import CallPlan.Signature.Operation

/-!
# Why a plan cannot be built

Each reason is a constructor that holds what the reason is about; `PlanError.message` puts it into
words.
-/

namespace CallPlan

/-- The number of plan indices that one sample may hold at most. -/
def maxSample : Nat := 1 <<< 24

/-- Why a plan, a block or a sample cannot be built. -/
inductive PlanError where
  /-- A `null` of a type that has none. -/
  | nullOfValueType (type : TypeExpr)
  /-- An array type without a dimension. -/
  | noDimension (leaf : TypeExpr)
  /-- A type that arrays cannot have at the bottom. -/
  | notALeaf (leaf : TypeExpr)
  /-- A component that does not fit its array. -/
  | componentType (index : Nat) (array found expected : TypeExpr)
  | argumentCount (op : Operation) (given : Nat)
  /-- A receiver for a method that takes none. -/
  | receiverOfStatic (op : Operation)
  | receiverMissing (op : Operation)
  | receiverType (op : Operation) (found : TypeExpr)
  | argumentType (index : Nat) (op : Operation) (found expected : TypeExpr)
  /-- A call where no more calls may nest. -/
  | budgetSpent (op : Operation)
  | planCount (op : Operation) (needed given : Nat)
  /-- A class that is to be tested without any call. -/
  | noDepth (tested : ClassName)
  /-- A sample of `count` out of `size` plans. -/
  | sampleTooLarge (count size : Nat)
  | indexOutOfRange (index size : Nat)
deriving DecidableEq, Repr

/-- The reason in words. -/
def PlanError.message : PlanError → String
  | nullOfValueType type =>
    "invalid argument: null literal of non-reference type " ++ type.qualifiedName
  | noDimension leaf =>
    "invalid argument: array of " ++ leaf.qualifiedName ++ " needs at least one dimension"
  | notALeaf leaf =>
    "invalid argument: " ++ leaf.qualifiedName ++ " cannot be the leaf type of an array"
  | componentType index array found expected =>
    "invalid argument: component " ++ toString index ++ " of " ++ array.qualifiedName ++
      " has type " ++ found.qualifiedName ++ ", expected " ++ expected.qualifiedName
  | argumentCount op given =>
    "invalid argument: " ++ op.signature ++ " takes " ++ toString op.arity ++
      " arguments, got " ++ toString given
  | receiverOfStatic op =>
    "invalid argument: static method " ++ op.signature ++ " takes no receiver"
  | receiverMissing op =>
    "invalid argument: instance method " ++ op.signature ++ " needs a receiver"
  | receiverType op found =>
    "invalid argument: receiver of " ++ op.signature ++ " has non-reference type " ++
      found.qualifiedName
  | argumentType index op found expected =>
    "invalid argument: argument " ++ toString index ++ " of " ++ op.signature ++
      " has type " ++ found.qualifiedName ++ ", expected " ++ expected.qualifiedName
  | budgetSpent op =>
    "invalid argument: no recursion budget left to invoke " ++ op.signature
  | planCount op needed given =>
    "invalid argument: " ++ op.signature ++ " needs " ++ toString needed ++ " plans, got " ++
      toString given
  | noDepth tested =>
    "invalid argument: testing " ++ tested.qualifiedName ++ " needs a depth of at least 1"
  | sampleTooLarge count size =>
    "invalid argument: selecting " ++ toString count ++ " of " ++ toString size ++
      " plans exceeds " ++ toString maxSample ++ "; set a plan limit"
  | indexOutOfRange index size =>
    "plan index " ++ toString index ++ " is outside [0, " ++ toString size ++ ")"

end CallPlan
