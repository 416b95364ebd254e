import CallPlan.Block.Basic
import CallPlan.Enumeration.Sharing

/-!
# Subjects of tests

A subject is a class with all blocks that test its operations. The blocks are numbered through from
zero: first those of the first operation, then those of the second, and so on. Operations without
any block are left out.
-/

namespace CallPlan

/-- A class with the calls of its tested operations. -/
structure Subject where
  tested : ClassName
  /-- How tests beside the class name types. -/
  scope : Scope
  /-- How deep calls may nest, the tested one included. -/
  depth : Nat
  calls : List Calls

namespace Subject

/-- Whether an operation of a class can be tested: it has a body, and its instances can be made if
it is a constructor. -/
def isTestable (k : Catalog) (tested : ClassName) (op : Operation) : Bool :=
  !op.isAbstract && !(op.isConstructor && k.isAbstract tested)

/-- The subject for a class. Its operations are tested as far as `grantedTested` admits
them, their arguments are made with operations that `grantedUsed` admits. -/
def ofCatalog (k : Catalog) (tested : ClassName) (depth : Nat)
    (grantedTested grantedUsed : Access) : Except PlanError Subject :=
  if depth = 0 then .error (.noDepth tested)
  else
    let operations := (k.usable tested grantedTested).filter (isTestable k tested)
    let build : ExceptT PlanError Sharing (List Calls) :=
      operations.mapM fun op => Sharing.callsOf k grantedUsed op depth
    (build.run.run ∅).1.map fun calls =>
      { tested
        scope := (Scope.besides tested).withTypes (k.typesOf tested.package)
        depth
        calls := calls.filter (·.size ≠ 0) }

/-- The index ranges of the operations. -/
def indexRanges (c : Subject) : IndexRanges := ⟨c.calls.map Calls.size⟩

/-- The number of blocks, cut off at `maxCount`. -/
def size (c : Subject) : Nat := c.indexRanges.size

/-- The tested operations with start and end of their index ranges. -/
def operationRanges (c : Subject) : List (Operation × Nat × Nat) :=
  (c.calls.map Calls.operation).zip c.indexRanges.ranges

/-- The block that carries out one of the calls of an operation. -/
def blockOf (calls : Calls) (offset : Nat) : Except PlanError Block := do
  let plans ← calls.parts offset
  Block.build calls.operation calls.implicit plans

/-- The block at an index. -/
def get (c : Subject) (index : Nat) : Except PlanError Block := do
  let (child, offset) ← c.indexRanges.locate index
  match c.calls[child]? with
  | some calls => blockOf calls offset
  | none => .error (.indexOutOfRange index c.size)

end Subject

end CallPlan
