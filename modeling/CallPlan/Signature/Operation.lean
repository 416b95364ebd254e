import CallPlan.Signature.TypeExpr

/-!
# Operations

Constructors and methods as a class declares them, and the access levels that decide who may use
them.
-/

namespace CallPlan

/-- The access level of a member, from the least to the most visible. -/
inductive Access where
  /-- Only the declaring type itself. -/
  | own
  /-- The declaring package; includes protected members. -/
  | package
  /-- Everyone. -/
  | global
deriving DecidableEq, Repr

namespace Access

/-- The word for the level. -/
def name : Access → String
  | .own => "private"
  | .package => "package"
  | .global => "global"

/-- The level that a word names. Two words name the widest level. -/
def ofName? : String → Option Access
  | "private" => some .own
  | "package" => some .package
  | "global" | "public" => some .global
  | _ => none

/-- How visible the level makes a member. -/
def rank : Access → Nat
  | .own => 0
  | .package => 1
  | .global => 2

/-- Whether a member of this level may be used by code that is granted `granted`. -/
def admits (member granted : Access) : Bool := granted.rank ≤ member.rank

end Access

/-- What only methods have besides their parameters. A constructor has no name of its own, yields
its class, and is neither static nor abstract. -/
inductive OperationKind where
  | constructor
  | method (name : String) (result : TypeExpr) (isStatic isAbstract : Bool)
deriving DecidableEq, Repr

/-- A constructor or method. -/
structure Operation where
  /-- The class that declares the operation. -/
  owner : ClassName
  kind : OperationKind
  parameters : List TypeExpr
  access : Access := .global
  /-- The failures that the operation declares. -/
  failures : List ClassName := []
deriving DecidableEq, Repr

namespace Operation

/-- The name that constructors go by. -/
def initializerName : String := "<init>"

def isConstructor (op : Operation) : Bool :=
  match op.kind with
  | .constructor => true
  | .method .. => false

/-- The name of a method, and the common name of constructors. -/
def name (op : Operation) : String :=
  match op.kind with
  | .constructor => initializerName
  | .method name .. => name

/-- The type of the value that the operation yields. -/
def result (op : Operation) : TypeExpr :=
  match op.kind with
  | .constructor => .named op.owner
  | .method _ result .. => result

/-- A constructor yields its class. -/
theorem result_eq_owner {op : Operation} (h : op.isConstructor = true) :
    op.result = .named op.owner := by
  obtain ⟨owner, kind, parameters, access, failures⟩ := op
  cases kind with
  | constructor => rfl
  | method => cases h

/-- Whether the operation is a method that needs no instance. -/
def isStatic (op : Operation) : Bool :=
  match op.kind with
  | .constructor => false
  | .method _ _ isStatic _ => isStatic

/-- Whether the operation is a method without a body. -/
def isAbstract (op : Operation) : Bool :=
  match op.kind with
  | .constructor => false
  | .method _ _ _ isAbstract => isAbstract

def arity (op : Operation) : Nat := op.parameters.length

/-- Class and name as stack frames give them. -/
def qualifiedName (op : Operation) : String := op.owner.binaryName ++ "." ++ op.name

/-- The qualified name with the parameter types. -/
def signature (op : Operation) : String :=
  op.qualifiedName ++ "(" ++ ", ".intercalate (op.parameters.map TypeExpr.qualifiedName) ++ ")"

end Operation

end CallPlan
