import CallPlan.Plan.Literal

/-!
# Expressions

A plan is an expression: a literal, a local variable, the call of an operation on plans for its
arguments, or an array filled with plans for its components. `Expression.call?` and
`Expression.array?` build the last two and refuse parts that do not fit; everything else takes
expressions as they come.
-/

namespace CallPlan

/-- A local variable. -/
structure Variable where
  name : String
  type : TypeExpr
deriving DecidableEq, Repr

/-- A plan for one value. -/
inductive Expression where
  | literal (l : Literal)
  | var (v : Variable)
  /-- A call, with the implicit argument apart from the others. -/
  | call (op : Operation) (implicit : Option Expression) (arguments : List Expression)
  | array (component : TypeExpr) (components : List Expression)

namespace Expression

/-- The type that the expression is declared to have. -/
def type : Expression → TypeExpr
  | literal l => l.type
  | var v => v.type
  | call op _ _ => op.result
  | array component _ => .array component

/-! ### Source text -/

/-- Whether the text has to stand in parentheses in front of a member access. -/
def needsParentheses : Expression → Bool
  | literal l => l.hasCast
  | _ => false

/-- The text in front of a member access. -/
def asReceiver (e : Expression) (text : String) : String :=
  if e.needsParentheses then "(" ++ text ++ ")" else text

/-- The text of a call, given the texts of its parts. -/
def callText (s : Scope) (op : Operation) (receiver : Option String) (arguments : List String) :
    String :=
  let applied := "(" ++ ", ".intercalate arguments ++ ")"
  match op.kind, receiver with
  | .constructor, none => "new " ++ op.owner.nameIn s ++ applied
  | .constructor, some outer => outer ++ ".new " ++ op.owner.simpleName ++ applied
  | .method name _ _ _, none => op.owner.nameIn s ++ "." ++ name ++ applied
  | .method name _ _ _, some receiver => receiver ++ "." ++ name ++ applied

mutual

/-- The source text in a scope. -/
def text (s : Scope) : Expression → String
  | literal l => l.text s
  | var v => v.name
  | call op implicit arguments => callText s op (implicitText s implicit) (texts s arguments)
  | array component components =>
    "new " ++ component.nameIn s ++ "[]\x7b" ++ ", ".intercalate (texts s components) ++ "\x7d"

/-- The text of an implicit argument in front of the member access. -/
def implicitText (s : Scope) : Option Expression → Option String
  | none => none
  | some e => some (e.asReceiver (e.text s))

/-- The texts of several expressions. -/
def texts (s : Scope) : List Expression → List String
  | [] => []
  | e :: es => e.text s :: texts s es

end

/-- The source text outside every package. -/
def display (e : Expression) : String := e.text Scope.outside

/-! ### Nesting of calls -/

mutual

/-- How deep calls are nested, those in implicit arguments and array components included. -/
def nesting : Expression → Nat
  | literal _ => 0
  | var _ => 0
  | call _ implicit arguments => 1 + max (implicitNesting implicit) (greatestNesting arguments)
  | array _ components => greatestNesting components

/-- The depth of an implicit argument, if there is one. -/
def implicitNesting : Option Expression → Nat
  | none => 0
  | some e => e.nesting

/-- The greatest depth among several expressions. -/
def greatestNesting : List Expression → Nat
  | [] => 0
  | e :: es => max e.nesting (greatestNesting es)

end

/-! ### Checked construction -/

/-- The first of the expressions that may not be assigned to the type listed with it, with its
number and the two types. -/
def firstMisfit? (es : List Expression) (expected : List TypeExpr) :
    Option (Nat × TypeExpr × TypeExpr) :=
  let typed := (es.map Expression.type).zip expected
  (typed.zipIdx.find? fun entry => !entry.1.1.fits entry.1.2).map fun entry =>
    (entry.2, entry.1.1, entry.1.2)

/-- The call of an operation. The number of arguments must be the operation's, a static method takes
no receiver and any other method needs one, the implicit argument must be a reference, and every
argument must fit its parameter. A constructor may be given an enclosing instance or not. -/
def call? (op : Operation) (implicit : Option Expression) (arguments : List Expression) :
    Except PlanError Expression :=
  if arguments.length ≠ op.arity then .error (.argumentCount op arguments.length)
  else if !op.isConstructor && op.isStatic && implicit.isSome then .error (.receiverOfStatic op)
  else if !op.isConstructor && !op.isStatic && implicit.isNone then .error (.receiverMissing op)
  else match implicit.filter (!·.type.isReference) with
    | some receiver => .error (.receiverType op receiver.type)
    | none =>
      match firstMisfit? arguments op.parameters with
      | some (index, found, expected) => .error (.argumentType index op found expected)
      | none => .ok (.call op implicit arguments)

/-- The type that the components of a `dimensions`-dimensional array of `leaf` have. -/
def componentOf? (leaf : TypeExpr) (dimensions : Nat) : Except PlanError TypeExpr :=
  match dimensions with
  | 0 => .error (.noDimension leaf)
  | n + 1 => if leaf.isVoid || leaf.isArray then .error (.notALeaf leaf) else .ok (.ofLeaf leaf n)

/-- The type that the components of an array of type `type` have. -/
def componentOfArray? (type : TypeExpr) : Except PlanError TypeExpr :=
  componentOf? type.leaf type.dimensions

/-- An array filled with components, each of which must fit the component type. -/
def fill? (component : TypeExpr) (components : List Expression) : Except PlanError Expression :=
  match firstMisfit? components (List.replicate components.length component) with
  | some (index, found, expected) =>
    .error (.componentType index (.array component) found expected)
  | none => .ok (.array component components)

/-- An array of type `type`, filled with components. -/
def array? (type : TypeExpr) (components : List Expression) : Except PlanError Expression := do
  fill? (← componentOfArray? type) components

end Expression

end CallPlan
