import CallPlan.Plan.Error
import CallPlan.Plan.Value
import CallPlan.Text.LiteralEscape

/-!
# Literals

The constants that plans are built from, with their source text and their value.
-/

namespace CallPlan

/-- A constant. The type of a `null` is kept, since it decides which operation a call means. -/
inductive Literal where
  | null (type : TypeExpr) (isReference : type.isReference = true)
  | boolean (b : Bool)
  | byte (n : Int8)
  | short (n : Int16)
  | char (c : Char)
  | int (n : Int32)
  | long (n : Int64)
  | float (x : Decimal.Binary32)
  | double (x : Decimal.Binary64)
  | string (s : String)
deriving DecidableEq, Repr

namespace Literal

/-- The `null` of a type, which must be a reference type. -/
def ofNull? (type : TypeExpr) : Except PlanError Literal :=
  if h : type.isReference = true then .ok (.null type h) else .error (.nullOfValueType type)

def type : Literal → TypeExpr
  | null type _ => type
  | boolean _ => .primitive .boolean
  | byte _ => .primitive .byte
  | short _ => .primitive .short
  | char _ => .primitive .char
  | int _ => .primitive .int
  | long _ => .primitive .long
  | float _ => .primitive .float
  | double _ => .primitive .double
  | string _ => .string

def isNull : Literal → Bool
  | null .. => true
  | _ => false

/-- Whether the source text starts with a cast, which does not bind as tightly as a member access
behind it. -/
def hasCast : Literal → Bool
  | null .. | byte _ | short _ => true
  | _ => false

/-- The value of the literal. -/
def value : Literal → Value
  | null .. => .null
  | boolean b => .boolean b
  | byte n => .byte n
  | short n => .short n
  | char c => .char c
  | int n => .int n
  | long n => .long n
  | float x => .float x
  | double x => .double x
  | string s => .string s

/-- A floating point literal. The values without digits are constants of the wrapper class. -/
def floatingText (x : Bool × Decimal.Magnitude) (wrapper suffix : String) : String :=
  match x with
  | (_, .notANumber) => wrapper ++ ".NaN"
  | (false, .infinite) => wrapper ++ ".POSITIVE_INFINITY"
  | (true, .infinite) => wrapper ++ ".NEGATIVE_INFINITY"
  | finite => Decimal.Layout.value.text finite ++ suffix

/-- The source text of the literal in a scope. -/
def text (s : Scope) : Literal → String
  | null type _ => "(" ++ type.nameIn s ++ ")null"
  | boolean b => toString b
  | byte n => "(byte)" ++ toString n.toInt
  | short n => "(short)" ++ toString n.toInt
  | char c => "'" ++ String.ofList (Text.escapeInChar c) ++ "'"
  | int n => toString n.toInt
  | long n => toString n.toInt ++ "L"
  | float x => floatingText x.decode "Float" "f"
  | double x => floatingText x.decode "Double" "d"
  | string t => "\"" ++ Text.escapeText t ++ "\""

end Literal

end CallPlan
