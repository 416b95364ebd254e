import CallPlan.Decimal.Layout
import CallPlan.Signature.TypeExpr
import CallPlan.Text.Quoted

/-!
# Runtime values

The values that evaluating a plan can yield. Objects belong to whoever carries out the operations,
and are known here by a handle only.
-/

namespace CallPlan

/-- A runtime value. -/
inductive Value where
  /-- The result of an operation that has none. -/
  | void
  | null
  | boolean (b : Bool)
  | byte (n : Int8)
  | short (n : Int16)
  | char (c : Char)
  | int (n : Int32)
  | long (n : Int64)
  | float (x : Decimal.Binary32)
  | double (x : Decimal.Binary64)
  | string (s : String)
  | array (component : TypeExpr) (elements : List Value)
  | object (c : ClassName) (handle : UInt64)
deriving Repr

namespace Value

def isNull : Value → Bool
  | null => true
  | _ => false

/-- The word for the kind of value. -/
def kind : Value → String
  | void => "void"
  | null => "null"
  | boolean _ => "boolean"
  | byte _ => "byte"
  | short _ => "short"
  | char _ => "char"
  | int _ => "int"
  | long _ => "long"
  | float _ => "float"
  | double _ => "double"
  | string _ => "string"
  | array .. => "array"
  | object .. => "object"

mutual

/-- The value in the form that reports show. -/
def text : Value → String
  | void => "void"
  | null => "null"
  | boolean b => toString b
  | byte n => toString n.toInt
  | short n => toString n.toInt
  | char c => Text.quoteChar c
  | int n => toString n.toInt
  | long n => toString n.toInt
  | float x => Decimal.Layout.value.text x.decode
  | double x => Decimal.Layout.value.text x.decode
  | string s => Text.quoteString s
  | array _ elements => "\x7b" ++ ", ".intercalate (texts elements) ++ "\x7d"
  | object c handle => c.binaryName ++ "@" ++ String.ofList (Text.hexDigits handle.toNat)

/-- The forms of several values. -/
def texts : List Value → List String
  | [] => []
  | v :: vs => v.text :: texts vs

end

end Value

end CallPlan
