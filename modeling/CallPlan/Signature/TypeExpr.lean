import CallPlan.Signature.Scope

/-!
# Types

The types that parameters, results and variables can have: nothing at all, the eight primitive
types, classes, and arrays of any of these. An array type is one step above its component type, so
a type has one representation only, and taking it apart into a leaf and a number of dimensions is a
view on it.
-/

namespace CallPlan

/-- The primitive types. -/
inductive Primitive where
  | boolean | byte | short | char | int | long | float | double
deriving DecidableEq, Hashable, Repr

namespace Primitive

/-- The word for the type. -/
def keyword : Primitive → String
  | .boolean => "boolean"
  | .byte => "byte"
  | .short => "short"
  | .char => "char"
  | .int => "int"
  | .long => "long"
  | .float => "float"
  | .double => "double"

/-- All primitive types. -/
def all : List Primitive := [.boolean, .byte, .short, .char, .int, .long, .float, .double]

/-- The type that a word names. -/
def ofKeyword? (word : String) : Option Primitive :=
  all.find? fun p => p.keyword == word

/-- The list leaves out no primitive type. -/
theorem mem_all (p : Primitive) : p ∈ all := by cases p <;> decide

end Primitive

/-- The type of a parameter, a result or a variable. -/
inductive TypeExpr where
  | void
  | primitive (p : Primitive)
  | named (c : ClassName)
  | array (component : TypeExpr)
deriving DecidableEq, Hashable, Repr

namespace TypeExpr

/-- The type of character strings. -/
def string : TypeExpr := .named (.core "String")

/-- The type that every reference can be assigned to. -/
def object : TypeExpr := .named (.core "Object")

def isVoid : TypeExpr → Bool
  | .void => true
  | _ => false

def isPrimitive : TypeExpr → Bool
  | .primitive _ => true
  | _ => false

def isArray : TypeExpr → Bool
  | .array _ => true
  | _ => false

/-- Whether variables of the type can hold `null`. -/
def isReference : TypeExpr → Bool
  | .named _ | .array _ => true
  | _ => false

def isString (t : TypeExpr) : Bool := t == string

def isObject (t : TypeExpr) : Bool := t == object

/-- The class, if the type is one. -/
def class? : TypeExpr → Option ClassName
  | .named c => some c
  | _ => none

/-- The component type of an array type. -/
def component? : TypeExpr → Option TypeExpr
  | .array component => some component
  | _ => none

/-! ### Leaf and dimensions -/

/-- What is left after all dimensions are taken off. -/
def leaf : TypeExpr → TypeExpr
  | .array component => component.leaf
  | t => t

/-- How many dimensions an array type has; none for other types. -/
def dimensions : TypeExpr → Nat
  | .array component => component.dimensions + 1
  | _ => 0

/-- `leaf` with that many dimensions put on. -/
def ofLeaf (leaf : TypeExpr) : Nat → TypeExpr
  | 0 => leaf
  | n + 1 => .array (ofLeaf leaf n)

/-- A leaf is never an array. -/
@[simp]
theorem isArray_leaf (t : TypeExpr) : t.leaf.isArray = false := by
  induction t <;> simp_all [leaf, isArray]

/-- A type is its leaf with its dimensions put on. -/
@[simp]
theorem ofLeaf_leaf_dimensions (t : TypeExpr) : ofLeaf t.leaf t.dimensions = t := by
  induction t <;> simp_all [leaf, dimensions, ofLeaf]

/-- What is no array is the leaf of every array that it is made into. -/
theorem leaf_ofLeaf {t : TypeExpr} (h : t.isArray = false) (n : Nat) : (ofLeaf t n).leaf = t := by
  induction n with
  | zero => cases t <;> simp_all [leaf, ofLeaf, isArray]
  | succ n ih => simpa [ofLeaf, leaf] using ih

/-- What is no array has the dimensions that are put on it and no others. -/
theorem dimensions_ofLeaf {t : TypeExpr} (h : t.isArray = false) (n : Nat) :
    (ofLeaf t n).dimensions = n := by
  induction n with
  | zero => cases t <;> simp_all [dimensions, ofLeaf, isArray]
  | succ n ih => simpa [ofLeaf, dimensions] using ih

/-! ### Written forms -/

/-- The type as source text in a scope. -/
def nameIn (s : Scope) : TypeExpr → String
  | .void => "void"
  | .primitive p => p.keyword
  | .named c => c.nameIn s
  | .array component => component.nameIn s ++ "[]"

/-- The type as source text outside every package. -/
def qualifiedName (t : TypeExpr) : String := t.nameIn Scope.outside

/-- The type with its class in binary form. -/
def binaryName : TypeExpr → String
  | .void => "void"
  | .primitive p => p.keyword
  | .named c => c.binaryName
  | .array component => component.binaryName ++ "[]"

/-- The number of bracket pairs at the end of a text and what stands in front of them. The text is
given from its end; white space may follow every bracket pair. -/
def takeBrackets : List Char → Nat × List Char
  | ']' :: '[' :: rest => let (n, base) := takeBrackets rest; (n + 1, base)
  | c :: rest => if Text.isBlank c then takeBrackets rest else (0, c :: rest)
  | [] => (0, [])

/-- Reads the form that `binaryName` writes, with white space around it and behind its parts. -/
def parse (text : String) : Except MalformedName TypeExpr :=
  let (n, reversed) := takeBrackets (Text.trimStart text.toList).reverse
  let base := String.ofList reversed.reverse
  if base = "void" then
    if n = 0 then .ok .void else .error ⟨text, .arrayOfVoid⟩
  else match Primitive.ofKeyword? base with
    | some p => .ok (ofLeaf (.primitive p) n)
    | none => (ClassName.parse base).map fun c => ofLeaf (.named c) n

/-! ### Assignability without a catalogue -/

/-- Assignability that holds whatever classes are related: to the same type, and of every reference
to the type of all objects. -/
def alwaysFits (source target : TypeExpr) : Bool :=
  source == target || (source.isReference && target.isObject)

/-- Whether a value may be assigned when nothing is known about the relation of two classes. Between
two classes it is taken to hold; arrays follow their components, primitive ones exactly. -/
def fits : TypeExpr → TypeExpr → Bool
  | .named _, .named _ => true
  | .array c, .array d =>
    if c.isPrimitive || d.isPrimitive then c == d else c.fits d
  | source, target => source.alwaysFits target

end TypeExpr

end CallPlan
