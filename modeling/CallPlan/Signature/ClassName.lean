import CallPlan.Text.Blank
import CallPlan.Text.Identifier

/-!
# Names of classes and interfaces

A class name is a package and the chain of simple names from the outermost type down to the type
itself. It is written in two forms that differ in the separator of the chain: the binary form
`pkg.Outer$Inner`, which stack frames use and which is read back by `ClassName.parse`, and the
qualified form `pkg.Outer.Inner`, which is source text.
-/

namespace CallPlan

/-- The name of a class or interface. The default package is the empty one. -/
structure ClassName where
  package : String
  /-- Simple name of the top-level type. -/
  outermost : String
  /-- Simple names of the member types below it, outermost first. -/
  members : List String := []
deriving DecidableEq, Hashable, Repr

/-- What is wrong with the text of a type. -/
inductive NameFault where
  | empty
  | malformedPackage
  | malformedSimpleName
  | arrayOfVoid
deriving DecidableEq, Repr

/-- A text that names no type. -/
structure MalformedName where
  text : String
  fault : NameFault
deriving DecidableEq, Repr

/-- The fault in words. -/
def NameFault.message : NameFault → String
  | .empty => "empty type name"
  | .malformedPackage => "malformed package"
  | .malformedSimpleName => "malformed simple name"
  | .arrayOfVoid => "array of void"

/-- The error in words. -/
def MalformedName.message (e : MalformedName) : String :=
  "invalid type name `" ++ e.text ++ "`: " ++ e.fault.message

namespace ClassName

/-- The package whose types are visible everywhere without qualification. -/
def corePackage : String := "java.lang"

/-- The top-level type of a package. -/
def topLevel (package simpleName : String) : ClassName := ⟨package, simpleName, []⟩

/-- A type of the core package. -/
def core (simpleName : String) : ClassName := topLevel corePackage simpleName

/-- The member type of that simple name. -/
def member (c : ClassName) (simpleName : String) : ClassName :=
  { c with members := c.members ++ [simpleName] }

/-- All simple names, outermost first. -/
def names (c : ClassName) : List String := c.outermost :: c.members

/-- The simple name of the type itself. -/
def simpleName (c : ClassName) : String := c.members.getLast?.getD c.outermost

/-- Whether the type is in the default package. -/
def inDefaultPackage (c : ClassName) : Bool := c.package.isEmpty

/-- Whether the type is declared inside another one. -/
def isMember (c : ClassName) : Bool := !c.members.isEmpty

/-- The type that declares a member type. -/
def enclosing? (c : ClassName) : Option ClassName :=
  if c.isMember then some { c with members := c.members.dropLast } else none

/-- Package and simple names with a separator between the simple names. -/
def written (c : ClassName) (separator : String) : String :=
  let chain := separator.intercalate c.names
  if c.inDefaultPackage then chain else c.package ++ "." ++ chain

/-- The form `pkg.Outer$Inner`. -/
def binaryName (c : ClassName) : String := c.written "$"

/-- The form `pkg.Outer.Inner`. -/
def qualifiedName (c : ClassName) : String := c.written "."

/-! ### Reading binary names -/

/-- The package that the segments in front of the last dot spell. A single empty segment, from a dot
in front of the name, is the default package. -/
def packageOfSegments? (segments : List (List Char)) : Option String :=
  if segments = [[]] ∨ segments.all Text.isIdentifier then
    some (".".intercalate (segments.map String.ofList))
  else
    none

/-- The simple names between the dollar signs. -/
def chainOfText? (text : List Char) : Option (String × List String) :=
  match text.splitOn '$' with
  | [] => none
  | outermost :: members =>
    if (outermost :: members).all Text.isIdentifier then
      some (String.ofList outermost, members.map String.ofList)
    else
      none

/-- Reads the binary form, with white space around it. -/
def parse (text : String) : Except MalformedName ClassName :=
  let trimmed := Text.trim text.toList
  let segments := trimmed.splitOn '.'
  if trimmed.isEmpty then
    .error ⟨text, .empty⟩
  else match packageOfSegments? segments.dropLast with
    | none => .error ⟨text, .malformedPackage⟩
    | some package =>
      match chainOfText? (segments.getLast?.getD []) with
      | none => .error ⟨text, .malformedSimpleName⟩
      | some (outermost, members) => .ok ⟨package, outermost, members⟩

/-! ### Basic facts -/

@[simp]
theorem names_topLevel (p s : String) : (topLevel p s).names = [s] := rfl

/-- The type that declares a member is the one it was formed from. -/
@[simp]
theorem enclosing?_member (c : ClassName) (s : String) : (c.member s).enclosing? = some c := by
  simp [enclosing?, member, isMember]

end ClassName

end CallPlan
