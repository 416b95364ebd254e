import CallPlan.Signature.ClassName

/-!
# Scopes

A scope says which types can be named without their package at some place of the source text. Inside
a package these are the package's own types and those of the core package, except that a type of
the package hides the implicit one of the same simple name.
-/

namespace CallPlan

/-- A place of the source text, as far as it decides how types are named there. -/
structure Scope where
  /-- The package that the place lies in, if it lies in one. -/
  package? : Option String
  /-- Simple names of the top-level types that the package is known to declare. -/
  declared : List String
deriving DecidableEq, Repr

namespace Scope

/-- No package: every type outside the default package is qualified. -/
def outside : Scope := ⟨none, []⟩

/-- Inside the package of a class, with none of the package's types known. -/
def besides (c : ClassName) : Scope := ⟨some c.package, []⟩

/-- Whether a type is a top-level type of the package. -/
def declares (package : String) (c : ClassName) : Bool :=
  c.package == package && !c.isMember

/-- Adds those of the types that the scope's package declares at top level. -/
def withTypes (s : Scope) (types : List ClassName) : Scope :=
  match s.package? with
  | none => s
  | some package =>
    { s with declared :=
        s.declared ++ (types.filter (declares package)).map ClassName.simpleName }

/-- Whether the type can be named here without its package. -/
def sees (s : Scope) (c : ClassName) : Bool :=
  c.inDefaultPackage ||
    match s.package? with
    | none => false
    | some package =>
      package == c.package ||
        (c.package == ClassName.corePackage && !s.declared.contains c.outermost)

end Scope

/-- The name of a type as source text in a scope. -/
def ClassName.nameIn (c : ClassName) (s : Scope) : String :=
  if s.sees c then ".".intercalate c.names else c.qualifiedName

/-- Outside every package a type is named by its qualified name. -/
@[simp]
theorem ClassName.nameIn_outside (c : ClassName) :
    c.nameIn Scope.outside = c.qualifiedName := by
  simp only [nameIn, Scope.sees, Scope.outside, qualifiedName, written, Bool.or_false]
  split <;> simp_all

end CallPlan
