import CallPlan.Signature.TypeExpr

/-!
# Names of local variables

A local variable is named by the first letter of its type and a number. The numbers of one supply
count up over all letters, so no two of its names are equal.
-/

namespace CallPlan

/-- The first letter of a type's simple name or keyword in lower case; arrays go by their leaf.
Names that start with anything but a letter of the basic alphabet share one letter. -/
def TypeExpr.initial (t : TypeExpr) : Char :=
  let word := match t.leaf with
    | .named c => c.simpleName
    | other => other.binaryName
  match word.toList with
  | c :: _ => if c.isAlpha then c.toLower else 'v'
  | [] => 'v'

/-- The letters of the names given out so far, the last one first. -/
structure NameSupply where
  initials : List Char
deriving DecidableEq, Repr

namespace NameSupply

/-- No name given out yet. -/
def empty : NameSupply := ⟨[]⟩

/-- The letter and the number as a name. -/
def nameOf (initial : Char) (number : Nat) : String :=
  String.ofList (initial :: (toString number).toList)

/-- A name for a variable of the type, and the supply afterwards. -/
def fresh (n : NameSupply) (t : TypeExpr) : String × NameSupply :=
  (nameOf t.initial (n.initials.length + 1), ⟨t.initial :: n.initials⟩)

/-- How many names were given out with these letters in front of the number. -/
def countOf (n : NameSupply) (letters : String) : Nat :=
  n.initials.countP fun c => letters.toList == [c]

end NameSupply

end CallPlan
