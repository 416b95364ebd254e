/-!
# The data of configuration documents

The data that a TOML document holds, and the views by which a program reads it: each view gives
`none` for data of another kind. Numbers with a fraction and points in time are kept as they are
written, since nothing computes with them.

A record can be written as a table or, with its fields in a fixed order, as an array. A point in
time passes for a record all of whose fields are left out.
-/

namespace CallPlan.Toml

/-- The data of a document. -/
inductive Datum where
  | text (s : String)
  | integer (n : Int)
  | decimal (written : String)
  | time (written : String)
  | boolean (b : Bool)
  | array (elements : List Datum)
  | table (fields : List (String × Datum))
deriving Repr, Inhabited

namespace Datum

def text? : Datum → Option String
  | text s => some s
  | _ => none

def boolean? : Datum → Option Bool
  | boolean b => some b
  | _ => none

/-- A number that counts something. -/
def count? : Datum → Option Nat
  | integer n => if 0 ≤ n then some n.toNat else none
  | _ => none

def array? : Datum → Option (List Datum)
  | array elements => some elements
  | _ => none

/-- An array all of whose elements are read by `read`. -/
def listOf? {α : Type} (read : Datum → Option α) (v : Datum) : Option (List α) := do
  (← v.array?).mapM read

/-- One word out of a fixed set: as a text, or as a table whose only field has the word for its name
and nothing in it. -/
def word? : Datum → Option String
  | text s => some s
  | table [(name, table [])] => some name
  | table [(name, array [])] => some name
  | _ => none

/-- The fields of a record whose fields have the given order. A point in time is a record that has
none of them. -/
def record? (order : List String) : Datum → Option (List (String × Datum))
  | table fields => some fields
  | array elements => some (order.zip elements)
  | time _ => some []
  | _ => none

end Datum

/-- A field that has to be there. -/
def required? {α : Type} (read : Datum → Option α) (name : String)
    (fields : List (String × Datum)) : Option α := do
  read (← fields.lookup name)

/-- A field with a default. -/
def optional? {α : Type} (read : Datum → Option α) (default : α) (name : String)
    (fields : List (String × Datum)) : Option α :=
  match fields.lookup name with
  | none => some default
  | some v => read v

end CallPlan.Toml
