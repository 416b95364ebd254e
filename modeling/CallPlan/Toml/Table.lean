import CallPlan.Toml.Datum

/-!
# Tables under construction

A document says piece by piece what its tables hold. A table comes into being in three ways, and how
it did decides how it may grow: by a header of its own, as a step on the path of another header, or
as a step on the path of a dotted key. No field is given twice, a table has one header at most, and
dotted keys only add to tables that dotted keys have made.
-/

namespace CallPlan.Toml

/-- How a table came into being. -/
inductive Origin where
  /-- By a header. -/
  | header
  /-- On the path of a header. -/
  | path
  /-- On the path of a dotted key. -/
  | dotted
deriving DecidableEq

/-- What a field of a table under construction holds. -/
inductive Node where
  /-- A finished value, which does not grow. -/
  | value (v : Datum)
  | table (origin : Origin) (fields : List (String × Node))
  /-- Tables under one header that is repeated for each of them, in order. -/
  | series (tables : List (List (String × Node)))

/-- The fields of a table under construction. -/
abbrev Fields := List (String × Node)

namespace Fields

/-- Replaces what a field holds; `none` stands for a field that is not there. -/
def change (name : String) (f : Option Node → Option Node) : Fields → Option Fields
  | [] => (f none).map fun node => [(name, node)]
  | (key, node) :: rest =>
    if key = name then (f (some node)).map fun node => (name, node) :: rest
    else (change name f rest).map ((key, node) :: ·)

/-- Changes the last table of a series. -/
def changeLast (f : Fields → Option Fields) : List Fields → Option (List Fields)
  | [] => none
  | [fields] => (f fields).map ([·])
  | fields :: rest => (changeLast f rest).map (fields :: ·)

/-- Gives a value to the field that a dotted key names: its last part in the table that the parts in
front of it lead to. -/
def insert (v : Datum) (key : String) : List String → Fields → Option Fields
  | [], fields => fields.change key fun
    | none => some (.value v)
    | some _ => none
  | part :: path, fields => fields.change part fun
    | none => (insert v key path []).map (.table .dotted)
    | some (.table origin inner) =>
      if origin = .header ∨ (path = [] ∧ origin = .path) then none
      else (insert v key path inner).map (.table origin)
    | some (.series tables) =>
      if path = [] then none else (changeLast (insert v key path) tables).map .series
    | some (.value _) => none

/-- Opens the table that a header names, or with `repeated` one more table of a series. -/
def openTable (repeated : Bool) : List String → Fields → Option Fields
  | [], _ => none
  | [key], fields => fields.change key fun
    | none => some (if repeated then .series [[]] else .table .header [])
    | some (.table .path inner) => if repeated then none else some (.table .header inner)
    | some (.series tables) => if repeated then some (.series (tables ++ [[]])) else none
    | some _ => none
  | part :: path, fields => fields.change part fun
    | none => (openTable repeated path []).map (.table .path)
    | some (.table origin inner) => (openTable repeated path inner).map (.table origin)
    | some (.series tables) => (changeLast (openTable repeated path) tables).map .series
    | some (.value _) => none

/-- Changes the table that was opened last under a header. -/
def within (f : Fields → Option Fields) : List String → Fields → Option Fields
  | [], fields => f fields
  | part :: path, fields => fields.change part fun
    | some (.table origin inner) => (within f path inner).map (.table origin)
    | some (.series tables) => (changeLast (within f path) tables).map .series
    | _ => none

end Fields

mutual

/-- The value that is built. -/
def Node.toDatum : Node → Datum
  | .value v => v
  | .table _ fields => .table (fieldData fields)
  | .series tables => .array (tableData tables)

/-- The values of several fields. -/
def fieldData : List (String × Node) → List (String × Datum)
  | [] => []
  | (key, node) :: rest => (key, node.toDatum) :: fieldData rest

/-- The values of several tables. -/
def tableData : List (List (String × Node)) → List Datum
  | [] => []
  | fields :: rest => .table (fieldData fields) :: tableData rest

end

end CallPlan.Toml
