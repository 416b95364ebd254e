import CallPlan.Signature.Catalog
import CallPlan.Toml.Document

/-!
# Catalogue files

The written form of a catalogue is a document with a list `types`. A text is read in two steps. The
first reads the document into records and settles whether it is a catalogue at all; types of
parameters and results are read here. The second makes an entry of each record, in order, and adds
it; class names are read here, and what is wrong with them or with the entry is said precisely.
-/

namespace CallPlan

open Toml (Datum required? optional?)

/-- What constructors and methods are both described by. -/
structure OperationRecord where
  parameters : List TypeExpr
  access : Access
  throws : List String

/-- A method as it is described. -/
structure MethodRecord extends OperationRecord where
  name : String
  result : TypeExpr
  isStatic : Bool
  isAbstract : Bool

/-- A type as it is described. -/
structure TypeRecord where
  name : String
  kind : EntryKind
  inner : Bool
  supertypes : List String
  constructors : List OperationRecord
  methods : List MethodRecord

/-! ### Reading records -/

/-- A type, given by its name. -/
def readType? (v : Datum) : Option TypeExpr := do
  (TypeExpr.parse (← v.text?)).toOption

/-- An access level, given by its word. -/
def readAccess? (v : Datum) : Option Access := do
  Access.ofName? (← v.word?)

/-- The kind of an entry, given by its word. -/
def readEntryKind? (v : Datum) : Option EntryKind := do
  EntryKind.ofName? (← v.word?)

/-- The fields that constructors and methods share. -/
def OperationRecord.ofFields? (fields : List (String × Datum)) : Option OperationRecord := do
  let parameters ← optional? (Datum.listOf? readType?) [] "params" fields
  let access ← optional? readAccess? .global "visibility" fields
  let throws ← optional? (Datum.listOf? Datum.text?) [] "throws" fields
  return { parameters, access, throws }

/-- A constructor. -/
def OperationRecord.ofDatum? (v : Datum) : Option OperationRecord := do
  ofFields? (← v.record? ["params", "visibility", "throws"])

/-- A method. Only its name has to be given. -/
def MethodRecord.ofDatum? (v : Datum) : Option MethodRecord := do
  let fields ← v.record?
    ["name", "params", "returns", "static", "abstract", "visibility", "throws"]
  let name ← required? Datum.text? "name" fields
  let result ← optional? readType? .void "returns" fields
  let isStatic ← optional? Datum.boolean? false "static" fields
  let isAbstract ← optional? Datum.boolean? false "abstract" fields
  let shared ← OperationRecord.ofFields? fields
  return { shared with name, result, isStatic, isAbstract }

/-- A type. Only its name has to be given. -/
def TypeRecord.ofDatum? (v : Datum) : Option TypeRecord := do
  let fields ← v.record? ["name", "kind", "inner", "supertypes", "constructors", "methods"]
  let name ← required? Datum.text? "name" fields
  let kind ← optional? readEntryKind? .concrete "kind" fields
  let inner ← optional? Datum.boolean? false "inner" fields
  let supertypes ← optional? (Datum.listOf? Datum.text?) [] "supertypes" fields
  let constructors ← optional? (Datum.listOf? OperationRecord.ofDatum?) [] "constructors" fields
  let methods ← optional? (Datum.listOf? MethodRecord.ofDatum?) [] "methods" fields
  return { name, kind, inner, supertypes, constructors, methods }

/-- The types of a document. -/
def readTypes? (text : String) : Option (List TypeRecord) := do
  optional? (Datum.listOf? TypeRecord.ofDatum?) [] "types" (← Toml.parse text)

/-! ### Making entries -/

/-- Class names out of their texts. -/
def readNames (texts : List String) : Except CatalogError (List ClassName) :=
  texts.mapM fun text => (ClassName.parse text).mapError .badName

/-- The constructor of a class. -/
def OperationRecord.toConstructor (r : OperationRecord) (owner : ClassName) :
    Except CatalogError Operation := do
  let failures ← readNames r.throws
  return { owner, kind := .constructor, parameters := r.parameters, access := r.access, failures }

/-- The method of a class whose name is written `ownerText`. -/
def MethodRecord.toMethod (r : MethodRecord) (ownerText : String) (owner : ClassName) :
    Except CatalogError Operation := do
  if r.parameters.any TypeExpr.isVoid then throw (.voidParameter ownerText r.name)
  let failures ← readNames r.throws
  let kind := .method r.name r.result r.isStatic r.isAbstract
  return { owner, kind, parameters := r.parameters, access := r.access, failures }

/-- The entry of a type, its constructors in front of its methods. -/
def TypeRecord.toEntry (r : TypeRecord) : Except CatalogError Entry := do
  let name ← (ClassName.parse r.name).mapError .badName
  let supertypes ← readNames r.supertypes
  let constructors ← r.constructors.mapM (·.toConstructor name)
  let methods ← r.methods.mapM (·.toMethod r.name name)
  return { name, kind := r.kind, inner := r.inner, supertypes,
           operations := constructors ++ methods }

/-- Adds the entry of a type. -/
def Catalog.addRecord (k : Catalog) (r : TypeRecord) : Except CatalogError Catalog := do
  k.add (← r.toEntry)

/-- Reads a catalogue file. -/
def Catalog.parse (text : String) : Except CatalogError Catalog :=
  match readTypes? text with
  | none => .error .malformed
  | some records => records.foldlM addRecord .empty

end CallPlan
