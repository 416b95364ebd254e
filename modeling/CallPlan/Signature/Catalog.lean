import CallPlan.Signature.Operation

/-!
# Catalogues

A catalogue lists types with their supertypes and operations. Each type occurs once; adding a type
again puts the new entry in the place of the old one. Every enumeration that a catalogue offers
follows the order of its entries.

Of an entry the catalogue demands that an inner type is a member type and that its operations are
its own. Supertypes need not be catalogued, and may be declared in circles.
-/

namespace CallPlan

/-- What kind of type an entry describes. -/
inductive EntryKind where
  | concrete
  | abstractClass
  | interface
deriving DecidableEq, Repr

/-- The word for the kind. -/
def EntryKind.name : EntryKind → String
  | .concrete => "class"
  | .abstractClass => "abstract"
  | .interface => "interface"

/-- The kind that a word names. -/
def EntryKind.ofName? : String → Option EntryKind
  | "class" => some .concrete
  | "abstract" => some .abstractClass
  | "interface" => some .interface
  | _ => none

/-- All that is known about one type. -/
structure Entry where
  name : ClassName
  kind : EntryKind := .concrete
  /-- Whether an instance of the enclosing type is needed to construct the type. -/
  inner : Bool := false
  supertypes : List ClassName := []
  operations : List Operation := []
deriving Repr

namespace Entry

/-- Abstract classes and interfaces cannot be constructed. -/
def isAbstract (e : Entry) : Bool := e.kind != .concrete

def constructors (e : Entry) : List Operation := e.operations.filter (·.isConstructor)

def methods (e : Entry) : List Operation := e.operations.filter (!·.isConstructor)

/-- An inner type is a member type, and all operations of an entry are declared by its type. -/
def WellFormed (e : Entry) : Prop :=
  (e.inner = true → e.name.isMember = true) ∧ ∀ op ∈ e.operations, op.owner = e.name

end Entry

/-- Why a catalogue cannot be built or does not answer. -/
inductive CatalogError where
  | badName (e : MalformedName)
  /-- An inner type that is not a member type. -/
  | innerTopLevel (name : ClassName)
  /-- An operation that is listed with another type than its own. -/
  | foreignOperation (name : ClassName) (op : Operation)
  /-- A method with a parameter without a type, in the entry of the type written `name`. -/
  | voidParameter (name method : String)
  | unknownType (name : ClassName)
  /-- A text that is no catalogue at all. -/
  | malformed
deriving Repr

/-- The error in words. -/
def CatalogError.message : CatalogError → String
  | .badName e => e.message
  | .innerTopLevel name =>
    "invalid entry for " ++ name.binaryName ++ ": only member types can be inner types"
  | .foreignOperation name op =>
    "invalid entry for " ++ name.binaryName ++ ": operation " ++ op.signature ++
      " is declared by another type"
  | .voidParameter name method =>
    "invalid entry for " ++ name ++ ": method " ++ method ++ " has a void parameter"
  | .unknownType name => "type " ++ name.binaryName ++ " is not in the catalogue"
  | .malformed => "failed to parse catalogue"

/-- The first reason why an entry cannot be added. -/
def Entry.fault? (e : Entry) : Option CatalogError :=
  if e.inner && !e.name.isMember then some (.innerTopLevel e.name)
  else (e.operations.find? (·.owner != e.name)).map (.foreignOperation e.name)

/-- An entry without a fault is well formed. -/
theorem Entry.wellFormed_of_fault? {e : Entry} (h : e.fault? = none) : e.WellFormed := by
  unfold Entry.fault? at h
  split at h
  · simp at h
  · rename_i hinner
    refine ⟨fun hi => by simpa [hi] using hinner, fun op hop => ?_⟩
    simpa using List.find?_eq_none.mp (Option.map_eq_none_iff.mp h) op hop

/-- Puts an entry in the place of the one of the same name, or else behind all others. -/
def Entry.putInto (e : Entry) : List Entry → List Entry
  | [] => [e]
  | d :: rest => if d.name = e.name then e :: rest else d :: e.putInto rest

/-- Putting in an entry brings in no other one. -/
theorem Entry.mem_putInto {e d : Entry} {es : List Entry} (h : d ∈ e.putInto es) :
    d = e ∨ d ∈ es := by
  induction es with
  | nil => simpa [putInto] using h
  | cons c rest ih =>
    simp only [putInto] at h
    split at h
    · rcases List.mem_cons.mp h with rfl | h
      · exact .inl rfl
      · exact .inr (List.mem_cons_of_mem _ h)
    · rcases List.mem_cons.mp h with rfl | h
      · exact .inr List.mem_cons_self
      · exact (ih h).imp id (List.mem_cons_of_mem _)

/-- Known names stay where they are, and a new one comes last. -/
theorem Entry.map_name_putInto (e : Entry) (es : List Entry) :
    (e.putInto es).map Entry.name =
      if e.name ∈ es.map Entry.name then es.map Entry.name else es.map Entry.name ++ [e.name] := by
  induction es with
  | nil => rfl
  | cons c rest ih =>
    by_cases h : c.name = e.name
    · simp [putInto, h]
    · have h' : e.name ≠ c.name := fun heq => h heq.symm
      simp only [putInto, h, if_false, List.map_cons, ih, List.mem_cons, h', false_or]
      split <;> simp

/-- Names that differ still differ with the entry put in. -/
theorem Entry.nodup_putInto {e : Entry} {es : List Entry} (h : (es.map Entry.name).Nodup) :
    ((e.putInto es).map Entry.name).Nodup := by
  rw [Entry.map_name_putInto]
  split
  · exact h
  · rename_i hne
    exact List.nodup_append.mpr
      ⟨h, by simp, fun a ha b hb hab => hne (List.mem_singleton.mp hb ▸ hab ▸ ha)⟩

/-- An ordered collection of entries, one for each type. -/
structure Catalog where
  entries : List Entry
  nodup : (entries.map Entry.name).Nodup
  wellFormed : ∀ e ∈ entries, e.WellFormed

namespace Catalog

/-- The catalogue without entries. -/
def empty : Catalog := ⟨[], by simp, by simp⟩

/-- Adds an entry, or says why not. -/
def add (k : Catalog) (e : Entry) : Except CatalogError Catalog :=
  match h : e.fault? with
  | some fault => .error fault
  | none =>
    .ok
      { entries := e.putInto k.entries
        nodup := Entry.nodup_putInto k.nodup
        wellFormed := fun d hd => by
          rcases Entry.mem_putInto hd with rfl | hd
          · exact Entry.wellFormed_of_fault? h
          · exact k.wellFormed d hd }

def size (k : Catalog) : Nat := k.entries.length

/-- The entry of a type. -/
def find? (k : Catalog) (c : ClassName) : Option Entry :=
  k.entries.find? fun e => e.name == c

/-- The entry of a type that has to be there. -/
def entryOf (k : Catalog) (c : ClassName) : Except CatalogError Entry :=
  match k.find? c with
  | some e => .ok e
  | none => .error (.unknownType c)

/-- Whether the type is known to be abstract or an interface. -/
def isAbstract (k : Catalog) (c : ClassName) : Bool :=
  match k.find? c with
  | some e => e.isAbstract
  | none => false

/-- Whether the type is known to need an instance of its enclosing type. -/
def isInner (k : Catalog) (c : ClassName) : Bool :=
  match k.find? c with
  | some e => e.inner
  | none => false

/-- The catalogued types of a package. -/
def typesOf (k : Catalog) (package : String) : List ClassName :=
  (k.entries.map Entry.name).filter (·.package == package)

/-- The operations that a type declares, as far as `granted` allows their use. -/
def usable (k : Catalog) (c : ClassName) (granted : Access) : List Operation :=
  match k.find? c with
  | some e => e.operations.filter (·.access.admits granted)
  | none => []

/-! ### Subtypes -/

/-- Takes the entry of a type out of a list of entries. -/
def withdraw (c : ClassName) : List Entry → Option (Entry × List Entry)
  | [] => none
  | e :: rest =>
    if e.name = c then some (e, rest)
    else (withdraw c rest).map fun (found, others) => (found, e :: others)

/-- Withdrawing takes one entry out. -/
theorem length_of_withdraw {c : ClassName} {es others : List Entry} {e : Entry}
    (h : withdraw c es = some (e, others)) : others.length + 1 = es.length := by
  induction es generalizing others with
  | nil => simp [withdraw] at h
  | cons d rest ih =>
    simp only [withdraw] at h
    split at h
    · simp_all
    · obtain ⟨⟨f, fs⟩, hf, heq⟩ := Option.map_eq_some_iff.mp h
      simp only [Prod.mk.injEq] at heq
      have := ih (by rw [hf, heq.1])
      simp [← heq.2, this]

/-- Whether `target` can be reached from one of the types in `pending` along declared supertypes.
The entry of a type is used up when the type is first met, so each is followed once. -/
def reaches (target : ClassName) (unused : List Entry) : List ClassName → Bool
  | [] => false
  | c :: pending =>
    if c = target then true
    else match taken : withdraw c unused with
      -- met before, or not catalogued at all
      | none => reaches target unused pending
      | some (e, others) =>
        have : others.length < unused.length := by have := length_of_withdraw taken; omega
        reaches target others (e.supertypes ++ pending)
termination_by pending => (unused.length, pending.length)

/-- Whether the first type is the second or declares it as a supertype, perhaps through others. -/
def isSubtype (k : Catalog) (sub super : ClassName) : Bool :=
  reaches super k.entries [sub]

/-- Whether a value of the first type can be assigned to the second without a conversion. -/
def assignable (k : Catalog) : TypeExpr → TypeExpr → Bool
  | .named sub, .named super =>
    (TypeExpr.named sub).alwaysFits (.named super) || k.isSubtype sub super
  | source, target => source.alwaysFits target

/-! ### Producers -/

/-- Whether an operation of an entry can be called for its result: constructors of types that can be
constructed, and methods with a body and a result. -/
def yieldsValue (e : Entry) (op : Operation) : Bool :=
  !op.isAbstract && if op.isConstructor then !e.isAbstract else !op.result.isVoid

/-- The operations of the catalogue whose result can be assigned to a type, as far as `granted`
allows their use. -/
def producers (k : Catalog) (t : TypeExpr) (granted : Access) : List Operation :=
  k.entries.flatMap fun e => e.operations.filter fun op =>
    op.access.admits granted && yieldsValue e op && k.assignable op.result t

end Catalog

/-! ### Implicit arguments -/

/-- The argument that an operation takes besides its parameters. -/
inductive Implicit where
  /-- The instance that a method is called on. -/
  | receiver (c : ClassName)
  /-- The instance that an inner type is constructed in. -/
  | enclosing (c : ClassName)
deriving DecidableEq, Repr

/-- The class of the implicit argument. -/
def Implicit.owner : Implicit → ClassName
  | .receiver c | .enclosing c => c

/-- The type of the implicit argument. -/
def Implicit.type (i : Implicit) : TypeExpr := .named i.owner

/-- The implicit argument of an operation: a receiver for instance methods, an enclosing instance
for constructors of inner types. -/
def Catalog.implicit? (k : Catalog) (op : Operation) : Option Implicit :=
  if op.isConstructor then
    if k.isInner op.owner then op.owner.enclosing?.map .enclosing else none
  else if op.isStatic then none
  else some (.receiver op.owner)

end CallPlan
