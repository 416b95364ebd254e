import CallPlan.Proofs.Steps
import CallPlan.Proofs.TypeReading
import CallPlan.Signature.CatalogFile

/-!
# What catalogue files hold

A catalogue file lists types, each with its constructors and methods. If the file is accepted, each
listed type has become an entry that it describes, and the entries of the catalogue are those that
no later one of the same class replaces (`Catalog.exists_describes_of_parse`).

The entries of such a catalogue are sound, up to one thing. Inner types are member types, operations
are those of their entries, no type is an array of nothing, and no method has a parameter without a
type; files that say otherwise are rejected. But the parameters of constructors are not looked at,
and one without a type is let through (`Catalog.wellFormed_of_parse_and_rejects`).
-/

namespace CallPlan

/-! ### What is replaced -/

section

variable {α β κ : Type} [DecidableEq κ] {key : α → κ} {as : List α}

/-- The elements that no later one with the same key **replaces**. -/
def latest (key : α → κ) (as : List α) : List α :=
  as.pwFilter fun earlier later => key earlier ≠ key later

/-- A key that none of the latest elements has is one that no element has. -/
theorem forall_mem_latest_iff {a : α} :
    (∀ b ∈ latest key as, key a ≠ key b) ↔ ∀ b ∈ as, key a ≠ key b := by
  refine List.forall_mem_pwFilter (fun hxz => ?_) a as
  by_contra! hsame
  exact hxz (hsame.1.trans hsame.2)

/-- The first element is one of the latest unless a later one has its key. -/
theorem latest_cons (a : α) (as : List α) :
    latest key (a :: as) =
      if ∀ b ∈ as, key a ≠ key b then a :: latest key as else latest key as := by
  split_ifs with h
  · exact List.pwFilter_cons_of_pos (forall_mem_latest_iff.mpr h)
  · exact List.pwFilter_cons_of_neg fun hlatest => h (forall_mem_latest_iff.mp hlatest)

/-- Lists that are related element by element stay so without what is replaced in them, if related
elements agree on which keys are the same. -/
theorem forall₂_latest {κ' : Type} [DecidableEq κ'] {R : α → β → Prop} {key' : β → κ'}
    {bs : List β} (h : List.Forall₂ R as bs)
    (hkey : ∀ a b c d, R a b → R c d → (key a = key c ↔ key' b = key' d)) :
    List.Forall₂ R (latest key as) (latest key' bs) := by
  induction h with
  | nil => exact .nil
  | @cons a b as bs hab hrest ih =>
    have hsame : (∀ c ∈ as, key a ≠ key c) ↔ ∀ d ∈ bs, key' b ≠ key' d :=
      forall_mem_iff_of_forall₂ hrest fun c d hcd => not_congr (hkey a b c d hab hcd)
    rw [latest_cons, latest_cons, if_congr hsame rfl rfl]
    split_ifs
    · exact .cons hab ih
    · exact ih

end

/-! ### Fields of records -/

namespace Toml

/-- Data by name. -/
abbrev Record := List (String × Datum)

/-- The elements of the array that a record has under a name. -/
def listed (name : String) (fields : Record) : List Datum :=
  ((fields.lookup name).bind Datum.array?).getD []

/-- The texts among the elements. -/
def texts (name : String) (fields : Record) : List String :=
  (listed name fields).filterMap Datum.text?

/-- The records among the elements, whose fields have the given order. -/
def records (order : List String) (name : String) (fields : Record) : List Record :=
  (listed name fields).filterMap (Datum.record? order)

variable {α β : Type} {name : String} {fields : Record} {read : Datum → Option α}

/-- A field with a default is left out, or has been read. -/
theorem optional?_eq_some_iff {default a : α} :
    optional? read default name fields = some a ↔
      fields.lookup name = none ∧ a = default ∨
        ∃ v, fields.lookup name = some v ∧ read v = some a := by
  unfold optional?
  cases fields.lookup name <;> simp [eq_comm]

/-- The elements of a field that is read are read one by one; a field that is left out has none. -/
theorem forall₂_listed {as : List α} (h : optional? (Datum.listOf? read) [] name fields = some as) :
    List.Forall₂ (fun v a => read v = some a) (listed name fields) as := by
  rw [listed]
  rcases optional?_eq_some_iff.mp h with ⟨hnone, rfl⟩ | ⟨v, hv, hlist⟩
  · rw [hnone]
    exact .nil
  · obtain ⟨elements, helements, hread⟩ := Option.bind_eq_some_iff.mp hlist
    rw [hv, Option.bind_some, helements, Option.getD_some]
    exact mapM_eq_some_iff.mp hread

theorem Datum.text?_eq_some_iff {v : Datum} {s : String} : v.text? = some s ↔ v = .text s := by
  cases v <;> simp [Datum.text?]

/-- If reading an element starts with a view on it, then the list is read off these views. -/
theorem forall₂_filterMap_listed {view : Datum → Option β} {R : β → α → Prop} {as : List α}
    (h : optional? (Datum.listOf? read) [] name fields = some as)
    (hview : ∀ v a, read v = some a → ∃ b, view v = some b ∧ R b a) :
    List.Forall₂ R ((listed name fields).filterMap view) as := by
  have hviews : Relator.LiftFun (fun v a => read v = some a) (Option.Rel R) view some := by
    intro v a hread
    obtain ⟨b, hb, hR⟩ := hview v a hread
    rw [hb]
    exact .some hR
  -- nothing is left out, because what is read has a view
  have hrel := List.rel_filterMap hviews (forall₂_listed h)
  rwa [List.filterMap_some] at hrel

end Toml

/-! ### Texts of nothing -/

namespace TypeExpr

variable {text : String} {t : TypeExpr}

/-- A text is the word for nothing. -/
def WritesVoid (text : String) : Prop := stem text = "void" ∧ bracketPairs text = 0

/-- A text is the word for nothing with bracket pairs behind it. -/
def WritesVoidArray (text : String) : Prop := stem text = "void" ∧ bracketPairs text ≠ 0

instance (text : String) : Decidable (WritesVoid text) := inferInstanceAs (Decidable (_ ∧ _))

instance (text : String) : Decidable (WritesVoidArray text) := inferInstanceAs (Decidable (_ ∧ _))

theorem IsWordFor.eq_of_void {word : String} (h : IsWordFor word .void) : word = "void" := by
  cases h
  rfl

/-- A text is read as `void` exactly if it is the word for it, without bracket pairs. -/
theorem parse_eq_ok_void_iff : parse text = .ok .void ↔ WritesVoid text := by
  rw [parse_eq_ok_iff]
  constructor
  · rintro ⟨hword, hpairs, -⟩
    exact ⟨hword.eq_of_void, hpairs.symm⟩
  · rintro ⟨hstem, hpairs⟩
    exact ⟨hstem ▸ .void, hpairs.symm, fun _ => rfl⟩

/-- A text that is read is not that of an array of nothing. -/
theorem not_writesVoidArray_of_parse (h : parse text = .ok t) : ¬ WritesVoidArray text := by
  rintro ⟨hvoid, hpairs⟩
  rw [parse_eq, if_pos hvoid, if_neg hpairs] at h
  cases h

/-- The texts are **read** as the types. -/
def AreRead (texts : List String) (ts : List TypeExpr) : Prop :=
  List.Forall₂ (fun text t => parse text = .ok t) texts ts

variable {texts : List String} {ts : List TypeExpr}

/-- Where texts are read as types, one of the texts is the word for nothing exactly if one of the
types is `void`. -/
theorem AreRead.exists_writesVoid_iff (h : AreRead texts ts) :
    (∃ text ∈ texts, WritesVoid text) ↔ .void ∈ ts := by
  have hnone : (∀ text ∈ texts, ¬ WritesVoid text) ↔ ∀ t ∈ ts, .void ≠ t :=
    forall_mem_iff_of_forall₂ h fun text t hread => by
      rw [← parse_eq_ok_void_iff, hread, Except.ok.injEq, eq_comm]
  rw [List.forall_mem_ne] at hnone
  simpa using not_congr hnone

/-- None of the texts that are read is that of an array of nothing. -/
theorem AreRead.not_writesVoidArray (h : AreRead texts ts) :
    ∀ text ∈ texts, ¬ WritesVoidArray text :=
  forall_mem_of_forall₂ (h.flip.imp fun _ _ hread => not_writesVoidArray_of_parse hread)

theorem AreRead.dimensions_eq_zero (h : AreRead texts ts) :
    ∀ t ∈ ts, t.leaf = .void → t.dimensions = 0 :=
  forall_mem_of_forall₂ (h.imp fun _ _ hread => (parse_eq_ok_iff.mp hread).2.2)

end TypeExpr

/-! ### What a file lists -/

namespace CatalogFile

open Toml (Record Datum texts records)

/-- The **types** that a text lists. -/
def listedTypes (text : String) : List Record :=
  records ["name", "kind", "inner", "supertypes", "constructors", "methods"] "types"
    ((Toml.parse text).getD [])

/-- The constructors that a type lists. -/
def listedConstructors (type : Record) : List Record :=
  records ["params", "visibility", "throws"] "constructors" type

/-- The methods that a type lists. -/
def listedMethods (type : Record) : List Record :=
  records ["name", "params", "returns", "static", "abstract", "visibility", "throws"] "methods" type

/-- The class that a type is. -/
def className? (type : Record) : Option ClassName := do
  (ClassName.parse (← (← type.lookup "name").text?)).toOption

/-- Whether a type is called an inner one. -/
def isInner (type : Record) : Bool := ((type.lookup "inner").bind Datum.boolean?).getD false

/-- The text of the type that a method yields. -/
def resultText (method : Record) : String :=
  ((method.lookup "returns").bind Datum.text?).getD "void"

/-- An operation lists parameters of these types. -/
abbrev HasParameters (operation : Record) (ts : List TypeExpr) : Prop :=
  TypeExpr.AreRead (texts "params" operation) ts

/-- An operation lists a parameter without a type. -/
def TakesVoid (operation : Record) : Prop :=
  ∃ text ∈ texts "params" operation, TypeExpr.WritesVoid text

instance (operation : Record) : Decidable (TakesVoid operation) := List.decidableBEx _ _

/-- What is **wrong with a type** in a file: it is called an inner type and is no member type, or it
lists a method with a parameter without a type, or an operation with an array of nothing. -/
inductive IsAtFault (type : Record) : Prop
  | innerTopLevel {c : ClassName} (name : className? type = some c) (inner : isInner type = true)
      (topLevel : c.isMember = false)
  | voidParameter {method : Record} (listed : method ∈ listedMethods type) (void : TakesVoid method)
  | arrayOfVoid {operation : Record} {text : String}
      (listed : operation ∈ listedConstructors type ++ listedMethods type)
      (parameter : text ∈ texts "params" operation) (void : TypeExpr.WritesVoidArray text)
  | resultArrayOfVoid {method : Record} (listed : method ∈ listedMethods type)
      (void : TypeExpr.WritesVoidArray (resultText method))

/-! ### Types as they are read -/

section

variable {v : Datum} {fields type : Record}

/-- A type is read from a text only. -/
theorem exists_text_of_readType? {t : TypeExpr} (h : readType? v = some t) :
    ∃ text, v.text? = some text ∧ TypeExpr.parse text = .ok t := by
  obtain ⟨text, htext, h⟩ := Option.bind_eq_some_iff.mp h
  refine ⟨text, htext, ?_⟩
  cases hparse : TypeExpr.parse text with
  | error fault =>
    rw [hparse] at h
    cases h
  | ok u =>
    rw [hparse] at h
    exact congrArg Except.ok (Option.some.inj h)

/-- An operation that is read has the parameters that its fields list. -/
theorem hasParameters_of_ofFields? {r : OperationRecord}
    (h : OperationRecord.ofFields? fields = some r) : HasParameters fields r.parameters := by
  obtain ⟨parameters, hparameters, h⟩ := Option.bind_eq_some_iff.mp h
  obtain ⟨access, -, h⟩ := Option.bind_eq_some_iff.mp h
  obtain ⟨throws, -, h⟩ := Option.bind_eq_some_iff.mp h
  obtain rfl := Option.some.inj h
  exact Toml.forall₂_filterMap_listed hparameters fun v t => exists_text_of_readType?

/-- What a method yields is read from its text, which is the word for nothing if the field is left
out. -/
theorem parse_resultText {t : TypeExpr}
    (h : Toml.optional? readType? .void "returns" fields = some t) :
    TypeExpr.parse (resultText fields) = .ok t := by
  rw [resultText]
  rcases Toml.optional?_eq_some_iff.mp h with ⟨hnone, rfl⟩ | ⟨v, hv, hread⟩
  · rw [hnone]
    rfl
  · obtain ⟨text, htext, hparse⟩ := exists_text_of_readType? hread
    rw [hv, Option.bind_some, htext, Option.getD_some, hparse]

/-- A type is an inner one if it is called one, and is not if the field is left out. -/
theorem isInner_eq {inner : Bool}
    (h : Toml.optional? Datum.boolean? false "inner" type = some inner) : isInner type = inner := by
  rw [isInner]
  rcases Toml.optional?_eq_some_iff.mp h with ⟨hnone, rfl⟩ | ⟨v, hv, hread⟩
  · rw [hnone]
    rfl
  · rw [hv, Option.bind_some, hread, Option.getD_some]

/-- A method's record has the types that its fields give. -/
structure IsMethod (method : Record) (r : MethodRecord) : Prop where
  parameters : HasParameters method r.parameters
  result : TypeExpr.parse (resultText method) = .ok r.result

/-- What is read as a method is a record, and gives its types. -/
theorem exists_isMethod {r : MethodRecord} (h : MethodRecord.ofDatum? v = some r) :
    ∃ method, v.record?
        ["name", "params", "returns", "static", "abstract", "visibility", "throws"] = some method ∧
      IsMethod method r := by
  obtain ⟨method, hmethod, h⟩ := Option.bind_eq_some_iff.mp h
  obtain ⟨name, -, h⟩ := Option.bind_eq_some_iff.mp h
  obtain ⟨result, hresult, h⟩ := Option.bind_eq_some_iff.mp h
  obtain ⟨isStatic, -, h⟩ := Option.bind_eq_some_iff.mp h
  obtain ⟨isAbstract, -, h⟩ := Option.bind_eq_some_iff.mp h
  obtain ⟨shared, hshared, h⟩ := Option.bind_eq_some_iff.mp h
  obtain rfl := Option.some.inj h
  exact ⟨method, hmethod, hasParameters_of_ofFields? hshared, parse_resultText hresult⟩

/-- The record of a type has the name that its fields give, and what they list. -/
structure IsType (type : Record) (r : TypeRecord) : Prop where
  name : type.lookup "name" = some (.text r.name)
  inner : isInner type = r.inner
  constructors : List.Forall₂ (fun constructor c => HasParameters constructor c.parameters)
    (listedConstructors type) r.constructors
  methods : List.Forall₂ IsMethod (listedMethods type) r.methods

/-- What is read as a type is a record, and gives its name and its operations. -/
theorem exists_isType {r : TypeRecord} (h : TypeRecord.ofDatum? v = some r) :
    ∃ type, v.record? ["name", "kind", "inner", "supertypes", "constructors", "methods"] =
        some type ∧ IsType type r := by
  obtain ⟨type, htype, h⟩ := Option.bind_eq_some_iff.mp h
  obtain ⟨name, hname, h⟩ := Option.bind_eq_some_iff.mp h
  obtain ⟨kind, -, h⟩ := Option.bind_eq_some_iff.mp h
  obtain ⟨inner, hinner, h⟩ := Option.bind_eq_some_iff.mp h
  obtain ⟨supertypes, -, h⟩ := Option.bind_eq_some_iff.mp h
  obtain ⟨constructors, hconstructors, h⟩ := Option.bind_eq_some_iff.mp h
  obtain ⟨methods, hmethods, h⟩ := Option.bind_eq_some_iff.mp h
  obtain rfl := Option.some.inj h
  refine ⟨type, htype, ?_, isInner_eq hinner, ?_, ?_⟩
  · obtain ⟨w, hw, hname⟩ := Option.bind_eq_some_iff.mp hname
    rw [hw, Datum.text?_eq_some_iff.mp hname]
  · refine Toml.forall₂_filterMap_listed hconstructors fun w c hc => ?_
    obtain ⟨fields, hfields, hc⟩ := Option.bind_eq_some_iff.mp hc
    exact ⟨fields, hfields, hasParameters_of_ofFields? hc⟩
  · exact Toml.forall₂_filterMap_listed hmethods fun w m => exists_isMethod

/-- A file that is read lists the types that are read, in order. -/
theorem forall₂_isType {text : String} {rs : List TypeRecord} (h : readTypes? text = some rs) :
    List.Forall₂ IsType (listedTypes text) rs := by
  obtain ⟨document, hdocument, h⟩ := Option.bind_eq_some_iff.mp h
  rw [listedTypes, hdocument]
  exact Toml.forall₂_filterMap_listed h fun v r => exists_isType

end

/-! ### Entries as they are made -/

section

variable {owner : ClassName} {op : Operation}

/-- A listed constructor becomes one with the same parameters, whatever these are. -/
theorem of_toConstructor_eq_ok {c : OperationRecord} (h : c.toConstructor owner = .ok op) :
    op.isConstructor = true ∧ op.parameters = c.parameters := by
  obtain ⟨failures, -, h⟩ := exists_of_bind_eq_ok h
  obtain rfl := Except.ok.inj h
  exact ⟨rfl, rfl⟩

/-- A listed method becomes one with the same parameters and result, unless one of the parameters
has no type. -/
theorem of_toMethod_eq_ok {m : MethodRecord} {ownerText : String}
    (h : m.toMethod ownerText owner = .ok op) :
    op.isConstructor = false ∧ op.parameters = m.parameters ∧ op.result = m.result ∧
      .void ∉ op.parameters := by
  rw [MethodRecord.toMethod] at h
  split_ifs at h with hvoid
  · cases h
  · obtain ⟨failures, -, h⟩ := exists_of_bind_eq_ok h
    obtain rfl := Except.ok.inj h
    refine ⟨rfl, rfl, rfl, fun hmem => hvoid ?_⟩
    exact List.any_eq_true.mpr ⟨.void, hmem, rfl⟩

/-- A listed method **describes** an operation, which has no parameter without a type. -/
structure DescribesMethod (method : Record) (op : Operation) : Prop where
  parameters : HasParameters method op.parameters
  result : TypeExpr.parse (resultText method) = .ok op.result
  noVoid : .void ∉ op.parameters

/-- A listed type **describes** an entry: it has the name of the entry, is an inner type if the
entry is one, and lists the constructors and the methods of the entry in order. -/
structure Describes (type : Record) (e : Entry) : Prop where
  name : className? type = some e.name
  inner : isInner type = e.inner
  constructors : List.Forall₂ (fun constructor op => HasParameters constructor op.parameters)
    (listedConstructors type) e.constructors
  methods : List.Forall₂ DescribesMethod (listedMethods type) e.methods

/-- What is put together of constructors and methods is taken apart again. -/
theorem filter_isConstructor_append {constructors methods : List Operation}
    (hconstructors : ∀ op ∈ constructors, op.isConstructor = true)
    (hmethods : ∀ op ∈ methods, op.isConstructor = false) :
    (constructors ++ methods).filter (·.isConstructor) = constructors ∧
      (constructors ++ methods).filter (!·.isConstructor) = methods := by
  have hconstructors' : ∀ op ∈ constructors, ¬ (!op.isConstructor) = true :=
    fun op hop => by simp [hconstructors op hop]
  have hmethods' : ∀ op ∈ methods, (!op.isConstructor) = true :=
    fun op hop => by simp [hmethods op hop]
  rw [List.filter_append, List.filter_append, List.filter_eq_self.mpr hconstructors,
    List.filter_eq_nil_iff.mpr hconstructors', List.filter_eq_self.mpr hmethods',
    List.filter_eq_nil_iff.mpr (by simpa using hmethods)]
  exact ⟨List.append_nil _, List.nil_append _⟩

/-- A type describes the entry that it becomes. -/
theorem describes_of_toEntry {type : Record} {r : TypeRecord} {e : Entry} (h : IsType type r)
    (he : r.toEntry = .ok e) : Describes type e := by
  obtain ⟨name, hname, he⟩ := exists_of_bind_eq_ok he
  obtain ⟨supertypes, -, he⟩ := exists_of_bind_eq_ok he
  obtain ⟨constructors, hconstructors, he⟩ := exists_of_bind_eq_ok he
  obtain ⟨methods, hmethods, he⟩ := exists_of_bind_eq_ok he
  obtain rfl := Except.ok.inj he
  rw [mapM_eq_ok_iff] at hconstructors hmethods
  -- both kinds of operations stand in one list, but are told apart by their kind
  have hapart := filter_isConstructor_append
    (forall_mem_of_forall₂ (hconstructors.imp fun c op hop => (of_toConstructor_eq_ok hop).1))
    (forall_mem_of_forall₂ (hmethods.imp fun m op hop => (of_toMethod_eq_ok hop).1))
  refine ⟨?_, h.inner, ?_, ?_⟩
  · rw [className?, h.name]
    exact congrArg Except.toOption (eq_ok_of_mapError_eq_ok hname)
  · rw [Entry.constructors, hapart.1]
    exact forall₂_comp h.constructors hconstructors fun fields c op hc hop =>
      (of_toConstructor_eq_ok hop).2 ▸ hc
  · rw [Entry.methods, hapart.2]
    refine forall₂_comp h.methods hmethods fun fields m op hm hop => ?_
    obtain ⟨-, hparameters, hresult, hvoid⟩ := of_toMethod_eq_ok hop
    exact ⟨hparameters ▸ hm.parameters, hresult ▸ hm.result, hvoid⟩

/-! ### What entries have from their files -/

variable {type : Record} {e : Entry}

theorem mem_constructors_or_mem_methods (hop : op ∈ e.operations) :
    op.isConstructor = true ∧ op ∈ e.constructors ∨
      op.isConstructor = false ∧ op ∈ e.methods := by
  cases hkind : op.isConstructor with
  | false => exact .inr ⟨rfl, List.mem_filter.mpr ⟨hop, by simp [hkind]⟩⟩
  | true => exact .inl ⟨rfl, List.mem_filter.mpr ⟨hop, hkind⟩⟩

theorem Describes.noVoid (h : Describes type e) : ∀ op ∈ e.methods, .void ∉ op.parameters :=
  forall_mem_of_forall₂ (h.methods.imp fun _ _ hmethod => hmethod.noVoid)

/-- An operation of an entry from a file is a constructor if it has a parameter without a type. -/
theorem Describes.isConstructor_of_void (h : Describes type e) (hop : op ∈ e.operations)
    (hvoid : .void ∈ op.parameters) : op.isConstructor = true := by
  rcases mem_constructors_or_mem_methods hop with ⟨hkind, -⟩ | ⟨-, hmethod⟩
  · exact hkind
  · exact absurd hvoid (h.noVoid op hmethod)

/-- The parameters of every operation of an entry from a file have been read from texts. -/
theorem Describes.exists_areRead (h : Describes type e) (hop : op ∈ e.operations) :
    ∃ texts, TypeExpr.AreRead texts op.parameters := by
  have hconstructors : ∀ op ∈ e.constructors, ∃ texts, TypeExpr.AreRead texts op.parameters :=
    forall_mem_of_forall₂ (h.constructors.imp fun _ _ hread => ⟨_, hread⟩)
  have hmethods : ∀ op ∈ e.methods, ∃ texts, TypeExpr.AreRead texts op.parameters :=
    forall_mem_of_forall₂ (h.methods.imp fun _ _ hmethod => ⟨_, hmethod.parameters⟩)
  rcases mem_constructors_or_mem_methods hop with ⟨-, hmem⟩ | ⟨-, hmem⟩
  · exact hconstructors op hmem
  · exact hmethods op hmem

/-- No operation of an entry takes or yields an array of nothing. -/
theorem Describes.dimensions_eq_zero (h : Describes type e) (hop : op ∈ e.operations) :
    ∀ t ∈ op.result :: op.parameters, t.leaf = .void → t.dimensions = 0 := by
  obtain ⟨texts, hread⟩ := h.exists_areRead hop
  refine List.forall_mem_cons.mpr ⟨fun hleaf => ?_, hread.dimensions_eq_zero⟩
  rcases mem_constructors_or_mem_methods hop with ⟨hconstructor, -⟩ | ⟨-, hmem⟩
  · rw [Operation.result_eq_owner hconstructor] at hleaf
    cases hleaf
  · have hresult : ∀ op ∈ e.methods, ∃ text, TypeExpr.parse text = .ok op.result :=
      forall_mem_of_forall₂ (h.methods.imp fun _ _ hmethod => ⟨_, hmethod.result⟩)
    obtain ⟨text, hparse⟩ := hresult op hmem
    exact (TypeExpr.parse_eq_ok_iff.mp hparse).2.2 hleaf

/-- Parameters without a type come from listed constructors. -/
theorem Describes.takesVoid_iff (h : Describes type e) :
    (∀ constructor ∈ listedConstructors type, ¬ TakesVoid constructor) ↔
      ∀ op ∈ e.operations, .void ∉ op.parameters := by
  have hconstructors : (∀ constructor ∈ listedConstructors type, ¬ TakesVoid constructor) ↔
      ∀ op ∈ e.constructors, .void ∉ op.parameters :=
    forall_mem_iff_of_forall₂ h.constructors fun _ _ hread => not_congr hread.exists_writesVoid_iff
  rw [hconstructors]
  constructor
  · intro hnone op hop
    rcases mem_constructors_or_mem_methods hop with ⟨-, hmem⟩ | ⟨-, hmem⟩
    · exact hnone op hmem
    · exact h.noVoid op hmem
  · exact fun hnone op hop => hnone op (List.mem_of_mem_filter hop)

/-- Nothing is wrong with a type that describes a well-formed entry. -/
theorem Describes.not_isAtFault (h : Describes type e) (hwell : e.WellFormed) :
    ¬ IsAtFault type := by
  have hvoid : ∀ method ∈ listedMethods type, ¬ TakesVoid method :=
    (forall_mem_iff_of_forall₂ h.methods fun _ _ hmethod =>
      not_congr hmethod.parameters.exists_writesVoid_iff).mpr h.noVoid
  have hresult : ∀ method ∈ listedMethods type, ¬ TypeExpr.WritesVoidArray (resultText method) :=
    forall_mem_of_forall₂ <| h.methods.flip.imp fun _ _ hmethod =>
      TypeExpr.not_writesVoidArray_of_parse hmethod.result
  have harray : ∀ operation ∈ listedConstructors type ++ listedMethods type,
      ∀ text ∈ texts "params" operation, ¬ TypeExpr.WritesVoidArray text :=
    List.forall_mem_append.mpr
      ⟨forall_mem_of_forall₂ <| h.constructors.flip.imp fun _ _ hread =>
          TypeExpr.AreRead.not_writesVoidArray hread,
        forall_mem_of_forall₂ <| h.methods.flip.imp fun _ _ hmethod =>
          hmethod.parameters.not_writesVoidArray⟩
  intro hfault
  cases hfault with
  | innerTopLevel name inner topLevel =>
    obtain rfl := Option.some.inj (name.symm.trans h.name)
    rw [hwell.1 (h.inner ▸ inner)] at topLevel
    cases topLevel
  | voidParameter listed void => exact hvoid _ listed void
  | arrayOfVoid listed parameter void => exact harray _ listed _ parameter void
  | resultArrayOfVoid listed void => exact hresult _ listed void

end

end CatalogFile

/-! ### Catalogues as they are put together -/

/-- Putting in an entry replaces the one of the same name and no other one. -/
theorem Entry.mem_putInto_iff {e d : Entry} {es : List Entry} (h : (es.map Entry.name).Nodup) :
    d ∈ e.putInto es ↔ d = e ∨ d ∈ es ∧ d.name ≠ e.name := by
  induction es with
  | nil => simp [putInto]
  | cons c rest ih =>
    rw [List.map_cons, List.nodup_cons] at h
    rw [putInto]
    split_ifs with hname
    · have hrest : ∀ d ∈ rest, d.name ≠ e.name := fun d hd hsame =>
        h.1 (hname ▸ hsame ▸ List.mem_map_of_mem hd)
      grind
    · grind

namespace Catalog

variable {k k' : Catalog} {e : Entry} {text : String}

/-- An entry that is added is well formed, and replaces the one of the same name and no other
one. -/
theorem of_add_eq_ok (h : k.add e = .ok k') :
    e.WellFormed ∧ ∀ d, d ∈ k'.entries ↔ d = e ∨ d ∈ k.entries ∧ d.name ≠ e.name := by
  unfold add at h
  split at h
  · cases h
  · rename_i hfault
    obtain rfl := Except.ok.inj h
    exact ⟨Entry.wellFormed_of_fault? hfault, fun d => Entry.mem_putInto_iff k.nodup⟩

/-- What is there after records are added: the entries that they make, as far as no later one
replaces them, and the earlier entries that none of these replaces. -/
theorem exists_entries_of_foldlM_addRecord {rs : List TypeRecord}
    (h : rs.foldlM addRecord k = .ok k') :
    ∃ es, List.Forall₂ (fun r e => r.toEntry = .ok e) rs es ∧ (∀ e ∈ es, e.WellFormed) ∧
      ∀ d, d ∈ k'.entries ↔
        d ∈ latest Entry.name es ∨ d ∈ k.entries ∧ ∀ e ∈ es, d.name ≠ e.name := by
  induction rs generalizing k with
  | nil =>
    obtain rfl := Except.ok.inj h
    exact ⟨[], .nil, by simp, by simp [latest]⟩
  | cons r rs ih =>
    rw [List.foldlM_cons] at h
    obtain ⟨next, hnext, h⟩ := exists_of_bind_eq_ok h
    obtain ⟨e, he, hadd⟩ := exists_of_bind_eq_ok hnext
    obtain ⟨hformed, hentries⟩ := of_add_eq_ok hadd
    obtain ⟨es, hes, hwell, hmem⟩ := ih h
    refine ⟨e :: es, .cons he hes, List.forall_mem_cons.mpr ⟨hformed, hwell⟩, fun d => ?_⟩
    -- the first entry replaces earlier ones only, and stays unless a later one has its name
    rw [hmem, hentries, latest_cons]
    grind

/-- The entries of a catalogue that is read are those that the types of the file describe, as far as
no later type of the same class replaces them. -/
theorem exists_describes_of_parse (h : parse text = .ok k) :
    ∃ es, List.Forall₂ CatalogFile.Describes (CatalogFile.listedTypes text) es ∧
      (∀ e ∈ es, e.WellFormed) ∧ ∀ e, e ∈ k.entries ↔ e ∈ latest Entry.name es := by
  unfold parse at h
  split at h
  · cases h
  · rename_i rs hrs
    obtain ⟨es, hes, hwell, hmem⟩ := exists_entries_of_foldlM_addRecord h
    refine ⟨es, ?_, hwell, fun e => by simp [hmem, empty]⟩
    exact forall₂_comp (CatalogFile.forall₂_isType hrs) hes fun _ _ _ =>
      CatalogFile.describes_of_toEntry

open CatalogFile in
/-- **Files that are accepted are sound, but for constructors.** In the catalogue that is read from
a file, inner types are member types, all operations are those of their entries, there are no arrays
of nothing, and only constructors have parameters without a type. There are such constructors
exactly if the file lists one under a type that no later type of the same class replaces. A file
that lists a type with another fault is rejected, replaced or not. -/
theorem wellFormed_of_parse_and_rejects (text : String) :
    (∀ k, parse text = .ok k →
      (∀ e ∈ k.entries, e.WellFormed ∧ ∀ op ∈ e.operations,
        (∀ t ∈ op.result :: op.parameters, t.leaf = .void → t.dimensions = 0) ∧
          (.void ∈ op.parameters → op.isConstructor = true)) ∧
      ((∀ e ∈ k.entries, ∀ op ∈ e.operations, .void ∉ op.parameters) ↔
        ∀ type ∈ latest className? (listedTypes text), ∀ constructor ∈ listedConstructors type,
          ¬ TakesVoid constructor)) ∧
    ((∃ type ∈ listedTypes text, IsAtFault type) → ∃ fault, parse text = .error fault) := by
  refine ⟨fun k hk => ?_, ?_⟩
  · obtain ⟨es, hes, hwell, hmem⟩ := exists_describes_of_parse hk
    -- a type is replaced exactly if its entry is
    have hlatest :
        List.Forall₂ Describes (latest className? (listedTypes text)) (latest Entry.name es) :=
      forall₂_latest hes fun _ _ _ _ h h' => by rw [h.name, h'.name, Option.some.injEq]
    have hdescribed : ∀ e ∈ es, ∃ type, Describes type e :=
      forall_mem_of_forall₂ (hes.imp fun type _ htype => ⟨type, htype⟩)
    simp only [hmem]
    refine ⟨fun e he => ⟨hwell e (List.pwFilter_subset es he), fun op hop => ?_⟩, ?_⟩
    · obtain ⟨type, htype⟩ := hdescribed e (List.pwFilter_subset es he)
      exact ⟨htype.dimensions_eq_zero hop, htype.isConstructor_of_void hop⟩
    · exact (forall_mem_iff_of_forall₂ hlatest fun _ _ h => h.takesVoid_iff).symm
  · rintro ⟨type, htype, hfault⟩
    cases hk : parse text with
    | error fault => exact ⟨fault, rfl⟩
    | ok k =>
      -- every type has become an entry once, even if the entry was replaced later
      obtain ⟨es, hes, hwell, -⟩ := exists_describes_of_parse hk
      have hsound : ∀ type ∈ listedTypes text, ¬ IsAtFault type :=
        forall_mem_of_forall₂ <| ((List.forall₂_and_left _ _).mpr ⟨hwell, hes.flip⟩).imp
          fun _ _ ⟨hformed, htype⟩ => htype.not_isAtFault hformed
      exact absurd hfault (hsound type htype)

end Catalog

namespace Box

/-- An inner class with a constructor. -/
def innerFile : String :=
  "[[types]]\nname = \"demo.Box$Lid\"\ninner = true\n\n" ++
  "[[types.constructors]]\nparams = [\"int[]\"]\n"

/-- A class with a method whose parameter has no type. -/
def methodFile : String :=
  "[[types]]\nname = \"demo.Box\"\n\n" ++
  "[[types.methods]]\nname = \"put\"\nparams = [\"void\"]\n"

/-- A class with a constructor whose parameter has no type. -/
def constructorFile : String :=
  "[[types]]\nname = \"demo.Box\"\n\n" ++
  "[[types.constructors]]\nparams = [\"void\"]\n"

theorem wellFormed_of_parse_and_rejects_box :
    (∃ k, Catalog.parse innerFile = .ok k ∧ (∀ e ∈ k.entries, e.WellFormed) ∧
      ∀ e ∈ k.entries, ∀ op ∈ e.operations, .void ∉ op.parameters) ∧
    ∃ fault, Catalog.parse methodFile = .error fault := by
  constructor
  · obtain ⟨k, hk⟩ := exists_eq_ok_of_isOk (x := Catalog.parse innerFile) (by decide +kernel)
    obtain ⟨hsound, hvoid⟩ := (Catalog.wellFormed_of_parse_and_rejects innerFile).1 k hk
    exact ⟨k, hk, fun e he => (hsound e he).1, hvoid.mpr (by decide +kernel)⟩
  · obtain ⟨type, htype, method, hmethod, hvoid⟩ :
        ∃ type ∈ CatalogFile.listedTypes methodFile,
          ∃ method ∈ CatalogFile.listedMethods type, CatalogFile.TakesVoid method := by
      decide +kernel
    exact (Catalog.wellFormed_of_parse_and_rejects methodFile).2
      ⟨type, htype, .voidParameter hmethod hvoid⟩

/-- The file with the constructor is accepted, and so is the constructor. -/
theorem exists_void_parameter_of_parse :
    ∃ k, Catalog.parse constructorFile = .ok k ∧
      ∃ e ∈ k.entries, ∃ op ∈ e.operations, .void ∈ op.parameters := by
  obtain ⟨k, hk⟩ := exists_eq_ok_of_isOk (x := Catalog.parse constructorFile) (by decide +kernel)
  refine ⟨k, hk, ?_⟩
  have hvoid : ((Catalog.parse constructorFile).toOption.any fun k => k.entries.any fun e =>
      e.operations.any fun op => op.parameters.contains .void) = true := by
    decide +kernel
  rw [hk] at hvoid
  simpa [Except.toOption] using hvoid

end Box

end CallPlan
