import CallPlan.Proofs.Paths
import CallPlan.Proofs.Words
import CallPlan.Signature.Catalog

/-!
# Names that tell types

In the scope of a class some types go by their simple names: those of its package, and those of the
core package unless the package is known to declare one of the same name. No two classes get the
same name in this way, if they are simple ones and those of the package are known
(`Scope.separates_withTypes`). With the classes their arrays are told apart
(`Scope.Separates.eq_of_nameIn_eq`). So the classes that a catalogue mentions have names of their
own, if they are ordinary ones and those of the package are catalogued (`Catalog.tells_scope`).
-/

namespace CallPlan

/-! ### Names of types -/

/-- The words for types that are no classes. -/
def TypeExpr.keywords : List String := "void" :: Primitive.all.map Primitive.keyword

/-- In the scope, the known classes have **names of their own**: paths that are no keywords, and
different ones for different classes. -/
structure Scope.Tells (s : Scope) (known : ClassName → Prop) : Prop where
  isPath : ∀ c, known c → Text.IsPath (c.nameIn s).toList
  notKeyword : ∀ c, known c → c.nameIn s ∉ TypeExpr.keywords
  injective : ∀ c d, known c → known d → c.nameIn s = d.nameIn s → c = d

/-- In the scope, the names of the known classes **differ** from each other and from those of other
types: they are no keywords, and end in no bracket. -/
structure Scope.Separates (s : Scope) (known : ClassName → Prop) : Prop where
  noBracket : ∀ c, known c → ']' ∉ (c.nameIn s).toList.getLast?
  notKeyword : ∀ c, known c → c.nameIn s ∉ TypeExpr.keywords
  injective : ∀ c d, known c → known d → c.nameIn s = d.nameIn s → c = d

/-- The class of the type, or of its components, is a known one if there is one. -/
def TypeExpr.Knows (known : ClassName → Prop) (t : TypeExpr) : Prop :=
  ∀ c, t.leaf = .named c → known c

theorem Primitive.keyword_injective : Function.Injective keyword := by
  have hread (p : Primitive) : ofKeyword? p.keyword = some p := by cases p <;> rfl
  intro p q h
  exact Option.some.inj ((hread p).symm.trans ((congrArg ofKeyword? h).trans (hread q)))

theorem Primitive.keyword_mem_keywords (p : Primitive) : p.keyword ∈ TypeExpr.keywords :=
  List.mem_cons_of_mem _ (List.mem_map_of_mem p.mem_all)

theorem Text.inPath_of_mem_keywords {word : String} (h : word ∈ TypeExpr.keywords) :
    ∀ c ∈ word.toList, InPath c := by
  have hall : (TypeExpr.keywords.all fun word => word.toList.all (· ∉ marks)) = true := by decide
  simp only [List.all_eq_true, decide_eq_true_eq] at hall
  exact fun c hc => .inr (hall word h c hc)

/-! ### Leaves and brackets -/

namespace TypeExpr

variable {s : Scope} {t u : TypeExpr}

/-- The name of an array type ends in a bracket. -/
theorem bracket_mem_getLast?_nameIn_array (s : Scope) (component : TypeExpr) :
    ']' ∈ ((array component).nameIn s).toList.getLast? := by
  simp [nameIn]

/-- Behind the name of the leaf stands a bracket pair for every dimension. -/
theorem leaf_and_dimensions_eq_of_nameIn_eq (ht : ']' ∉ (t.leaf.nameIn s).toList.getLast?)
    (hu : ']' ∉ (u.leaf.nameIn s).toList.getLast?) (hsame : t.nameIn s = u.nameIn s) :
    t.leaf.nameIn s = u.leaf.nameIn s ∧ t.dimensions = u.dimensions := by
  induction t generalizing u with
  | array component ih =>
    cases u with
    | array other =>
      have hcomponents : component.nameIn s = other.nameIn s := by
        simpa [nameIn, ← String.toList_inj] using hsame
      obtain ⟨hleaf, hdimensions⟩ := ih (u := other) ht hu hcomponents
      exact ⟨hleaf, congrArg Nat.succ hdimensions⟩
    | void | primitive q | named d =>
      exact absurd (hsame ▸ bracket_mem_getLast?_nameIn_array s component) hu
  | void | primitive p | named c =>
    cases u with
    | array other => exact absurd (hsame ▸ bracket_mem_getLast?_nameIn_array s other) ht
    | void | primitive q | named d => exact ⟨hsame, rfl⟩

theorem Knows.leaf {known : ClassName → Prop} (h : t.Knows known) : t.leaf.Knows known :=
  fun c hc => h c ((leaf_ofLeaf t.isArray_leaf 0).symm.trans hc)

end TypeExpr

namespace Scope.Separates

variable {s : Scope} {known : ClassName → Prop} {t u : TypeExpr}

/-- The name of a known type that is no array does not end in a bracket. -/
theorem noBracket_of_not_isArray (h : s.Separates known) (ht : t.Knows known)
    (harray : t.isArray = false) : ']' ∉ (t.nameIn s).toList.getLast? := by
  have hkeywords : ∀ word ∈ TypeExpr.keywords, ']' ∉ word.toList.getLast? := by decide
  cases t with
  | void => exact hkeywords _ List.mem_cons_self
  | primitive p => exact hkeywords _ p.keyword_mem_keywords
  | named c => exact h.noBracket c (ht c rfl)
  | array component => cases harray

/-- Types that are no arrays are told apart by their names, if they are known. -/
theorem eq_of_nameIn_eq_of_not_isArray (h : s.Separates known) (ht : t.Knows known)
    (hu : u.Knows known) (htarray : t.isArray = false) (huarray : u.isArray = false)
    (hsame : t.nameIn s = u.nameIn s) : t = u := by
  have hclass (c : ClassName) (hc : known c) (word : String) (hword : word ∈ TypeExpr.keywords) :
      c.nameIn s ≠ word := by
    rintro rfl
    exact h.notKeyword c hc hword
  cases t with
  | array => cases htarray
  | void =>
    cases u with
    | array => cases huarray
    | void => rfl
    | primitive q => cases q <;> simp [TypeExpr.nameIn, Primitive.keyword] at hsame
    | named d => exact absurd hsame.symm (hclass d (hu d rfl) _ List.mem_cons_self)
  | primitive p =>
    cases u with
    | array => cases huarray
    | void => cases p <;> simp [TypeExpr.nameIn, Primitive.keyword] at hsame
    | primitive q => exact congrArg TypeExpr.primitive (Primitive.keyword_injective hsame)
    | named d => exact absurd hsame.symm (hclass d (hu d rfl) _ p.keyword_mem_keywords)
  | named c =>
    cases u with
    | array => cases huarray
    | void => exact absurd hsame (hclass c (ht c rfl) _ List.mem_cons_self)
    | primitive q => exact absurd hsame (hclass c (ht c rfl) _ q.keyword_mem_keywords)
    | named d => exact congrArg TypeExpr.named (h.injective c d (ht c rfl) (hu d rfl) hsame)

/-- The name of a type tells the type. -/
theorem eq_of_nameIn_eq (h : s.Separates known) (ht : t.Knows known) (hu : u.Knows known)
    (hsame : t.nameIn s = u.nameIn s) : t = u := by
  obtain ⟨hleaf, hdimensions⟩ := TypeExpr.leaf_and_dimensions_eq_of_nameIn_eq
    (h.noBracket_of_not_isArray ht.leaf t.isArray_leaf)
    (h.noBracket_of_not_isArray hu.leaf u.isArray_leaf) hsame
  rw [← t.ofLeaf_leaf_dimensions, ← u.ofLeaf_leaf_dimensions, hdimensions,
    h.eq_of_nameIn_eq_of_not_isArray ht.leaf hu.leaf t.isArray_leaf u.isArray_leaf hleaf]

end Scope.Separates

namespace Scope.Tells

variable {s : Scope} {known : ClassName → Prop} {t u : TypeExpr}

/-- Names that tell classes apart separate them from all other types: a path ends in no bracket. -/
theorem separates (h : s.Tells known) : s.Separates known where
  noBracket c hc hbracket :=
    have hinPath := (h.isPath c hc).inPath ']' (List.mem_of_getLast? hbracket)
    Text.not_inPath (by decide) (by decide) hinPath
  notKeyword := h.notKeyword
  injective := h.injective

/-- The name of a type that is no array holds no marks but dots. -/
theorem inPath_nameIn (h : s.Tells known) (ht : t.Knows known) (harray : t.isArray = false) :
    ∀ c ∈ (t.nameIn s).toList, Text.InPath c := by
  cases t with
  | void => exact Text.inPath_of_mem_keywords List.mem_cons_self
  | primitive p => exact Text.inPath_of_mem_keywords (p.keyword_mem_keywords)
  | named c => exact (h.isPath c (ht c rfl)).inPath
  | array component => cases harray

/-- The name of a known type holds no marks but dots and square brackets. -/
theorem inPath_or_bracket_nameIn (h : s.Tells known) (ht : t.Knows known) :
    ∀ c ∈ (t.nameIn s).toList, Text.InPath c ∨ c = '[' ∨ c = ']' := by
  induction t with
  | array component ih =>
    rw [TypeExpr.nameIn, String.toList_append, List.forall_mem_append]
    exact ⟨ih ht, by simp⟩
  | void | primitive p | named c =>
    exact fun c hc => .inl (h.inPath_nameIn ht rfl c hc)

/-- The name of a type tells the type. -/
theorem eq_of_nameIn_eq (h : s.Tells known) (ht : t.Knows known) (hu : u.Knows known)
    (hsame : t.nameIn s = u.nameIn s) : t = u :=
  h.separates.eq_of_nameIn_eq ht hu hsame

end Scope.Tells

/-! ### Simple names -/

/-- A **simple** class: a top-level type of a named package, with an identifier for its name that is
no keyword. Nothing is said about how the package is spelled. -/
structure ClassName.IsSimple (c : ClassName) : Prop where
  topLevel : c.isMember = false
  packaged : c.package ≠ ""
  isIdentifier : Text.isIdentifier c.outermost.toList = true
  notKeyword : c.outermost ∉ TypeExpr.keywords

namespace ClassName.IsSimple

variable {c : ClassName} (h : c.IsSimple)

include h

theorem members_eq_nil : c.members = [] := by
  simpa [isMember] using h.topLevel

theorem names_eq : c.names = [c.outermost] := by
  rw [names, h.members_eq_nil]

theorem eq_topLevel : c = ClassName.topLevel c.package c.outermost := by
  cases c
  simpa [ClassName.topLevel] using h.members_eq_nil

theorem eq_of_package_eq {d : ClassName} (hd : d.IsSimple) (hpackage : c.package = d.package)
    (houtermost : c.outermost = d.outermost) : c = d := by
  rw [h.eq_topLevel, hd.eq_topLevel, hpackage, houtermost]

theorem inDefaultPackage_eq_false : c.inDefaultPackage = false := by
  simpa [inDefaultPackage] using h.packaged

theorem isWord_outermost : Text.IsWord c.outermost.toList :=
  Text.isWord_of_isIdentifier h.isIdentifier

/-- The simple name where the class is seen, and the package in front of it where it is not. -/
theorem nameIn_eq (s : Scope) :
    c.nameIn s = if s.sees c then c.outermost else c.package ++ "." ++ c.outermost := by
  rw [nameIn, qualifiedName, written, h.inDefaultPackage_eq_false, h.names_eq]
  simp

/-- No scope names a simple class by a keyword. -/
theorem nameIn_notMem_keywords (s : Scope) : c.nameIn s ∉ TypeExpr.keywords := by
  rw [h.nameIn_eq]
  split_ifs
  · exact h.notKeyword
  · have hdot : (TypeExpr.keywords.all fun word => !word.toList.contains '.') = true := by decide
    intro hmem
    have hword := List.all_eq_true.mp hdot _ hmem
    simp at hword

/-- The name ends like the simple name. -/
theorem bracket_notMem_getLast?_nameIn (s : Scope) : ']' ∉ (c.nameIn s).toList.getLast? := by
  have houtermost : ']' ∉ c.outermost.toList.getLast? := fun hmem =>
    h.isWord_outermost.unmarked ']' (List.mem_of_getLast? hmem) (by decide)
  rw [h.nameIn_eq]
  split_ifs
  · exact houtermost
  · rw [String.toList_append, List.getLast?_append_of_ne_nil _ h.isWord_outermost.ne_nil]
    exact houtermost

/-- A simple name is no qualified name. -/
theorem outermost_ne_qualified (package simpleName : String) :
    c.outermost ≠ package ++ "." ++ simpleName := by
  intro hsame
  have hdot : '.' ∈ c.outermost.toList := by simp [hsame]
  exact h.isWord_outermost.unmarked '.' hdot (by decide)

/-- A class is named by its simple name where it is seen, and not elsewhere. -/
theorem nameIn_eq_outermost_iff {s : Scope} : c.nameIn s = c.outermost ↔ s.sees c = true := by
  rw [h.nameIn_eq]
  split_ifs with hsees
  · exact iff_of_true rfl hsees
  · exact iff_of_false (h.outermost_ne_qualified _ _).symm hsees

end ClassName.IsSimple

/-- A top-level type of a package is told by its simple name. -/
theorem Scope.declares_iff {package simpleName : String} {c : ClassName} :
    declares package c = true ∧ c.simpleName = simpleName ↔ c = .topLevel package simpleName := by
  constructor
  · rintro ⟨hdeclares, hname⟩
    obtain ⟨p, outermost, members⟩ := c
    obtain ⟨rfl, rfl⟩ : p = package ∧ members = [] := by
      simpa [declares, ClassName.isMember] using hdeclares
    exact congrArg (ClassName.topLevel p) hname
  · rintro rfl
    simp [declares, ClassName.topLevel, ClassName.isMember, ClassName.simpleName]

/-- Beside a class, types of its package are seen, and those of the core package that none of the
known types of the package hides. -/
theorem Scope.sees_withTypes_iff {tested c : ClassName} {types : List ClassName}
    (hc : c.inDefaultPackage = false) :
    ((besides tested).withTypes types).sees c = true ↔
      c.package = tested.package ∨ (c.package = ClassName.corePackage ∧
        ∀ d ∈ types, declares tested.package d = true → d.simpleName ≠ c.outermost) := by
  rw [@eq_comm _ c.package tested.package]
  simp [sees, withTypes, besides, hc]

/-- What a simple name **means** beside a class, where `types` are known: the type of the package
that has the name, and if there is none, the type of the core package. -/
def ClassName.meant (tested : ClassName) (types : List ClassName) (simpleName : String) :
    ClassName :=
  if topLevel tested.package simpleName ∈ types then topLevel tested.package simpleName
  else core simpleName

/-- A class that can be named beside `tested`, where `types` are known: a simple one, and a known
one if it is of the same package. -/
structure ClassName.IsNamedBeside (c tested : ClassName) (types : List ClassName) : Prop where
  simple : c.IsSimple
  own : c.package = tested.package → c ∈ types

namespace ClassName.IsNamedBeside

variable {tested c d : ClassName} {types : List ClassName}

/-- The classes that are seen are those that are meant by their simple names. -/
theorem sees_iff (hc : c.IsNamedBeside tested types) :
    ((Scope.besides tested).withTypes types).sees c = true ↔
      c = meant tested types c.outermost := by
  have htopLevel {package : String} : c = topLevel package c.outermost ↔ c.package = package :=
    ⟨congrArg ClassName.package, fun h => h ▸ hc.simple.eq_topLevel⟩
  have hhidden : (∀ u ∈ types, Scope.declares tested.package u = true →
      u.simpleName ≠ c.outermost) ↔ topLevel tested.package c.outermost ∉ types := by
    constructor
    · intro h hmem
      obtain ⟨hdeclares, hname⟩ := Scope.declares_iff.mpr rfl
      exact h _ hmem hdeclares hname
    · rintro h u hu hdeclares hname
      exact h (Scope.declares_iff.mp ⟨hdeclares, hname⟩ ▸ hu)
  rw [Scope.sees_withTypes_iff hc.simple.inDefaultPackage_eq_false, hhidden, meant]
  split_ifs with htypes
  · rw [htopLevel, or_iff_left fun h => h.2 htypes]
  · have hother : c.package ≠ tested.package := fun hpackage =>
      htypes (htopLevel.mpr hpackage ▸ hc.own hpackage)
    rw [core, htopLevel, or_iff_right hother, and_iff_left htypes]

/-- **Different classes have different names.** -/
theorem eq_of_nameIn_eq (hc : c.IsNamedBeside tested types) (hd : d.IsNamedBeside tested types)
    (hsame : c.nameIn ((Scope.besides tested).withTypes types) =
      d.nameIn ((Scope.besides tested).withTypes types)) : c = d := by
  rw [hc.simple.nameIn_eq, hd.simple.nameIn_eq] at hsame
  split_ifs at hsame with hcsees hdsees hdsees
  · rw [hc.sees_iff.mp hcsees, hd.sees_iff.mp hdsees, hsame]
  · exact absurd hsame (hc.simple.outermost_ne_qualified _ _)
  · exact absurd hsame.symm (hd.simple.outermost_ne_qualified _ _)
  · have hcharacters := congrArg String.toList hsame
    simp only [String.toList_append, List.append_assoc] at hcharacters
    obtain ⟨hpackage, houtermost⟩ := Text.eq_of_append_dot_eq hc.simple.isWord_outermost
      hd.simple.isWord_outermost hcharacters
    exact hc.simple.eq_of_package_eq hd.simple (String.toList_injective hpackage)
      (String.toList_injective houtermost)

end ClassName.IsNamedBeside

/-- Beside a class, all classes that can be named have different names. -/
theorem Scope.separates_withTypes (tested : ClassName) (types : List ClassName) :
    ((besides tested).withTypes types).Separates (·.IsNamedBeside tested types) where
  noBracket _ hc := hc.simple.bracket_notMem_getLast?_nameIn _
  notKeyword _ hc := hc.simple.nameIn_notMem_keywords _
  injective _ _ hc hd := hc.eq_of_nameIn_eq hd

@[simp]
theorem ClassName.outermost_meant (tested : ClassName) (types : List ClassName)
    (simpleName : String) : (meant tested types simpleName).outermost = simpleName := by
  unfold meant
  split <;> rfl

/-- **No two types are written alike** beside a class, whatever types of its package are known, if
their leaves are keywords or classes that can be named there. An identifier is the name of one such
class only: of the type of the package that is called so if one is known, and otherwise of the type
of the core package. -/
theorem TypeExpr.injOn_nameIn_and_eq_meant_iff (tested : ClassName) (types : List ClassName) :
    Set.InjOn (nameIn ((Scope.besides tested).withTypes types))
        {t | t.Knows (·.IsNamedBeside tested types)} ∧
      ∀ c : ClassName, c.IsNamedBeside tested types → ∀ simpleName : String,
        Text.isIdentifier simpleName.toList = true →
          (c.nameIn ((Scope.besides tested).withTypes types) = simpleName ↔
            c = .meant tested types simpleName) := by
  refine ⟨fun t ht u hu hsame =>
    (Scope.separates_withTypes tested types).eq_of_nameIn_eq ht hu hsame,
    fun c hc simpleName hidentifier => ?_⟩
  constructor
  · intro hname
    rw [hc.simple.nameIn_eq] at hname
    split_ifs at hname with hsees
    · exact hname ▸ hc.sees_iff.mp hsees
    · -- a qualified name has a dot, and an identifier has none
      have hdot : '.' ∈ simpleName.toList := by simp [← hname]
      exact absurd hdot (Text.notMem_of_isIdentifier hidentifier (by decide))
  · intro hmeant
    have houtermost : c.outermost = simpleName :=
      (congrArg ClassName.outermost hmeant).trans (ClassName.outermost_meant _ _ _)
    rw [← houtermost] at hmeant ⊢
    exact hc.simple.nameIn_eq_outermost_iff.mpr (hc.sees_iff.mpr hmeant)

/-! ### A package with a type that hides one of the core package -/

namespace Client

/-- The class whose package hides the string class. -/
def tested : ClassName := .topLevel "client" "Client"

/-- Only the second one hides a type of the core package: the third is of another package, and the
last one is a member type. -/
def types : List ClassName :=
  [tested, .topLevel "client" "String", .topLevel "other" "Object",
   (ClassName.topLevel "client" "Holder").member "Object"]

/-- Two classes of the same simple name, and arrays of them, are told apart. -/
theorem injOn_nameIn_and_eq_meant_iff_string :
    (ClassName.core "String").IsNamedBeside tested types ∧
      (ClassName.topLevel "client" "String").IsNamedBeside tested types ∧
      (TypeExpr.array (.named (.core "String"))).nameIn ((Scope.besides tested).withTypes types) ≠
        (TypeExpr.array (.named (.topLevel "client" "String"))).nameIn
          ((Scope.besides tested).withTypes types) ∧
      Text.isIdentifier "String".toList = true ∧
      ((ClassName.core "String").nameIn ((Scope.besides tested).withTypes types) = "String" ↔
        ClassName.core "String" = .meant tested types "String") := by
  have hcore : (ClassName.core "String").IsNamedBeside tested types :=
    ⟨⟨rfl, by decide, by decide, by decide⟩, by decide⟩
  have hown : (ClassName.topLevel "client" "String").IsNamedBeside tested types :=
    ⟨⟨rfl, by decide, by decide, by decide⟩, by decide⟩
  have hknows {c : ClassName} (hc : c.IsNamedBeside tested types) :
      TypeExpr.array (.named c) ∈ {t | TypeExpr.Knows (·.IsNamedBeside tested types) t} := by
    rintro d ⟨⟩
    exact hc
  obtain ⟨hinjective, hmeant⟩ := TypeExpr.injOn_nameIn_and_eq_meant_iff tested types
  refine ⟨hcore, hown, fun hsame => ?_, by decide, hmeant _ hcore "String" (by decide)⟩
  exact absurd (hinjective (hknows hcore) (hknows hown) hsame) (by decide)

end Client

/-! ### Classes of a catalogue -/

/-- An **ordinary** class: a top-level type of a named package, with identifiers for names. -/
structure ClassName.IsOrdinary (c : ClassName) : Prop where
  proper : c.Proper
  topLevel : c.isMember = false
  packaged : c.package ≠ ""
  notKeyword : c.outermost ∉ TypeExpr.keywords

namespace ClassName.IsOrdinary

variable {c : ClassName} (h : c.IsOrdinary)

include h

theorem isSimple : c.IsSimple :=
  ⟨h.topLevel, h.packaged, h.proper.names _ List.mem_cons_self, h.notKeyword⟩

theorem isPath_package : Text.IsPath c.package.toList := by
  obtain ⟨segments, hsegments, hpackage⟩ := h.proper.package
  have hne : segments ≠ [] := by
    rintro rfl
    exact h.packaged (String.toList_injective hpackage)
  rw [hpackage]
  exact Text.isPath_intercalate hne fun cs hcs => Text.isWord_of_isIdentifier (hsegments cs hcs)

/-- Every scope names an ordinary class by a path. -/
theorem isPath_nameIn (s : Scope) : Text.IsPath (c.nameIn s).toList := by
  rw [h.isSimple.nameIn_eq]
  split_ifs
  · exact h.isSimple.isWord_outermost.isPath
  · simpa using h.isPath_package.append_word h.isSimple.isWord_outermost

end ClassName.IsOrdinary

/-- A class that tests of `tested` can name: an ordinary one, and catalogued if it is of the tested
package. -/
structure Catalog.Names (k : Catalog) (tested c : ClassName) : Prop where
  ordinary : c.IsOrdinary
  own : c.package = tested.package → c ∈ k.entries.map Entry.name

/-- What tests of a class can name is named beside the class. -/
theorem Catalog.Names.isNamedBeside {k : Catalog} {tested c : ClassName} (hc : k.Names tested c) :
    c.IsNamedBeside tested (k.typesOf tested.package) where
  simple := hc.ordinary.isSimple
  own hpackage := List.mem_filter.mpr ⟨hc.own hpackage, by simp [hpackage]⟩

/-- The scope of tests **tells all classes** that they can name. -/
theorem Catalog.tells_scope (k : Catalog) (tested : ClassName) :
    ((Scope.besides tested).withTypes (k.typesOf tested.package)).Tells (k.Names tested) where
  isPath _ hc := hc.ordinary.isPath_nameIn _
  notKeyword _ hc := hc.ordinary.isSimple.nameIn_notMem_keywords _
  injective _ _ hc hd := hc.isNamedBeside.eq_of_nameIn_eq hd.isNamedBeside

end CallPlan
