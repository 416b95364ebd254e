import CallPlan.Signature.Catalog
import Mathlib

/-!
# Subtypes and assignability

`Catalog.reaches` follows declared supertypes and uses the entry of every class at most once. Still
it misses nothing: the first class is a subtype of the second exactly if a chain of declared
supertypes leads from the one to the other (`Catalog.isSubtype_iff`), whatever circles there are. So
assignability is transitive, unless a class is declared to be above the class of all objects
(`Catalog.ObjectIsRoot.assignable_trans`).
-/

namespace CallPlan

/-! ### Chains of declared supertypes -/

/-- An entry of a list declares the second class as a supertype of the first. -/
def Declares (es : List Entry) (sub super : ClassName) : Prop :=
  ∃ e ∈ es, e.name = sub ∧ super ∈ e.supertypes

namespace Catalog

/-- Every type is found by its name. -/
theorem find?_eq_some_iff {k : Catalog} {c : ClassName} {entry : Entry} :
    k.find? c = some entry ↔ entry ∈ k.entries ∧ entry.name = c := by
  constructor
  · intro h
    exact ⟨List.mem_of_find?_eq_some h, by simpa using List.find?_some h⟩
  · rintro ⟨hentry, rfl⟩
    cases hfound : k.find? entry.name with
    | none => exact absurd (List.find?_eq_none.mp hfound entry hentry) (by simp)
    | some other =>
      have hname : other.name = entry.name := by simpa using List.find?_some hfound
      have hother := List.mem_of_find?_eq_some hfound
      rw [List.inj_on_of_nodup_map k.nodup hother hentry hname]

theorem withdraw_eq_none {c : ClassName} {es : List Entry} (h : withdraw c es = none) :
    ∀ e ∈ es, e.name ≠ c := by
  induction es with
  | nil => simp
  | cons d rest ih =>
    simp only [withdraw] at h
    split at h
    · cases h
    · rename_i hne
      exact List.forall_mem_cons.mpr ⟨hne, ih (Option.map_eq_none_iff.mp h)⟩

theorem withdraw_eq_some {c : ClassName} {es others : List Entry} {e : Entry}
    (h : withdraw c es = some (e, others)) : e.name = c ∧ es.Perm (e :: others) := by
  induction es generalizing others with
  | nil => simp [withdraw] at h
  | cons d rest ih =>
    simp only [withdraw] at h
    split at h
    · rename_i hname
      obtain ⟨rfl, rfl⟩ := Prod.mk.inj (Option.some.inj h)
      exact ⟨hname, .refl _⟩
    · obtain ⟨⟨found, left⟩, hfound, hpair⟩ := Option.map_eq_some_iff.mp h
      obtain ⟨rfl, rfl⟩ := Prod.mk.inj hpair
      obtain ⟨hname, hperm⟩ := ih hfound
      exact ⟨hname, (hperm.cons d).trans (.swap ..)⟩

/-- Without the entry of a class, no chain leads on from it. -/
theorem eq_of_chain_of_not_declared {es : List Entry} {c target : ClassName}
    (hc : ∀ e ∈ es, e.name ≠ c) (h : Relation.ReflTransGen (Declares es) c target) :
    c = target := by
  rcases h.cases_head with rfl | ⟨next, ⟨e, he, hname, -⟩, -⟩
  · rfl
  · exact absurd hname (hc e he)

/-- A chain can do without the entry of a class, unless it leads on from one of the supertypes that
the entry declares. -/
theorem chain_of_withdraw {unused others : List Entry} {e : Entry} {c target : ClassName}
    (hperm : unused.Perm (e :: others)) (h : Relation.ReflTransGen (Declares unused) c target) :
    Relation.ReflTransGen (Declares others) c target ∨
      ∃ super ∈ e.supertypes, Relation.ReflTransGen (Declares others) super target := by
  induction h using Relation.ReflTransGen.head_induction_on with
  | refl => exact .inl .refl
  | head step _ ih =>
    obtain ⟨d, hd, hname, hsuper⟩ := step
    rcases ih with hrest | hrest
    · rcases List.mem_cons.mp (hperm.mem_iff.mp hd) with rfl | hd
      · exact .inr ⟨_, hsuper, hrest⟩
      · exact .inl (.head ⟨d, hd, hname, hsuper⟩ hrest)
    · exact .inr hrest

/-- When the entry of a class other than the target is used up, its supertypes take its place. -/
theorem exists_chain_iff_of_perm {unused others : List Entry} {e : Entry} {target : ClassName}
    (hnodup : (unused.map Entry.name).Nodup) (hperm : unused.Perm (e :: others))
    (hne : e.name ≠ target) (pending : List ClassName) :
    (∃ c ∈ e.name :: pending, Relation.ReflTransGen (Declares unused) c target) ↔
      ∃ c ∈ e.supertypes ++ pending, Relation.ReflTransGen (Declares others) c target := by
  obtain ⟨he, -⟩ := List.nodup_cons.mp ((hperm.map Entry.name).nodup_iff.mp hnodup)
  constructor
  · rintro ⟨d, hd, hchain⟩
    rcases chain_of_withdraw hperm hchain with hrest | ⟨super, hsuper, hrest⟩
    · rcases List.mem_cons.mp hd with rfl | hd
      · -- a chain from the class itself needs the entry
        have hgone : ∀ f ∈ others, f.name ≠ e.name := fun f hf hname =>
          he (hname ▸ List.mem_map_of_mem hf)
        exact absurd (eq_of_chain_of_not_declared hgone hrest) hne
      · exact ⟨d, List.mem_append_right _ hd, hrest⟩
    · exact ⟨super, List.mem_append_left _ hsuper, hrest⟩
  · rintro ⟨d, hd, hchain⟩
    have hdeclares : Declares others ≤ Declares unused := fun _ _ ⟨f, hf, hf'⟩ =>
      ⟨f, hperm.mem_iff.mpr (List.mem_cons_of_mem _ hf), hf'⟩
    have hmono := Relation.ReflTransGen.mono hdeclares _ _ hchain
    rcases List.mem_append.mp hd with hd | hd
    · have hstep : Declares unused e.name d := ⟨e, hperm.mem_iff.mpr List.mem_cons_self, rfl, hd⟩
      exact ⟨e.name, List.mem_cons_self, .head hstep hmono⟩
    · exact ⟨d, List.mem_cons_of_mem _ hd, hmono⟩

/-- A class without an entry, other than the target, leads nowhere. -/
theorem exists_chain_iff_of_not_declared {unused : List Entry} {c target : ClassName}
    (hc : ∀ e ∈ unused, e.name ≠ c) (hne : c ≠ target) (pending : List ClassName) :
    (∃ d ∈ c :: pending, Relation.ReflTransGen (Declares unused) d target) ↔
      ∃ d ∈ pending, Relation.ReflTransGen (Declares unused) d target := by
  rw [List.exists_mem_cons_iff, or_iff_right]
  exact fun hchain => hne (eq_of_chain_of_not_declared hc hchain)

/-- The search finds the target exactly if a chain leads there from a pending class. -/
theorem reaches_iff {target : ClassName} {unused : List Entry} {pending : List ClassName}
    (hnodup : (unused.map Entry.name).Nodup) :
    reaches target unused pending = true ↔
      ∃ c ∈ pending, Relation.ReflTransGen (Declares unused) c target := by
  fun_induction reaches target unused pending with
  | case1 => simp
  | case2 unused pending => simpa using .inl .refl
  | case3 unused c pending hne taken ih =>
    rw [ih hnodup, exists_chain_iff_of_not_declared (withdraw_eq_none taken) hne]
  | case4 unused c pending hne e others taken hlt ih =>
    obtain ⟨rfl, hperm⟩ := withdraw_eq_some taken
    have hnames := (hperm.map Entry.name).nodup_iff.mp hnodup
    rw [ih (List.nodup_cons.mp hnames).2, exists_chain_iff_of_perm hnodup hperm hne]

/-- **Subtypes** of a class are those from which a chain of declared supertypes leads to it. -/
theorem isSubtype_iff (k : Catalog) {sub super : ClassName} :
    k.isSubtype sub super = true ↔ Relation.ReflTransGen (Declares k.entries) sub super := by
  rw [isSubtype, reaches_iff k.nodup]
  simp

/-! ### Assignability -/

/-- No class is declared as a supertype of the class of all objects. -/
def ObjectIsRoot (k : Catalog) : Prop :=
  ∀ e ∈ k.entries, e.name = .core "Object" → e.supertypes = []

/-- What is assignable: a type to itself, a reference to the type of all objects, and a class to a
class that a chain leads to. -/
theorem assignable_iff (k : Catalog) {source target : TypeExpr} :
    k.assignable source target = true ↔
      source = target ∨ (source.isReference = true ∧ target = .object) ∨
        ∃ sub super, source = .named sub ∧ target = .named super ∧
          Relation.ReflTransGen (Declares k.entries) sub super := by
  have halways : source.alwaysFits target = true ↔
      source = target ∨ (source.isReference = true ∧ target = .object) := by
    simp [TypeExpr.alwaysFits, TypeExpr.isObject]
  unfold assignable
  split
  · rename_i sub super
    rw [Bool.or_eq_true, halways, isSubtype_iff, or_assoc]
    simp
  · rename_i hnamed
    rw [halways, ← or_assoc]
    refine ⟨.inl, fun h => h.resolve_right ?_⟩
    rintro ⟨sub, super, rfl, rfl, -⟩
    exact hnamed sub super rfl rfl

theorem assignable_refl (k : Catalog) (t : TypeExpr) : k.assignable t t = true :=
  k.assignable_iff.mpr (.inl rfl)

/-- No chain leads on from the class of all objects. -/
theorem ObjectIsRoot.eq_of_chain {k : Catalog} (h : k.ObjectIsRoot) {super : ClassName}
    (hchain : Relation.ReflTransGen (Declares k.entries) (.core "Object") super) :
    super = .core "Object" := by
  rcases hchain.cases_head with rfl | ⟨next, ⟨e, he, hname, hnext⟩, -⟩
  · rfl
  · rw [h e he hname] at hnext
    simp at hnext

/-- The type of all objects is assignable to itself only. -/
theorem ObjectIsRoot.eq_of_assignable {k : Catalog} (h : k.ObjectIsRoot) {target : TypeExpr}
    (htarget : k.assignable .object target = true) : target = .object := by
  rcases k.assignable_iff.mp htarget with rfl | ⟨-, rfl⟩ | ⟨sub, super, hsub, rfl, hchain⟩
  · rfl
  · rfl
  · obtain rfl : ClassName.core "Object" = sub := TypeExpr.named.inj hsub
    rw [h.eq_of_chain hchain]
    rfl

/-- What is assignable to a reference is a reference, and the other way round. -/
theorem isReference_of_assignable (k : Catalog) {source target : TypeExpr}
    (h : k.assignable source target = true) : target.isReference = source.isReference := by
  rcases k.assignable_iff.mp h with rfl | ⟨hsource, rfl⟩ | ⟨sub, super, rfl, rfl, -⟩
  · rfl
  · rw [hsource]
    rfl
  · rfl

/-- If no class is above the class of all objects, then assignability is transitive. -/
theorem ObjectIsRoot.assignable_trans {k : Catalog} (h : k.ObjectIsRoot)
    {source middle target : TypeExpr} (hsource : k.assignable source middle = true)
    (htarget : k.assignable middle target = true) : k.assignable source target = true := by
  rcases k.assignable_iff.mp hsource with rfl | ⟨hreference, rfl⟩ | ⟨sub, super, rfl, rfl, hchain⟩
  · exact htarget
  · obtain rfl := h.eq_of_assignable htarget
    exact hsource
  · rcases k.assignable_iff.mp htarget with rfl | ⟨-, rfl⟩ | ⟨sub', super', hmiddle, rfl, hchain'⟩
    · exact hsource
    · exact k.assignable_iff.mpr (.inr (.inl ⟨rfl, rfl⟩))
    · obtain rfl := TypeExpr.named.inj hmiddle
      exact k.assignable_iff.mpr (.inr (.inr ⟨_, _, rfl, rfl, hchain.trans hchain'⟩))

end Catalog
end CallPlan
