import CallPlan.Plan.Expression
import CallPlan.Signature.Catalog
import Mathlib

/-!
# Fitting parts

The checks that build calls and arrays know nothing of how classes are related, and so they pass
whatever a catalogue takes to be assignable (`Catalog.fits_of_assignable`). Parts that fit are put
together without an error (`Expression.call?_eq_ok`, `Expression.fill?_eq_ok`).
-/

namespace CallPlan

/-! ### Types that fit -/

namespace TypeExpr

@[simp]
theorem alwaysFits_refl (t : TypeExpr) : t.alwaysFits t = true := by
  simp [alwaysFits]

@[simp]
theorem fits_refl (t : TypeExpr) : t.fits t = true := by
  induction t with
  | array component ih =>
    rw [fits]
    split
    · exact beq_self_eq_true component
    · exact ih
  | void | primitive p | named c => simp [fits]

/-- What fits in every catalogue fits without one. -/
theorem fits_of_alwaysFits {source target : TypeExpr} (h : source.alwaysFits target = true) :
    source.fits target = true := by
  simp only [alwaysFits, Bool.or_eq_true, beq_iff_eq, Bool.and_eq_true] at h
  rcases h with rfl | ⟨hsource, hobject⟩
  · exact fits_refl source
  · obtain rfl : target = object := by simpa [isObject] using hobject
    cases source with
    | named c => rfl
    | array component => simp [fits, alwaysFits, isReference, isObject, object]
    | void | primitive p => simp [isReference] at hsource

/-- What fits a class is a reference. -/
theorem isReference_of_fits_named {t : TypeExpr} {c : ClassName} (h : t.fits (.named c) = true) :
    t.isReference = true := by
  cases t with
  | named d | array component => rfl
  | void | primitive p => simp [fits, alwaysFits, isReference] at h

end TypeExpr

/-- What a catalogue takes to be assignable passes the checks. -/
theorem Catalog.fits_of_assignable (k : Catalog) {source target : TypeExpr}
    (h : k.assignable source target = true) : source.fits target = true := by
  unfold Catalog.assignable at h
  split at h
  · rfl
  · exact TypeExpr.fits_of_alwaysFits h

/-! ### Parts that fit -/

namespace Expression

/-- Expressions that fit the types listed with them. -/
def AllFit (es : List Expression) (expected : List TypeExpr) : Prop :=
  List.Forall₂ (fun e t => e.type.fits t = true) es expected

/-- There is no misfit exactly if every expression fits the type that is listed with it. -/
theorem firstMisfit?_eq_none_iff {es : List Expression} {expected : List TypeExpr} :
    firstMisfit? es expected = none ↔
      ∀ typed ∈ (es.map Expression.type).zip expected, typed.1.fits typed.2 = true := by
  simp only [firstMisfit?, Option.map_eq_none_iff, List.find?_eq_none, Bool.not_eq_true',
    Bool.not_eq_false]
  constructor
  · intro h typed hmem
    obtain ⟨index, hindex⟩ := List.mem_iff_getElem?.mp hmem
    exact h (typed, index) (List.mem_zipIdx_iff_getElem?.mpr hindex)
  · intro h entry hmem
    exact h entry.1 (List.mem_of_getElem? (List.mem_zipIdx_iff_getElem?.mp hmem))

theorem AllFit.firstMisfit?_eq_none {es : List Expression} {expected : List TypeExpr}
    (h : AllFit es expected) : firstMisfit? es expected = none := by
  rw [firstMisfit?_eq_none_iff]
  intro typed hmem
  rw [List.zip_map_left] at hmem
  obtain ⟨⟨e, t⟩, hpair, rfl⟩ := List.mem_map.mp hmem
  exact (List.forall₂_iff_zip.mp h).2 hpair

/-- A call is built from arguments that fit, an implicit argument that is a reference, and a
receiver exactly for instance methods. -/
theorem call?_eq_ok {op : Operation} {implicit : Option Expression} {arguments : List Expression}
    (harguments : AllFit arguments op.parameters)
    (himplicit : ∀ e ∈ implicit, e.type.isReference = true)
    (hreceiver : op.isConstructor = false → implicit.isSome = !op.isStatic) :
    call? op implicit arguments = .ok (.call op implicit arguments) := by
  have hlength : arguments.length = op.arity := harguments.length_eq
  have hnothing : implicit.filter (!·.type.isReference) = none := by
    rw [Option.filter_eq_none_iff]
    intro e he
    simp [himplicit e he]
  have hstatic : (!op.isConstructor && op.isStatic && implicit.isSome) = false := by
    cases hc : op.isConstructor with
    | true => rfl
    | false => simp [hreceiver hc]
  have hinstance : (!op.isConstructor && !op.isStatic && implicit.isNone) = false := by
    cases hc : op.isConstructor with
    | true => rfl
    | false =>
      rw [← Option.not_isSome, hreceiver hc]
      simp
  rw [call?, if_neg (not_not.mpr hlength), hstatic, hinstance, hnothing]
  simp only [Bool.false_eq_true, if_false, harguments.firstMisfit?_eq_none]

/-- An array is built from components that fit. -/
theorem fill?_eq_ok {component : TypeExpr} {components : List Expression}
    (h : ∀ e ∈ components, e.type.fits component = true) :
    fill? component components = .ok (.array component components) := by
  have hfit : AllFit components (List.replicate components.length component) := by
    rw [AllFit, List.forall₂_iff_zip]
    refine ⟨List.length_replicate.symm, fun hmem => ?_⟩
    obtain ⟨he, ht⟩ := List.of_mem_zip hmem
    exact List.eq_of_mem_replicate ht ▸ h _ he
  rw [fill?, hfit.firstMisfit?_eq_none]

end Expression

end CallPlan
