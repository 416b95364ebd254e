import CallPlan.Proofs.Building

/-!
# Which types fit which

`TypeExpr.fits` compares two array types one dimension after the other, and takes two classes to be
related when it meets them. What comes of this can be told from the leaves and the numbers of
dimensions of the two types (`TypeExpr.fits_iff`). It holds for whatever a catalogue takes to be
assignable. So the calls of producers that a catalogue offers for the slots of an operation, or for
the components of an array, pass the checks of the call and of the array
(`fits_iff_and_takes_producers`).
-/

namespace CallPlan

/-! ### Types by leaf and dimensions -/

namespace TypeExpr

/-- With a primitive type, nothing but the type itself can fit. -/
theorem not_fits_by_leaf {source target : TypeExpr}
    (h : source.isPrimitive = true ∨ target.isPrimitive = true) :
    ¬ ((source.dimensions = target.dimensions ∧ (∃ c, source.leaf = .named c) ∧
        ∃ d, target.leaf = .named d) ∨
      (target.dimensions < source.dimensions ∧ target.leaf = .object)) := by
  rcases h with hsource | htarget
  · cases source with
    | primitive p => simp [dimensions, leaf]
    | void | named c | array component => cases hsource
  · cases target with
    | primitive p => simp [leaf, object]
    | void | named c | array component => cases htarget

/-- A type fits itself. Apart from that, classes fit classes, arrays of classes fit arrays of
classes with as many dimensions, and arrays of anything fit the type of all objects and its arrays
with fewer dimensions. -/
theorem fits_iff {source target : TypeExpr} :
    source.fits target = true ↔
      source = target ∨
      (source.dimensions = target.dimensions ∧ (∃ c, source.leaf = .named c) ∧
        ∃ d, target.leaf = .named d) ∨
      (target.dimensions < source.dimensions ∧ target.leaf = .object) := by
  induction source generalizing target with
  | array component ih =>
    cases target with
    | array other =>
      -- one dimension less on both sides
      simp only [dimensions, leaf, TypeExpr.array.injEq, Nat.add_right_cancel_iff,
        Nat.add_lt_add_iff_right]
      rw [fits]
      split_ifs with hprimitive
      · have hleaf := not_fits_by_leaf (by simpa using hprimitive)
        rw [beq_iff_eq, or_iff_left hleaf]
      · exact ih
    | named d => simp [fits, alwaysFits, isReference, isObject, dimensions, leaf]
    | void | primitive q => simp [fits, alwaysFits, isObject, object, dimensions, leaf]
  | named c =>
    cases target <;> simp [fits, alwaysFits, isObject, object, dimensions, leaf]
  | void | primitive p => simp [fits, alwaysFits, isReference, dimensions, leaf]

/-- Arrays of numbers are objects, and numbers are not. -/
example : (array (array (primitive .int))).fits (array object) = true ∧
    (array (primitive .int)).fits (array object) = false := by decide

end TypeExpr

/-! ### Calls of producers -/

/-- The expression has the type of what a **producer** makes that the catalogue offers for `t`. -/
def Catalog.Supplies (k : Catalog) (granted : Access) (t : TypeExpr) (e : Expression) : Prop :=
  ∃ op ∈ k.producers t granted, e.type = op.result

namespace Catalog.Supplies

variable {k : Catalog} {granted : Access}

/-- What is supplied for a type fits it. -/
theorem fits {t : TypeExpr} {e : Expression} (h : k.Supplies granted t e) :
    e.type.fits t = true := by
  obtain ⟨op, hop, htype⟩ := h
  rw [htype]
  exact k.fits_of_assignable (k.assignable_of_mem_producers hop)

/-- What is supplied for an implicit argument is a reference. -/
theorem isReference {i : Option Implicit} {implicit : Option Expression}
    (h : Option.Rel (k.Supplies granted) (i.map Implicit.type) implicit) :
    ∀ e ∈ implicit, e.type.isReference = true := by
  rintro e rfl
  cases i with
  | none => cases h
  | some i =>
    cases h with
    | some hsupplies => exact TypeExpr.isReference_of_fits_named hsupplies.fits

theorem isSome_eq {t : Option TypeExpr} {implicit : Option Expression}
    (h : Option.Rel (k.Supplies granted) t implicit) : implicit.isSome = t.isSome := by
  cases h <;> rfl

end Catalog.Supplies

/-- **What fits, and that producers do.** A value of one type may be assigned to another one, as far
as can be known without a catalogue, exactly if the types are the same, if both have classes as
leaves and as many dimensions, or if the first has more dimensions and the second has the class of
all objects as its leaf. Whatever a catalogue takes to be assignable is among this. So a call is
built from an implicit argument and arguments that come from producers offered for its slots, and an
array from components that come from producers offered for its component type; and they may come
from anywhere else too if they fit. -/
theorem fits_iff_and_takes_producers :
    (∀ source target : TypeExpr, source.fits target = true ↔
      source = target ∨
      (source.dimensions = target.dimensions ∧ (∃ c, source.leaf = .named c) ∧
        ∃ d, target.leaf = .named d) ∨
      (target.dimensions < source.dimensions ∧ target.leaf = .object)) ∧
    ∀ (k : Catalog) (granted : Access),
      (∀ source target : TypeExpr, k.assignable source target = true →
        source.fits target = true) ∧
      (∀ (op : Operation) (implicit : Option Expression) (arguments : List Expression),
        Option.Rel (k.Supplies granted) ((k.implicit? op).map Implicit.type) implicit →
        List.Forall₂ (fun e t => k.Supplies granted t e ∨ e.type.fits t = true) arguments
          op.parameters →
        Expression.call? op implicit arguments = .ok (.call op implicit arguments)) ∧
      ∀ (component : TypeExpr) (components : List Expression),
        (∀ e ∈ components, k.Supplies granted component e ∨ e.type.fits component = true) →
        Expression.fill? component components = .ok (.array component components) := by
  refine ⟨fun source target => TypeExpr.fits_iff, fun k granted => ⟨fun source target h =>
    k.fits_of_assignable h, fun op implicit arguments himplicit harguments => ?_,
    fun component components hcomponents => ?_⟩⟩
  · have hfit : Expression.AllFit arguments op.parameters :=
      harguments.imp fun _ _ h => h.elim Catalog.Supplies.fits id
    refine Expression.call?_eq_ok hfit (Catalog.Supplies.isReference himplicit) fun hmethod => ?_
    rw [Catalog.Supplies.isSome_eq himplicit, Option.isSome_map, k.isSome_implicit? hmethod]
  · exact Expression.fill?_eq_ok fun e he =>
      (hcomponents e he).elim Catalog.Supplies.fits id

namespace Gallery

/-- Both ways to get a shape are offered. -/
theorem producers_shape : catalog.producers (.named shape) .global = [grow, makeCircle] := by cbv

theorem supplies_newCircle : catalog.Supplies .global (.named shape) newCircle :=
  ⟨makeCircle, by simp [producers_shape], rfl⟩

/-- What a new circle grows into by a number. -/
def grown : Expression := .call grow (some newCircle) [.literal (.int 1)]

theorem supplies_grown : catalog.Supplies .global (.named shape) grown :=
  ⟨grow, by simp [producers_shape], rfl⟩

/-- A circle is taken for the shape that grows, by a number that no producer makes, and so are both
shapes for an array, beside `null`. -/
theorem fits_iff_and_takes_producers_grow :
    (catalog.assignable (.named circle) (.named shape) = true ∧
      (TypeExpr.named circle).fits (.named shape) = true) ∧
    (Option.Rel (catalog.Supplies .global) ((catalog.implicit? grow).map Implicit.type)
        (some newCircle) ∧
      Expression.call? grow (some newCircle) [.literal (.int 1)] = .ok grown) ∧
    (catalog.Supplies .global (.named shape) newCircle ∧
      catalog.Supplies .global (.named shape) grown ∧
      Expression.fill? (.named shape) [newCircle, grown, .literal (.null (.named shape) rfl)] =
        .ok (.array (.named shape) [newCircle, grown, .literal (.null (.named shape) rfl)])) := by
  obtain ⟨-, htakes⟩ := fits_iff_and_takes_producers
  obtain ⟨hassignable, hcall, hfill⟩ := htakes catalog .global
  have hcircle : catalog.assignable (.named circle) (.named shape) = true := by cbv
  have hreceiver : Option.Rel (catalog.Supplies .global)
      ((catalog.implicit? grow).map Implicit.type) (some newCircle) := .some supplies_newCircle
  refine ⟨⟨hcircle, hassignable _ _ hcircle⟩, ⟨hreceiver, ?_⟩, supplies_newCircle, supplies_grown,
    ?_⟩
  · exact hcall grow _ _ hreceiver (.cons (.inr rfl) .nil)
  · refine hfill _ _ fun e he => ?_
    simp only [List.mem_cons, List.not_mem_nil, or_false] at he
    rcases he with rfl | rfl | rfl
    · exact .inl supplies_newCircle
    · exact .inl supplies_grown
    · exact .inr rfl

end Gallery

end CallPlan
