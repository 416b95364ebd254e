import CallPlan.Proofs.Fitting
import CallPlan.Proofs.PlanTree
import CallPlan.Proofs.Sharing

/-!
# The plans for a type

`IsPlan` says what the plans for a type are, without a word on trees and indices. Every plan fits
its type (`IsPlan.fits`), so the parts of a call pass the checks and the call is built. That is why
a fresh tree holds a plan at every index below its size (`Fresh.serves_tree`).
-/

namespace CallPlan

mutual

/-- The **plans** for a type under a demand and within a budget: the seeds of the type, the arrays
with one plan as component, and, as long as the budget allows, the calls of producers. -/
inductive IsPlan (k : Catalog) (granted : Access) :
    Nat → TypeExpr → Demand → Expression → Prop
  | seed {budget : Nat} {type : TypeExpr} {demand : Demand} {e : Expression}
      (mem : e ∈ type.seeds demand) : IsPlan k granted budget type demand e
  | array {budget : Nat} {component : TypeExpr} {demand : Demand} {e : Expression}
      (leaf : component.leaf.isVoid = false) (plan : IsPlan k granted budget component .all e) :
      IsPlan k granted budget (.array component) demand (.array component [e])
  | call {budget : Nat} {type : TypeExpr} {demand : Demand} {op : Operation}
      {implicit : Option Expression} {arguments : List Expression}
      (producer : op ∈ k.producers type granted)
      (receiver : IsImplicitPlan k granted budget (k.implicit? op) implicit)
      (plans : ArePlans k granted budget op.parameters arguments) :
      IsPlan k granted (budget + 1) type demand (.call op implicit arguments)

/-- A plan for an implicit argument, if there is one. -/
inductive IsImplicitPlan (k : Catalog) (granted : Access) :
    Nat → Option Implicit → Option Expression → Prop
  | none {budget : Nat} : IsImplicitPlan k granted budget none none
  | some {budget : Nat} {i : Implicit} {e : Expression}
      (plan : IsPlan k granted budget i.type .nonNull e) :
      IsImplicitPlan k granted budget (some i) (some e)

/-- Plans for the parameters of an operation, in order. -/
inductive ArePlans (k : Catalog) (granted : Access) :
    Nat → List TypeExpr → List Expression → Prop
  | nil {budget : Nat} : ArePlans k granted budget [] []
  | cons {budget : Nat} {type : TypeExpr} {types : List TypeExpr} {e : Expression}
      {es : List Expression} (plan : IsPlan k granted budget type .all e)
      (plans : ArePlans k granted budget types es) :
      ArePlans k granted budget (type :: types) (e :: es)

end

/-- The calls of an operation on plans. -/
def IsCallOn (k : Catalog) (granted : Access) (budget : Nat) (op : Operation) (e : Expression) :
    Prop :=
  ∃ implicit arguments, e = .call op implicit arguments ∧
    IsImplicitPlan k granted budget (k.implicit? op) implicit ∧
    ArePlans k granted budget op.parameters arguments

/-- The arrays with one plan as component. -/
def IsFilling (k : Catalog) (granted : Access) (budget : Nat) (component : TypeExpr)
    (e : Expression) : Prop :=
  ∃ plan, e = .array component [plan] ∧ IsPlan k granted budget component .all plan

/-- The three sources of plans. -/
theorem isPlan_iff {k : Catalog} {granted : Access} {budget : Nat} {type : TypeExpr}
    {demand : Demand} {e : Expression} :
    IsPlan k granted budget type demand e ↔
      e ∈ type.seeds demand ∨
      (∃ component, type = .array component ∧ component.leaf.isVoid = false ∧
        IsFilling k granted budget component e) ∨
      ∃ below, budget = below + 1 ∧
        ∃ op ∈ k.producers type granted, IsCallOn k granted below op e := by
  constructor
  · intro h
    cases h with
    | seed mem => exact .inl mem
    | array leaf plan => exact .inr (.inl ⟨_, rfl, leaf, _, rfl, plan⟩)
    | call producer receiver plans =>
      exact .inr (.inr ⟨_, rfl, _, producer, _, _, rfl, receiver, plans⟩)
  · rintro (mem | ⟨component, rfl, leaf, plan, rfl, hplan⟩ | ⟨below, rfl, op, producer, hcall⟩)
    · exact .seed mem
    · exact .array leaf hplan
    · obtain ⟨implicit, arguments, rfl, receiver, plans⟩ := hcall
      exact .call producer receiver plans

/-! ### Types of plans -/

/-- Seeds other than `null` are literals of the type and empty arrays. -/
theorem TypeExpr.mem_valueSeeds {t : TypeExpr} {e : Expression} (h : e ∈ t.valueSeeds) :
    (∃ l : Literal, e = .literal l ∧ l.type = t ∧ l.isNull = false) ∨
      ∃ component, t = .array component ∧ e = .array component [] := by
  cases t with
  | void => simp [valueSeeds] at h
  | primitive p =>
    obtain ⟨l, hl, rfl⟩ := List.mem_map.mp h
    refine .inl ⟨l, rfl, ?_⟩
    cases p <;> simp only [Primitive.seeds, List.mem_cons, List.not_mem_nil, or_false] at hl <;>
      rcases hl with rfl | rfl | rfl <;> exact ⟨rfl, rfl⟩
  | named c =>
    simp only [valueSeeds] at h
    split at h
    · rename_i hstring
      have htype : TypeExpr.named c = .string := by simpa [isString] using hstring
      simp only [List.mem_cons, List.not_mem_nil, or_false] at h
      rcases h with rfl | rfl <;> exact .inl ⟨_, rfl, htype.symm, rfl⟩
    · simp at h
  | array component =>
    simp only [valueSeeds] at h
    split at h
    · simp at h
    · exact .inr ⟨component, rfl, List.mem_singleton.mp h⟩

theorem TypeExpr.mem_nullSeed {t : TypeExpr} {e : Expression} (h : e ∈ t.nullSeed) :
    ∃ hreference, e = .literal (.null t hreference) := by
  unfold nullSeed at h
  split at h
  · exact ⟨_, List.mem_singleton.mp h⟩
  · simp at h

/-- Seeds are literals of the type and empty arrays. -/
theorem TypeExpr.mem_seeds {t : TypeExpr} {demand : Demand} {e : Expression}
    (h : e ∈ t.seeds demand) :
    (∃ l : Literal, e = .literal l ∧ l.type = t) ∨
      ∃ component, t = .array component ∧ e = .array component [] := by
  rcases List.mem_append.mp h with h | h
  · exact (mem_valueSeeds h).imp_left fun ⟨l, he, htype, _⟩ => ⟨l, he, htype⟩
  · split at h
    · obtain ⟨hreference, rfl⟩ := mem_nullSeed h
      exact .inl ⟨_, rfl, rfl⟩
    · simp at h

/-- A seed has the very type that it is a seed of. -/
theorem TypeExpr.type_of_mem_seeds {t : TypeExpr} {demand : Demand} {e : Expression}
    (h : e ∈ t.seeds demand) : e.type = t := by
  obtain ⟨l, rfl, htype⟩ | ⟨component, rfl, rfl⟩ := mem_seeds h
  · exact htype
  · rfl

/-- What the catalogue offers as producers. -/
theorem Catalog.mem_producers_iff (k : Catalog) {t : TypeExpr} {granted : Access}
    {op : Operation} :
    op ∈ k.producers t granted ↔
      ∃ e ∈ k.entries, op ∈ e.operations ∧ op.access.admits granted = true ∧
        yieldsValue e op = true ∧ k.assignable op.result t = true := by
  simp only [producers, List.mem_flatMap, List.mem_filter, Bool.and_eq_true, and_assoc]

/-- The result of a producer is assignable. -/
theorem Catalog.assignable_of_mem_producers (k : Catalog) {t : TypeExpr} {granted : Access}
    {op : Operation} (h : op ∈ k.producers t granted) : k.assignable op.result t = true := by
  obtain ⟨entry, -, -, -, -, hassignable⟩ := k.mem_producers_iff.mp h
  exact hassignable

section

variable {k : Catalog} {granted : Access} {budget : Nat}

/-- A plan fits its type. -/
theorem IsPlan.fits {type : TypeExpr} {demand : Demand} {e : Expression}
    (h : IsPlan k granted budget type demand e) : e.type.fits type = true := by
  cases h with
  | seed mem => rw [TypeExpr.type_of_mem_seeds mem, TypeExpr.fits_refl]
  | array leaf plan => exact TypeExpr.fits_refl _
  | call producer receiver plans =>
    exact k.fits_of_assignable (k.assignable_of_mem_producers producer)

theorem IsImplicitPlan.isReference {i : Option Implicit} {implicit : Option Expression}
    (h : IsImplicitPlan k granted budget i implicit) :
    ∀ e ∈ implicit, e.type.isReference = true := by
  cases h with
  | none => simp
  | some plan =>
    rintro e ⟨⟩
    exact TypeExpr.isReference_of_fits_named plan.fits

theorem IsImplicitPlan.isSome_eq {i : Option Implicit} {implicit : Option Expression}
    (h : IsImplicitPlan k granted budget i implicit) : implicit.isSome = i.isSome := by
  cases h <;> rfl

theorem arePlans_iff_forall₂ {types : List TypeExpr} {es : List Expression} :
    ArePlans k granted budget types es ↔
      List.Forall₂ (fun t e => IsPlan k granted budget t .all e) types es := by
  induction types generalizing es with
  | nil =>
    constructor
    · rintro ⟨⟩
      exact .nil
    · rintro ⟨⟩
      exact .nil
  | cons t types ih =>
    constructor
    · rintro ⟨⟩
      rename_i plan plans
      exact .cons plan (ih.mp plans)
    · rintro ⟨⟩
      rename_i plan plans
      exact .cons plan (ih.mpr plans)

theorem ArePlans.allFit {types : List TypeExpr} {es : List Expression}
    (h : ArePlans k granted budget types es) : Expression.AllFit es types :=
  ((arePlans_iff_forall₂.mp h).imp fun _ _ plan => plan.fits).flip

/-- An implicit argument and the others come of one list. -/
theorem IsImplicitPlan.exists_split {i : Option Implicit} {implicit : Option Expression}
    (h : IsImplicitPlan k granted budget i implicit) (arguments : List Expression) :
    ∃ plans, Assembly.split i plans = (implicit, arguments) := by
  cases h with
  | none => exact ⟨arguments, rfl⟩
  | some plan => exact ⟨_ :: arguments, rfl⟩

/-- Plans for all slots are plans for the implicit argument and for the parameters. -/
theorem forall₂_slotsOf_iff {op : Operation} {i : Option Implicit} {plans : List Expression} :
    List.Forall₂ (fun slot e => IsPlan k granted budget slot.1 slot.2 e) (Sharing.slotsOf op i)
        plans ↔
      IsImplicitPlan k granted budget i (Assembly.split i plans).1 ∧
        ArePlans k granted budget op.parameters (Assembly.split i plans).2 := by
  cases i with
  | none =>
    simp only [Sharing.slotsOf, Assembly.split, Option.toList_none, List.map_nil, List.nil_append,
      List.forall₂_map_left_iff, arePlans_iff_forall₂]
    exact ⟨fun h => ⟨.none, h⟩, fun h => h.2⟩
  | some i =>
    simp only [Sharing.slotsOf, Option.toList_some, List.map_cons, List.map_nil, List.cons_append,
      List.nil_append, arePlans_iff_forall₂]
    cases plans with
    | nil =>
      constructor
      · rintro ⟨⟩
      · rintro ⟨⟨⟩, -⟩
    | cons e plans =>
      rw [List.forall₂_cons, List.forall₂_map_left_iff]
      constructor
      · rintro ⟨plan, plans⟩
        exact ⟨.some plan, plans⟩
      · rintro ⟨receiver, plans⟩
        cases receiver with
        | some plan => exact ⟨plan, plans⟩

end

/-! ### Calls on plans -/

/-- An operation other than a constructor has an implicit argument exactly if it is not static. -/
theorem Catalog.isSome_implicit? (k : Catalog) {op : Operation} (h : op.isConstructor = false) :
    (k.implicit? op).isSome = !op.isStatic := by
  rw [implicit?, if_neg (by simp [h])]
  cases op.isStatic <;> rfl

section

variable {k : Catalog} {granted : Access} {budget : Nat}

/-- Plans for the slots of an operation make a call. -/
theorem call?_eq_ok_of_plans {op : Operation} {implicit : Option Expression}
    {arguments : List Expression}
    (receiver : IsImplicitPlan k granted budget (k.implicit? op) implicit)
    (plans : ArePlans k granted budget op.parameters arguments) :
    Expression.call? op implicit arguments = .ok (.call op implicit arguments) := by
  refine Expression.call?_eq_ok plans.allFit receiver.isReference fun hmethod => ?_
  rw [receiver.isSome_eq, k.isSome_implicit? hmethod]

/-- The calls of an operation are those on plans for all its slots. -/
theorem isCallOn_iff {op : Operation} {e : Expression} :
    IsCallOn k granted budget op e ↔
      ∃ plans, List.Forall₂ (fun slot e => IsPlan k granted budget slot.1 slot.2 e)
          (Sharing.slotsOf op (k.implicit? op)) plans ∧
        e = Assembly.callOn op (k.implicit? op) plans := by
  constructor
  · rintro ⟨implicit, arguments, rfl, receiver, plans⟩
    obtain ⟨all, hall⟩ := receiver.exists_split arguments
    refine ⟨all, forall₂_slotsOf_iff.mpr ?_, ?_⟩
    · rw [hall]
      exact ⟨receiver, plans⟩
    · rw [Assembly.callOn, hall]
  · rintro ⟨plans, hplans, rfl⟩
    obtain ⟨receiver, arguments⟩ := forall₂_slotsOf_iff.mp hplans
    exact ⟨_, _, rfl, receiver, arguments⟩

namespace Fresh

/-- If the trees below hold plans at all their indices, then so do the calls of an operation. -/
theorem serves_calls {below : TypeExpr → Demand → PlanTree}
    (h : ∀ type demand, (below type demand).Serves (IsPlan k granted budget type demand))
    (op : Operation) :
    (calls k below op).toTree.Serves (IsCallOn k granted budget op) := by
  refine PlanTree.serves_product _ (fun slot _ => h slot.1 slot.2) fun plans hplans => ?_
  obtain ⟨receiver, arguments⟩ := forall₂_slotsOf_iff.mp hplans
  rw [Assembly.build?_operation]
  exact ⟨_, call?_eq_ok_of_plans receiver arguments, _, _, rfl, receiver, arguments⟩

/-- An array is filled with whatever the tree of its components serves, if that fits. -/
theorem serves_filling {component : TypeExpr} {components : PlanTree} {P : Expression → Prop}
    (hfits : ∀ e, P e → e.type.fits component = true) (h : components.Serves P) :
    (PlanTree.product (.array component) [components]).Serves
      fun e => ∃ plan, e = .array component [plan] ∧ P plan := by
  refine PlanTree.serves_product [components] (f := id) (P := fun _ => P) ?_
    fun plans hplans => ?_
  · simpa using h
  · obtain ⟨plan, rest, hplan, hrest, rfl⟩ := List.forall₂_cons_left_iff.mp hplans
    obtain rfl := List.forall₂_nil_left_iff.mp hrest
    have hfit : ∀ e ∈ [plan], e.type.fits component = true := by
      intro e he
      obtain rfl := List.mem_singleton.mp he
      exact hfits e hplan
    exact ⟨_, Expression.fill?_eq_ok hfit, plan, rfl, hplan⟩

/-- An array is filled with any plan for its component type. -/
theorem serves_array {component : TypeExpr} {components : PlanTree}
    (h : components.Serves (IsPlan k granted budget component .all)) :
    (PlanTree.product (.array component) [components]).Serves
      (IsFilling k granted budget component) :=
  serves_filling (fun _ hplan => hplan.fits) h

/-- **Induction on budget and type**: calls go down to a budget less by one, whatever the types, and
arrays to their component type within the same budget. -/
theorem budget_type_induction {P : Nat → TypeExpr → Prop}
    (step : ∀ budget type, (∀ below, budget = below + 1 → ∀ t, P below t) →
      (∀ component, type = .array component → P budget component) → P budget type)
    (budget : Nat) (type : TypeExpr) : P budget type := by
  induction budget generalizing type with
  | zero =>
    induction type with
    | array component ih =>
      exact step 0 _ (fun _ h => by cases h) fun c h => TypeExpr.array.inj h ▸ ih
    | void | primitive p | named c => exact step 0 _ (fun _ h => by cases h) fun c h => by cases h
  | succ budget below =>
    have hbelow : ∀ b, budget + 1 = b + 1 → ∀ t, P b t := fun b h t => Nat.succ.inj h ▸ below t
    induction type with
    | array component ih => exact step _ _ hbelow fun c h => TypeExpr.array.inj h ▸ ih
    | void | primitive p | named c => exact step _ _ hbelow fun c h => by cases h

theorem mem_seedAlternative {type : TypeExpr} {demand : Demand} {tree : PlanTree}
    (h : tree ∈ Sharing.seedAlternative type demand) : tree = .values type (type.seeds demand) := by
  simp only [Sharing.seedAlternative] at h
  split at h
  · simp at h
  · exact List.mem_singleton.mp h

theorem mem_arrays {type : TypeExpr} {tree : PlanTree} (h : tree ∈ arrays k granted budget type) :
    ∃ component, type = .array component ∧ component.leaf.isVoid = false ∧
      tree = .product (.array component) [Fresh.tree k granted budget component .all] := by
  unfold arrays at h
  split at h
  · rename_i component
    split at h
    · simp at h
    · rename_i hleaf
      simp only [Sharing.arrayAlternative] at h
      split at h
      · simp at h
      · exact ⟨component, rfl, by simpa using hleaf, List.mem_singleton.mp h⟩
  · simp at h

theorem mem_callAlternatives {below : TypeExpr → Demand → PlanTree} {type : TypeExpr}
    {tree : PlanTree} (h : tree ∈ callAlternatives k granted below type) :
    ∃ op ∈ k.producers type granted, tree = (calls k below op).toTree := by
  obtain ⟨c, hc, rfl⟩ := List.mem_map.mp h
  obtain ⟨op, hop, rfl⟩ := List.mem_map.mp (List.mem_of_mem_filter hc)
  exact ⟨op, hop, rfl⟩

theorem mem_called {type : TypeExpr} {tree : PlanTree} (h : tree ∈ called k granted budget type) :
    ∃ below, budget = below + 1 ∧ ∃ op ∈ k.producers type granted,
      tree = (calls k (Fresh.tree k granted below) op).toTree := by
  cases budget with
  | zero => simp [called] at h
  | succ below => exact ⟨below, rfl, mem_callAlternatives h⟩

/-- An alternative of a tree lists the seeds, fills arrays, or calls a producer. -/
theorem mem_alternatives {type : TypeExpr} {demand : Demand} {tree : PlanTree}
    (h : tree ∈ alternatives k granted budget type demand) :
    tree = .values type (type.seeds demand) ∨
      (∃ component, type = .array component ∧ component.leaf.isVoid = false ∧
        tree = .product (.array component) [Fresh.tree k granted budget component .all]) ∨
      ∃ below, budget = below + 1 ∧ ∃ op ∈ k.producers type granted,
        tree = (calls k (Fresh.tree k granted below) op).toTree := by
  rcases List.mem_append.mp h with h | h
  · exact (List.mem_append.mp h).imp mem_seedAlternative fun h => .inl (mem_arrays h)
  · exact .inr (.inr (mem_called h))

/-- A fresh tree holds a **plan at every index** below its size. -/
theorem serves_tree (k : Catalog) (granted : Access) (budget : Nat) (type : TypeExpr)
    (demand : Demand) :
    (tree k granted budget type demand).Serves (IsPlan k granted budget type demand) := by
  induction budget, type using budget_type_induction generalizing demand with
  | step budget type hbelow hcomponent =>
    rw [tree_eq]
    -- every alternative holds plans of one source
    refine PlanTree.serves_sum fun child hchild => ?_
    obtain rfl | ⟨component, rfl, hleaf, rfl⟩ | ⟨below, rfl, op, hop, rfl⟩ :=
      mem_alternatives hchild
    · exact PlanTree.serves_values fun e he => .seed he
    · refine (serves_array (hcomponent component rfl .all)).imp fun e hfilling => ?_
      exact isPlan_iff.mpr (.inr (.inl ⟨component, rfl, hleaf, hfilling⟩))
    · refine (serves_calls (hbelow below rfl) op).imp fun e hcall => ?_
      exact isPlan_iff.mpr (.inr (.inr ⟨below, rfl, op, hop, hcall⟩))

end Fresh

/-- **Induction on plans**, one case for each source. The plans in a call are given for all its
slots together, the implicit one first. -/
@[elab_as_elim]
theorem IsPlan.induction {motive : Nat → TypeExpr → Demand → Expression → Prop}
    (seed : ∀ budget type demand e, e ∈ type.seeds demand → motive budget type demand e)
    (array : ∀ budget component demand e, motive budget component .all e →
      motive budget (.array component) demand (.array component [e]))
    (call : ∀ budget type demand op plans, op ∈ k.producers type granted →
      List.Forall₂ (fun slot e => motive budget slot.1 slot.2 e)
        (Sharing.slotsOf op (k.implicit? op)) plans →
      motive (budget + 1) type demand (Assembly.callOn op (k.implicit? op) plans))
    {type : TypeExpr} {demand : Demand} {e : Expression}
    (h : IsPlan k granted budget type demand e) : motive budget type demand e := by
  induction budget, type using Fresh.budget_type_induction generalizing demand e with
  | step budget type hbelow hcomponent =>
    rcases isPlan_iff.mp h with
      hseed | ⟨component, rfl, hleaf, plan, rfl, hplan⟩ | ⟨below, rfl, op, hop, hcall⟩
    · exact seed _ _ _ _ hseed
    · exact array _ _ _ _ (hcomponent component rfl hplan)
    · obtain ⟨plans, hplans, rfl⟩ := isCallOn_iff.mp hcall
      exact call _ _ _ _ _ hop (hplans.imp fun slot e hplan => hbelow below rfl slot.1 hplan)

end

end CallPlan
