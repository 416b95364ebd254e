import CallPlan.Proofs.Plans

/-!
# The exact number of plans

`Catalog.planCount` counts the plans of a type with numbers of any size. The size of a tree is this
count, cut off once: cutting off inside every sum and product and leaving out empty operations make
no difference (`Fresh.size_tree`, `Subject.size_fresh`).
-/

namespace CallPlan

namespace Catalog

/-- The number of calls of an operation, if `below` counts the plans for each slot. -/
def callCount (k : Catalog) (below : TypeExpr → Demand → Nat) (op : Operation) : Nat :=
  let receivers := match k.implicit? op with
    | none => 1
    | some i => below i.type .nonNull
  receivers * (op.parameters.map fun t => below t .all).prod

/-- The number of plans of a type, if `called` counts those that call an operation. -/
def planCountWith (called : TypeExpr → Nat) : TypeExpr → Demand → Nat
  | .array component, demand =>
    ((TypeExpr.array component).seeds demand).length +
      (if component.leaf.isVoid then 0 else planCountWith called component .all) +
      called (.array component)
  | type, demand => (type.seeds demand).length + called type

/-- The **exact number of plans** of a type under a demand and within a budget. -/
def planCount (k : Catalog) (granted : Access) : Nat → TypeExpr → Demand → Nat
  | 0 => planCountWith fun _ => 0
  | budget + 1 => planCountWith fun type =>
    ((k.producers type granted).map (k.callCount (k.planCount granted budget))).sum

/-- The number of plans that call an operation. -/
def calledCount (k : Catalog) (granted : Access) : Nat → TypeExpr → Nat
  | 0, _ => 0
  | budget + 1, type =>
    ((k.producers type granted).map (k.callCount (k.planCount granted budget))).sum

/-- The number of plans that fill an array with one component. -/
def arrayCount (k : Catalog) (granted : Access) (budget : Nat) : TypeExpr → Nat
  | .array component =>
    if component.leaf.isVoid then 0 else k.planCount granted budget component .all
  | _ => 0

theorem planCount_eq_planCountWith (k : Catalog) (granted : Access) (budget : Nat) :
    k.planCount granted budget = planCountWith (k.calledCount granted budget) := by
  cases budget <;> rfl

/-- Plans are seeds, filled arrays and calls, and each of these are counted by themselves. -/
theorem planCount_eq (k : Catalog) (granted : Access) (budget : Nat) (type : TypeExpr)
    (demand : Demand) :
    k.planCount granted budget type demand =
      (type.seeds demand).length + k.arrayCount granted budget type +
        k.calledCount granted budget type := by
  cases type with
  | array component =>
    rw [planCount_eq_planCountWith, planCountWith, arrayCount, planCount_eq_planCountWith]
  | void | primitive p | named c =>
    rw [planCount_eq_planCountWith, planCountWith, arrayCount, Nat.add_zero]
    all_goals simp

/-- The plans for the slots of an operation, multiplied out. -/
theorem prod_slotsOf (k : Catalog) (below : TypeExpr → Demand → Nat) (op : Operation) :
    ((Sharing.slotsOf op (k.implicit? op)).map fun slot => below slot.1 slot.2).prod =
      k.callCount below op := by
  unfold callCount Sharing.slotsOf
  cases k.implicit? op <;> simp [Function.comp_def]

end Catalog

/-! ### Sizes of trees -/

/-- Leaving out zeros does not change a sum. -/
theorem sum_map_filter_ne_zero {α : Type} (f : α → Nat) (l : List α) :
    ((l.filter fun a => f a ≠ 0).map f).sum = (l.map f).sum := by
  induction l with
  | nil => rfl
  | cons a l ih =>
    by_cases h : f a = 0
    · rw [List.filter_cons_of_neg (by simp [h]), ih, List.map_cons, List.sum_cons, h, Nat.zero_add]
    · rw [List.filter_cons_of_pos (by simp [h]), List.map_cons, List.map_cons, List.sum_cons,
        List.sum_cons, ih]

theorem clamp_add_congr {a b c d : Nat} (hac : clamp a = clamp c) (hbd : clamp b = clamp d) :
    clamp (a + b) = clamp (c + d) := by
  rw [← clamp_clamp_add, ← clamp_add_clamp, hac, hbd, clamp_clamp_add, clamp_add_clamp]

namespace Fresh

variable {k : Catalog} {granted : Access} {budget : Nat}

/-- Calls are as many as the plans for their slots allow, cut off once. -/
theorem size_calls {below : TypeExpr → Demand → PlanTree} {count : TypeExpr → Demand → Nat}
    (h : ∀ type demand, (below type demand).size = clamp (count type demand)) (op : Operation) :
    (calls k below op).size = clamp (k.callCount count op) := by
  have hsizes : (calls k below op).slots.map PlanTree.size =
      ((Sharing.slotsOf op (k.implicit? op)).map fun slot => count slot.1 slot.2).map clamp := by
    rw [calls, List.map_map, List.map_map]
    exact List.map_congr_left fun slot _ => h slot.1 slot.2
  rw [Calls.size, hsizes, productOf_eq_clamp_prod, clamp_prod_map_clamp, k.prod_slotsOf]

/-- Trees that are left out because they are empty do not count. -/
theorem sum_sizes_callAlternatives {below : TypeExpr → Demand → PlanTree}
    {count : TypeExpr → Demand → Nat}
    (h : ∀ type demand, (below type demand).size = clamp (count type demand)) (type : TypeExpr) :
    clamp ((callAlternatives k granted below type).map PlanTree.size).sum =
      clamp ((k.producers type granted).map (k.callCount count)).sum := by
  have hsizes : (k.producers type granted).map (fun op => (calls k below op).size) =
      ((k.producers type granted).map (k.callCount count)).map clamp := by
    rw [List.map_map]
    exact List.map_congr_left fun op _ => size_calls h op
  calc clamp ((callAlternatives k granted below type).map PlanTree.size).sum
      = clamp ((((k.producers type granted).map (calls k below)).filter
          fun c => c.size ≠ 0).map Calls.size).sum := by
        rw [callAlternatives, List.map_map]
        rfl
    _ = clamp (((k.producers type granted).map (calls k below)).map Calls.size).sum := by
        rw [sum_map_filter_ne_zero]
    _ = clamp ((k.producers type granted).map (k.callCount count)).sum := by
        rw [List.map_map, Function.comp_def, hsizes, clamp_sum_map_clamp]

theorem sum_sizes_seedAlternative (type : TypeExpr) (demand : Demand) :
    ((Sharing.seedAlternative type demand).map PlanTree.size).sum = (type.seeds demand).length := by
  simp only [Sharing.seedAlternative]
  split
  · rename_i hempty
    rw [List.isEmpty_iff.mp hempty]
    rfl
  · rfl

theorem sum_sizes_arrayAlternative (component : TypeExpr) (components : PlanTree) :
    clamp ((Sharing.arrayAlternative component components).map PlanTree.size).sum =
      clamp components.size := by
  have hsize : (PlanTree.product (.array component) [components]).size = clamp components.size := by
    rw [PlanTree.size_product, productOf_eq_clamp_prod]
    simp
  simp only [Sharing.arrayAlternative, hsize]
  split
  · rename_i hzero
    rw [hzero]
    rfl
  · simp [hsize]

/-- The **size of a tree** is the exact number of plans, cut off once. -/
theorem size_tree (k : Catalog) (granted : Access) (budget : Nat) (type : TypeExpr)
    (demand : Demand) :
    (tree k granted budget type demand).size = clamp (k.planCount granted budget type demand) := by
  induction budget, type using budget_type_induction generalizing demand with
  | step budget type hbelow hcomponent =>
    -- each kind of alternative adds up to its own part of the exact count
    have harrays : clamp ((arrays k granted budget type).map PlanTree.size).sum =
        clamp (k.arrayCount granted budget type) := by
      cases type with
      | array component =>
        rw [arrays, Catalog.arrayCount]
        split
        · rfl
        · rw [sum_sizes_arrayAlternative, hcomponent component rfl .all, clamp_clamp]
      | void | primitive p | named c => rfl
    have hcalled : clamp ((called k granted budget type).map PlanTree.size).sum =
        clamp (k.calledCount granted budget type) := by
      cases budget with
      | zero => rfl
      | succ below => exact sum_sizes_callAlternatives (hbelow below rfl) type
    rw [tree_eq, PlanTree.size_sum, IndexRanges.size_eq_clamp_sum, PlanTree.indexRanges,
      alternatives, List.map_append, List.map_append, List.sum_append, List.sum_append,
      k.planCount_eq, sum_sizes_seedAlternative]
    exact clamp_add_congr (clamp_add_congr rfl harrays) hcalled

end Fresh

/-! ### Sizes of subjects -/

namespace Subject

/-- The exact number of blocks of a class. -/
def blockCount (k : Catalog) (tested : ClassName) (depth : Nat)
    (grantedTested grantedUsed : Access) : Nat :=
  ((testedOperations k tested grantedTested).map
    (k.callCount (k.planCount grantedUsed depth))).sum

/-- The size of a subject is the exact number of its blocks, cut off once. -/
theorem size_fresh (k : Catalog) (tested : ClassName) (depth : Nat)
    (grantedTested grantedUsed : Access) :
    (fresh k tested depth grantedTested grantedUsed).size =
      clamp (blockCount k tested depth grantedTested grantedUsed) := by
  have hsizes : (testedOperations k tested grantedTested).map
        (fun op => (Fresh.calls k (Fresh.tree k grantedUsed depth) op).size) =
      ((testedOperations k tested grantedTested).map
        (k.callCount (k.planCount grantedUsed depth))).map clamp := by
    rw [List.map_map]
    exact List.map_congr_left fun op _ => Fresh.size_calls (Fresh.size_tree k grantedUsed depth) op
  rw [size, IndexRanges.size_eq_clamp_sum, indexRanges, fresh]
  simp only
  rw [sum_map_filter_ne_zero, List.map_map, Function.comp_def, hsizes, clamp_sum_map_clamp,
    blockCount]

end Subject

/-- **Cutting off once is enough**: whatever was asked before, the size of the tree of a type is the
exact number of plans, cut off at the end, and the size of a subject is the exact number of blocks,
cut off at the end. -/
theorem size_eq_clamp_exact_count (k : Catalog) :
    (∀ (granted : Access) (requests : List Sharing.Request) (budget : Nat) (type : TypeExpr)
      (demand : Demand),
      (Sharing.treeAfter k granted requests budget type demand).size =
        clamp (k.planCount granted budget type demand)) ∧
    ∀ (tested : ClassName) (depth : Nat) (grantedTested grantedUsed : Access),
      ∃ c, Subject.ofCatalog k tested (depth + 1) grantedTested grantedUsed = .ok c ∧
        c.size = clamp (Subject.blockCount k tested depth grantedTested grantedUsed) := by
  constructor
  · intro granted requests budget type demand
    rw [Sharing.treeAfter_eq_tree, Fresh.size_tree]
  · intro tested depth grantedTested grantedUsed
    exact ⟨_, Subject.ofCatalog_succ k tested depth grantedTested grantedUsed,
      Subject.size_fresh k tested depth grantedTested grantedUsed⟩

/-! ### More plans than can be told apart -/

namespace Mixer

/-- A class with static methods on numbers only. -/
def name : ClassName := .topLevel "demo" "Mixer"

/-- A method that makes one number of three. -/
def mix : Operation where
  owner := name
  kind := .method "mix" (.primitive .int) true false
  parameters := [.primitive .int, .primitive .int, .primitive .int]

/-- A method that takes a number and gives nothing. -/
def accept : Operation where
  owner := name
  kind := .method "accept" .void true false
  parameters := [.primitive .int]

/-- The catalogue of the class alone. The plans for a number are cubed with every level of
nesting. -/
def catalog : Catalog where
  entries := [{ name, operations := [mix, accept] }]
  nodup := by simp
  wellFormed := by simp [Entry.WellFormed, mix, accept]

example : catalog.planCount .global 1 (.primitive .int) .all = 3 + 3 ^ 3 := by decide

/-- At the fourth level there are more plans for a number than can be told apart. -/
theorem maxCount_le_planCount : maxCount ≤ catalog.planCount .global 4 (.primitive .int) .all := by
  decide +kernel

/-- With a depth of four, the class has more blocks than can be told apart. -/
theorem maxCount_le_blockCount : maxCount ≤ Subject.blockCount catalog name 3 .global .global := by
  decide +kernel

end Mixer

end CallPlan
