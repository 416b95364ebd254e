import CallPlan.Proofs.PlanCount

/-!
# Every plan has an index

A tree **offers** a plan if the plan is at one of its indices. Sums and products offer whatever
their parts do, as long as no size is cut off on the way. A tree of which nothing is cut off has no
such size in it: the plans of a part are at most as many as those of the whole. So it offers every
plan (`Fresh.offers_tree`).
-/

namespace CallPlan

namespace PlanTree

/-- An index below the size holds the plan. -/
def Offers (tree : PlanTree) (e : Expression) : Prop :=
  ∃ index < tree.size, tree.get index = .ok e

theorem offers_values {type : TypeExpr} {plans : List Expression} {e : Expression}
    (h : e ∈ plans) : (values type plans).Offers e := by
  obtain ⟨index, hindex, rfl⟩ := List.getElem_of_mem h
  exact ⟨index, hindex, by rw [get, List.getElem?_eq_getElem hindex]⟩

/-- A sum of which nothing is cut off offers what its children do. -/
theorem offers_sum {type : TypeExpr} {budget : Nat} {children : List PlanTree} {tree : PlanTree}
    {e : Expression} (hsum : (children.map size).sum ≤ maxCount) (htree : tree ∈ children)
    (h : tree.Offers e) : (sum type budget children).Offers e := by
  obtain ⟨offset, hoffset, hget⟩ := h
  obtain ⟨child, hchild⟩ := List.mem_iff_getElem?.mp htree
  have hsize : (indexRanges children).sizes[child]? = some tree.size := by
    rw [indexRanges, List.getElem?_map, hchild]
    rfl
  have hroom : ((indexRanges children).sizes.take child).sum + tree.size ≤
      (children.map size).sum := sum_take_add_le hsize
  have hstart : (indexRanges children).start child =
      ((indexRanges children).sizes.take child).sum :=
    clamp_eq_self ((Nat.le_of_add_right_le hroom).trans hsum)
  have hlocate : (indexRanges children).locate ((indexRanges children).start child + offset) =
      .ok (child, offset) := by
    refine (IndexRanges.locate_eq_ok_iff _).mpr
      ⟨(List.getElem?_eq_some_iff.mp hsize).1, rfl, ?_⟩
    rw [IndexRanges.start_succ _ hsize, clamp_eq_self (hroom.trans hsum), hstart]
    exact Nat.add_lt_add_left hoffset _
  refine ⟨_, ?_, (get_sum hlocate hchild).trans hget⟩
  rw [size_sum, IndexRanges.size_eq_clamp_sum, indexRanges, clamp_eq_self hsum, ← indexRanges,
    hstart]
  omega

/-- Where each slot offers its plan, the plans are found at indices of all slots together. -/
theorem exists_getAll_eq_ok {slots : List PlanTree} {plans : List Expression}
    (h : List.Forall₂ Offers slots plans) :
    ∃ indices, List.Forall₂ (· < ·) indices (slots.map size) ∧
      getAll slots indices = .ok plans := by
  induction h with
  | nil => exact ⟨[], .nil, by simp [getAll]⟩
  | cons hplan _ ih =>
    obtain ⟨index, hindex, hget⟩ := hplan
    obtain ⟨indices, hindices, hrest⟩ := ih
    exact ⟨index :: indices, .cons hindex hindices,
      getAll_cons_eq_ok_iff.mpr ⟨_, _, hget, hrest, rfl⟩⟩

/-- A product of which nothing is cut off offers what is made of plans that its slots do. -/
theorem offers_product {assembly : Assembly} {slots : List PlanTree} {plans : List Expression}
    {e : Expression} (hprod : (slots.map size).prod ≤ maxCount)
    (hslots : List.Forall₂ Offers slots plans) (hbuild : assembly.build? plans = .ok e) :
    (product assembly slots).Offers e := by
  obtain ⟨indices, hindices, hplans⟩ := exists_getAll_eq_ok hslots
  obtain ⟨index, hindex, rfl⟩ := exists_digitsOf_eq hindices
  have hlt : index < (product assembly slots).size := by
    rwa [size_product, productOf_eq_clamp_prod, clamp_eq_self hprod]
  refine ⟨index, hlt, ?_⟩
  rw [get_product hlt, hplans]
  exact hbuild

theorem Offers.size_ne_zero {tree : PlanTree} {e : Expression} (h : tree.Offers e) :
    tree.size ≠ 0 := by
  obtain ⟨index, hindex, -⟩ := h
  omega

end PlanTree

/-! ### Parts of the exact count -/

section

variable {k : Catalog} {granted : Access} {budget : Nat}

/-- The calls of a producer are among those that are counted for the type. -/
theorem Catalog.callCount_le_calledCount {type : TypeExpr} {op : Operation}
    (h : op ∈ k.producers type granted) :
    k.callCount (k.planCount granted budget) op ≤ k.calledCount granted (budget + 1) type :=
  List.single_le_sum (fun _ _ => Nat.zero_le _) _ (List.mem_map_of_mem h)

/-- An operation can be called if there are plans for each of its slots. -/
theorem Catalog.callCount_pos {count : TypeExpr → Demand → Nat} {op : Operation}
    (h : ∀ slot ∈ Sharing.slotsOf op (k.implicit? op), 0 < count slot.1 slot.2) :
    0 < k.callCount count op := by
  rw [← k.prod_slotsOf]
  exact List.prod_pos (List.forall_mem_map.mpr h)

/-- Where there is a plan, plans are counted. -/
theorem IsPlan.planCount_pos {type : TypeExpr} {demand : Demand} {e : Expression}
    (h : IsPlan k granted budget type demand e) :
    0 < k.planCount granted budget type demand := by
  induction budget, type using Fresh.budget_type_induction generalizing demand e with
  | step budget type hbelow hcomponent =>
    rw [k.planCount_eq]
    rcases isPlan_iff.mp h with
      hseed | ⟨component, rfl, hleaf, plan, rfl, hplan⟩ | ⟨below, rfl, op, hop, hcall⟩
    · have hseeds := List.length_pos_of_mem hseed
      omega
    · have hcomponents := hcomponent component rfl hplan
      rw [Catalog.arrayCount, hleaf]
      simp only [Bool.false_eq_true, if_false]
      omega
    · obtain ⟨plans, hplans, -⟩ := isCallOn_iff.mp hcall
      have hcalls : 0 < k.callCount (k.planCount granted below) op :=
        Catalog.callCount_pos <| forall_mem_of_forall₂ <|
          hplans.flip.imp fun _ _ hplan => hbelow below rfl _ hplan
      have hcalled := @Catalog.callCount_le_calledCount k granted below _ _ hop
      omega

/-- If an operation has a call, then a slot has at most as many plans as the operation has calls. -/
theorem Catalog.planCount_slot_le {op : Operation} {slot : TypeExpr × Demand}
    (hpos : 0 < k.callCount (k.planCount granted budget) op)
    (hslot : slot ∈ Sharing.slotsOf op (k.implicit? op)) :
    k.planCount granted budget slot.1 slot.2 ≤ k.callCount (k.planCount granted budget) op := by
  refine Nat.le_of_dvd hpos ?_
  rw [← k.prod_slotsOf]
  exact List.dvd_prod (List.mem_map.mpr ⟨slot, hslot, rfl⟩)

namespace Fresh

/-- No tree is larger than the exact number of plans. -/
theorem size_le_planCount (type : TypeExpr) (demand : Demand) :
    (tree k granted budget type demand).size ≤ k.planCount granted budget type demand :=
  (size_tree k granted budget type demand).trans_le (clamp_le _)

theorem sum_sizes_arrays_le (type : TypeExpr) :
    ((arrays k granted budget type).map PlanTree.size).sum ≤ k.arrayCount granted budget type := by
  cases type with
  | array component =>
    rw [arrays, Catalog.arrayCount]
    split
    · exact Nat.le_refl _
    · have hsize : (PlanTree.product (.array component)
          [tree k granted budget component .all]).size ≤
            k.planCount granted budget component .all := by
        rw [PlanTree.size_product, productOf_eq_clamp_prod, List.map_singleton,
          List.prod_singleton]
        exact (clamp_le _).trans (size_le_planCount _ _)
      simp only [Sharing.arrayAlternative]
      split
      · exact Nat.zero_le _
      · simpa using hsize
  | void | primitive p | named c => exact Nat.le_refl _

/-- Trees of calls have no more plans together than there are calls. -/
theorem sum_sizes_called_le (type : TypeExpr) :
    ((called k granted budget type).map PlanTree.size).sum ≤
      k.calledCount granted budget type := by
  cases budget with
  | zero => exact Nat.le_refl _
  | succ below =>
    rw [called, callAlternatives, List.map_map]
    change ((((k.producers type granted).map (calls k (tree k granted below))).filter
      fun c => c.size ≠ 0).map Calls.size).sum ≤ _
    rw [sum_map_filter_ne_zero, List.map_map]
    refine List.sum_le_sum fun op _ => ?_
    exact (size_calls (size_tree k granted below) op).trans_le (clamp_le _)

/-- The alternatives of a type have no more plans than are counted. -/
theorem sum_sizes_alternatives_le (type : TypeExpr) (demand : Demand) :
    ((alternatives k granted budget type demand).map PlanTree.size).sum ≤
      k.planCount granted budget type demand := by
  rw [alternatives, List.map_append, List.map_append, List.sum_append, List.sum_append,
    sum_sizes_seedAlternative, k.planCount_eq]
  exact Nat.add_le_add (Nat.add_le_add_left (sum_sizes_arrays_le type) _)
    (sum_sizes_called_le type)

/-! ### Plans and their indices -/

theorem seedAlternative_eq {type : TypeExpr} {demand : Demand} {e : Expression}
    (h : e ∈ type.seeds demand) :
    Sharing.seedAlternative type demand = [.values type (type.seeds demand)] := by
  rw [Sharing.seedAlternative, if_neg (by simpa using List.ne_nil_of_mem h)]

/-- The tree of filled arrays is not left out if it offers something. -/
theorem mem_arrayAlternative {component : TypeExpr} {components : PlanTree} {e : Expression}
    (h : (PlanTree.product (.array component) [components]).Offers e) :
    .product (.array component) [components] ∈
      Sharing.arrayAlternative component components := by
  rw [Sharing.arrayAlternative, if_neg h.size_ne_zero]
  exact List.mem_singleton_self _

/-- The tree of a producer's calls is not left out if it offers something. -/
theorem toTree_mem_callAlternatives {below : TypeExpr → Demand → PlanTree} {type : TypeExpr}
    {op : Operation} {e : Expression} (hop : op ∈ k.producers type granted)
    (h : (calls k below op).toTree.Offers e) :
    (calls k below op).toTree ∈ callAlternatives k granted below type := by
  refine List.mem_map_of_mem (List.mem_filter.mpr ⟨List.mem_map_of_mem hop, ?_⟩)
  exact decide_eq_true h.size_ne_zero

/-- The calls of an operation are offered if the plans for its slots are and nothing is cut off. -/
theorem offers_calls {op : Operation} {plans : List Expression}
    (hplans : List.Forall₂ (fun slot e => IsPlan k granted budget slot.1 slot.2 e)
      (Sharing.slotsOf op (k.implicit? op)) plans)
    (hoffers : List.Forall₂ (fun slot e => (tree k granted budget slot.1 slot.2).Offers e)
      (Sharing.slotsOf op (k.implicit? op)) plans)
    (hcount : k.callCount (k.planCount granted budget) op ≤ maxCount) :
    (calls k (tree k granted budget) op).toTree.Offers
      (Assembly.callOn op (k.implicit? op) plans) := by
  have hprod : ((calls k (tree k granted budget) op).slots.map PlanTree.size).prod ≤
      k.callCount (k.planCount granted budget) op := by
    rw [← k.prod_slotsOf, calls, List.map_map]
    exact List.prod_map_le_prod_map₀ _ _ (fun _ _ => Nat.zero_le _)
      fun slot _ => size_le_planCount slot.1 slot.2
  obtain ⟨receiver, arguments⟩ := forall₂_slotsOf_iff.mp hplans
  refine @PlanTree.offers_product _ _ plans _ (hprod.trans hcount) ?_ ?_
  · rw [calls, List.forall₂_map_left_iff]
    exact hoffers
  · rw [Assembly.build?_operation]
    exact call?_eq_ok_of_plans receiver arguments

/-- A tree of which nothing is cut off **offers every plan**. -/
theorem offers_tree {type : TypeExpr} {demand : Demand} {e : Expression}
    (h : IsPlan k granted budget type demand e)
    (hcount : k.planCount granted budget type demand ≤ maxCount) :
    (tree k granted budget type demand).Offers e := by
  induction budget, type using budget_type_induction generalizing demand e with
  | step budget type hbelow hcomponent =>
    have hsum := (sum_sizes_alternatives_le type demand).trans hcount
    rw [k.planCount_eq] at hcount
    rw [tree_eq]
    -- the plan is offered by the alternative of its source
    rcases isPlan_iff.mp h with
      hseed | ⟨component, rfl, hleaf, plan, rfl, hplan⟩ | ⟨below, rfl, op, hop, hcall⟩
    · have hvalues : (PlanTree.values type (type.seeds demand)).Offers e :=
        PlanTree.offers_values hseed
      refine PlanTree.offers_sum hsum ?_ hvalues
      simp [alternatives, seedAlternative_eq hseed]
    · have hcomponents : k.planCount granted budget component .all ≤ maxCount := by
        rw [Catalog.arrayCount, hleaf] at hcount
        simp only [Bool.false_eq_true, if_false] at hcount
        omega
      have hoffers : (PlanTree.product (.array component)
          [tree k granted budget component .all]).Offers (.array component [plan]) := by
        refine PlanTree.offers_product ?_
          (.cons (hcomponent component rfl hplan hcomponents) .nil) ?_
        · simpa using (size_le_planCount component .all).trans hcomponents
        · refine Expression.fill?_eq_ok fun e he => ?_
          obtain rfl := List.mem_singleton.mp he
          exact hplan.fits
      refine PlanTree.offers_sum hsum ?_ hoffers
      rw [alternatives, arrays, hleaf]
      simp [mem_arrayAlternative hoffers]
    · obtain ⟨plans, hplans, rfl⟩ := isCallOn_iff.mp hcall
      have hcalls := (@Catalog.callCount_le_calledCount k granted below _ _ hop).trans
        (Nat.le_of_add_left_le hcount)
      have hpos : 0 < k.callCount (k.planCount granted below) op :=
        Catalog.callCount_pos <| forall_mem_of_forall₂ <|
          hplans.flip.imp fun _ _ hplan => hplan.planCount_pos
      have hslots : ∀ slot ∈ Sharing.slotsOf op (k.implicit? op),
          k.planCount granted below slot.1 slot.2 ≤ maxCount :=
        fun slot hslot => (Catalog.planCount_slot_le hpos hslot).trans hcalls
      have hoffers := offers_calls hplans
        (((List.forall₂_and_left _ _).mpr ⟨hslots, hplans⟩).imp fun slot e hslot =>
          hbelow below rfl slot.1 hslot.2 hslot.1) hcalls
      refine PlanTree.offers_sum hsum ?_ hoffers
      simp [alternatives, called, toTree_mem_callAlternatives hop hoffers]

end Fresh

end

end CallPlan
