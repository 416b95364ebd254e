import CallPlan.Proofs.PlanCount
import Mathlib

/-!
# Every plan once

If no class lists an operation twice, then a fresh tree holds no plan at two indices
(`Fresh.distinct_tree`), and there are exactly as many plans as are counted
(`encard_isPlan`). So as long as the plans can be counted, every one of them has an index, and only
one.
-/

namespace CallPlan

/-! ### Seeds and producers without repetition -/

theorem Primitive.nodup_seeds (p : Primitive) : p.seeds.Nodup := by
  cases p <;> decide

theorem TypeExpr.nodup_seeds (t : TypeExpr) (demand : Demand) : (t.seeds demand).Nodup := by
  have hnull : (if demand = .all then t.nullSeed else []).Nodup := by
    split
    · unfold nullSeed
      split <;> simp
    · exact List.nodup_nil
  have hvalues : t.valueSeeds.Nodup := by
    cases t with
    | void => exact List.nodup_nil
    | primitive p =>
      exact p.nodup_seeds.map fun l m h => Expression.literal.inj h
    | named c =>
      rw [valueSeeds]
      split <;> simp
    | array component =>
      rw [valueSeeds]
      split <;> simp
  refine List.nodup_append.mpr ⟨hvalues, hnull, ?_⟩
  rintro e he f hf rfl
  -- the only `null` is the one that comes last
  split at hf
  · obtain ⟨hreference, rfl⟩ := mem_nullSeed hf
    obtain ⟨l, hl, -, hnotnull⟩ | ⟨component, -, hl⟩ := mem_valueSeeds he
    · obtain rfl := Expression.literal.inj hl
      simp [Literal.isNull] at hnotnull
    · cases hl
  · simp at hf

/-- Producers are listed once if every class lists its operations once. -/
theorem Catalog.nodup_producers {k : Catalog} (h : ∀ e ∈ k.entries, e.operations.Nodup)
    (t : TypeExpr) (granted : Access) : (k.producers t granted).Nodup := by
  refine List.nodup_flatMap.mpr ⟨fun e he => (h e he).filter _, ?_⟩
  refine (List.pairwise_map.mp k.nodup).imp_of_mem fun {d e} hd he hname => ?_
  rintro op hopd hope
  have howner := (k.wellFormed d hd).2 op (List.mem_of_mem_filter hopd)
  rw [(k.wellFormed e he).2 op (List.mem_of_mem_filter hope)] at howner
  exact hname howner.symm

/-! ### Different indices, different plans -/

/-- Where a plan comes from. -/
inductive Origin where
  | seed
  | filled
  | called (op : Operation)

/-- Seeds are literals and empty arrays. -/
def Expression.origin : Expression → Origin
  | call op _ _ => .called op
  | array _ (_ :: _) => .filled
  | _ => .seed

/-- No seed is a filled array or a call. -/
theorem TypeExpr.origin_of_mem_seeds {t : TypeExpr} {demand : Demand} {e : Expression}
    (h : e ∈ t.seeds demand) : e.origin = .seed := by
  obtain ⟨l, rfl, -⟩ | ⟨component, -, rfl⟩ := mem_seeds h <;> rfl

theorem IsFilling.origin_eq {k : Catalog} {granted : Access} {budget : Nat} {component : TypeExpr}
    {e : Expression} (h : IsFilling k granted budget component e) : e.origin = .filled := by
  obtain ⟨plan, rfl, -⟩ := h
  rfl

theorem IsCallOn.origin_eq {k : Catalog} {granted : Access} {budget : Nat} {op : Operation}
    {e : Expression} (h : IsCallOn k granted budget op e) : e.origin = .called op := by
  obtain ⟨implicit, arguments, rfl, -, -⟩ := h
  rfl

/-- Trees have no plan in common if their plans have different origins. -/
theorem PlanTree.apart_of_origin {s t : PlanTree} {o p : Origin}
    (hs : s.Serves fun e => e.origin = o) (ht : t.Serves fun e => e.origin = p) (hop : o ≠ p) :
    s.Apart t := by
  intro i hi j hj e hgeti hgetj
  exact hop ((hs.of_get hi hgeti).symm.trans (ht.of_get hj hgetj))

namespace Fresh

variable {k : Catalog} {granted : Access} {budget : Nat}

theorem serves_origin_seedAlternative {type : TypeExpr} {demand : Demand} {tree : PlanTree}
    (h : tree ∈ Sharing.seedAlternative type demand) :
    tree.Serves fun e => e.origin = .seed := by
  rw [mem_seedAlternative h]
  exact PlanTree.serves_values fun e he => TypeExpr.origin_of_mem_seeds he

theorem serves_origin_arrays {type : TypeExpr} {tree : PlanTree}
    (h : tree ∈ arrays k granted budget type) : tree.Serves fun e => e.origin = .filled := by
  obtain ⟨component, rfl, -, rfl⟩ := mem_arrays h
  exact (serves_array (serves_tree k granted budget component .all)).imp fun e h => h.origin_eq

theorem serves_origin_calls (op : Operation) :
    (calls k (tree k granted budget) op).toTree.Serves fun e => e.origin = .called op :=
  (serves_calls (serves_tree k granted budget) op).imp fun _ h => h.origin_eq

/-- Calls of different operations have no plan in common. -/
theorem pairwise_apart_called (h : ∀ e ∈ k.entries, e.operations.Nodup) (type : TypeExpr) :
    (called k granted budget type).Pairwise PlanTree.Apart := by
  cases budget with
  | zero => exact .nil
  | succ below =>
    rw [called, callAlternatives, List.pairwise_map]
    refine List.Pairwise.filter _ (List.pairwise_map.mpr ?_)
    refine (Catalog.nodup_producers h type granted).imp fun {op other} hne => ?_
    exact PlanTree.apart_of_origin (serves_origin_calls op) (serves_origin_calls other)
      fun hsame => hne (Origin.called.inj hsame)

/-- The alternatives of a tree have no plan in common. -/
theorem pairwise_apart_alternatives (h : ∀ e ∈ k.entries, e.operations.Nodup) (type : TypeExpr)
    (demand : Demand) :
    (alternatives k granted budget type demand).Pairwise PlanTree.Apart := by
  have hseeds : (Sharing.seedAlternative type demand).Pairwise PlanTree.Apart := by
    simp only [Sharing.seedAlternative]
    split <;> simp
  have harrays : (arrays k granted budget type).Pairwise PlanTree.Apart := by
    unfold arrays Sharing.arrayAlternative
    split
    · dsimp only
      split_ifs <;> simp
    · exact .nil
  refine List.pairwise_append.mpr ⟨List.pairwise_append.mpr ⟨hseeds, harrays, ?_⟩,
    pairwise_apart_called h type, ?_⟩
  · intro s hs t ht
    exact PlanTree.apart_of_origin (serves_origin_seedAlternative hs) (serves_origin_arrays ht)
      Origin.noConfusion
  · intro s hs t ht
    obtain ⟨below, rfl, op, -, rfl⟩ := mem_called ht
    rcases List.mem_append.mp hs with hs | hs
    · exact PlanTree.apart_of_origin (serves_origin_seedAlternative hs) (serves_origin_calls op)
        Origin.noConfusion
    · exact PlanTree.apart_of_origin (serves_origin_arrays hs) (serves_origin_calls op)
        Origin.noConfusion

/-- A fresh tree holds **no plan twice**, whether its size is cut off or not. -/
theorem distinct_tree (h : ∀ e ∈ k.entries, e.operations.Nodup) (budget : Nat) (type : TypeExpr)
    (demand : Demand) : (tree k granted budget type demand).Distinct := by
  induction budget, type using budget_type_induction generalizing demand with
  | step budget type hbelow hcomponent =>
    rw [tree_eq]
    refine PlanTree.distinct_sum (fun child hchild => ?_)
      (pairwise_apart_alternatives h type demand)
    obtain rfl | ⟨component, rfl, -, rfl⟩ | ⟨below, rfl, op, -, rfl⟩ := mem_alternatives hchild
    · exact PlanTree.distinct_values (type.nodup_seeds demand)
    · refine PlanTree.distinct_product fun slot hslot => ?_
      obtain rfl := List.mem_singleton.mp hslot
      exact hcomponent component rfl .all
    · refine PlanTree.distinct_product fun slot hslot => ?_
      obtain ⟨⟨t, d⟩, -, rfl⟩ := List.mem_map.mp hslot
      exact hbelow below rfl t d

end Fresh

/-! ### How many plans there are -/

/-- Sets without common elements, one for each key. -/
theorem encard_exists_mem {α β : Type} {keys : List α} {s : α → Set β} {n : α → Nat}
    (hnodup : keys.Nodup) (hcard : ∀ key ∈ keys, (s key).encard = n key)
    (hdisjoint : ∀ a b, a ≠ b → Disjoint (s a) (s b)) :
    {e | ∃ key ∈ keys, e ∈ s key}.encard = (keys.map n).sum := by
  induction keys with
  | nil => simp
  | cons key keys ih =>
    -- the set of the first key is apart from all others, since the key is not repeated
    obtain ⟨hkey, hkeys⟩ := List.nodup_cons.mp hnodup
    have hsplit : {e | ∃ a ∈ key :: keys, e ∈ s a} = s key ∪ {e | ∃ a ∈ keys, e ∈ s a} := by
      ext e
      simp
    have hapart : Disjoint (s key) {e | ∃ a ∈ keys, e ∈ s a} := by
      refine Set.disjoint_left.mpr fun e he => ?_
      rintro ⟨a, ha, hea⟩
      have hne : key ≠ a := fun h => hkey (h ▸ ha)
      exact Set.disjoint_left.mp (hdisjoint key a hne) he hea
    have hrest := ih hkeys fun a ha => hcard a (List.mem_cons_of_mem _ ha)
    rw [hsplit, Set.encard_union_eq hapart, hcard key List.mem_cons_self, hrest, List.map_cons,
      List.sum_cons, Nat.cast_add]

/-- Lists with an element of one set for each key. -/
theorem encard_forall₂ {α β : Type} {keys : List α} {P : α → β → Prop} {n : α → Nat}
    (hcard : ∀ key ∈ keys, {e | P key e}.encard = n key) :
    {es | List.Forall₂ P keys es}.encard = (keys.map n).prod := by
  induction keys with
  | nil => simp
  | cons key keys ih =>
    have hsplit : {es | List.Forall₂ P (key :: keys) es} =
        (fun p : β × List β => p.1 :: p.2) '' ({e | P key e} ×ˢ {es | List.Forall₂ P keys es}) := by
      ext es
      rw [Set.mem_ofPred_eq, List.forall₂_cons_left_iff]
      constructor
      · rintro ⟨e, rest, he, hrest, rfl⟩
        exact ⟨(e, rest), ⟨he, hrest⟩, rfl⟩
      · rintro ⟨⟨e, rest⟩, ⟨he, hrest⟩, rfl⟩
        exact ⟨e, rest, he, hrest, rfl⟩
    have hinjective : Function.Injective fun p : β × List β => p.1 :: p.2 := by
      rintro ⟨e, rest⟩ ⟨f, others⟩ h
      obtain ⟨rfl, rfl⟩ := List.cons.inj h
      rfl
    have hrest := ih fun a ha => hcard a (List.mem_cons_of_mem _ ha)
    rw [hsplit, hinjective.encard_image, Set.encard_prod, hcard key List.mem_cons_self, hrest,
      List.map_cons, List.prod_cons, Nat.cast_mul]

section

variable {k : Catalog} {granted : Access} {budget : Nat}

theorem encard_seeds (type : TypeExpr) (demand : Demand) :
    {e | e ∈ type.seeds demand}.encard = (type.seeds demand).length := by
  have hsingletons := encard_exists_mem (s := fun e : Expression => {e}) (n := fun _ => 1)
    (type.nodup_seeds demand) (fun e _ => Set.encard_singleton e)
    fun a b hne => Set.disjoint_singleton.mpr hne
  simpa using hsingletons

/-- There are as many filled arrays as plans for their component. -/
theorem encard_isFilling {component : TypeExpr} {n : Nat}
    (h : {e | IsPlan k granted budget component .all e}.encard = n) :
    {e | IsFilling k granted budget component e}.encard = n := by
  have himage : {e | IsFilling k granted budget component e} =
      (fun e => .array component [e]) '' {e | IsPlan k granted budget component .all e} := by
    ext e
    constructor
    · rintro ⟨plan, rfl, hplan⟩
      exact ⟨plan, hplan, rfl⟩
    · rintro ⟨plan, hplan, rfl⟩
      exact ⟨plan, rfl, hplan⟩
  have hinjective : Function.Injective fun e : Expression => Expression.array component [e] := by
    intro e f h
    exact (List.cons.inj (Expression.array.inj h).2).1
  rw [himage, hinjective.encard_image, h]

/-- The calls of an operation are as many as the plans for its slots, multiplied out. -/
theorem encard_isCallOn {count : TypeExpr → Demand → Nat}
    (h : ∀ type demand, {e | IsPlan k granted budget type demand e}.encard = count type demand)
    (op : Operation) :
    {e | IsCallOn k granted budget op e}.encard = k.callCount count op := by
  have himage : {e | IsCallOn k granted budget op e} =
      Assembly.callOn op (k.implicit? op) ''
        {plans | List.Forall₂ (fun slot e => IsPlan k granted budget slot.1 slot.2 e)
          (Sharing.slotsOf op (k.implicit? op)) plans} := by
    ext e
    rw [Set.mem_ofPred_eq, isCallOn_iff]
    constructor
    · rintro ⟨plans, hplans, rfl⟩
      exact ⟨plans, hplans, rfl⟩
    · rintro ⟨plans, hplans, rfl⟩
      exact ⟨plans, hplans, rfl⟩
  have hinjective := Assembly.callOn_injective op (k.implicit? op)
  rw [himage, hinjective.encard_image, ← k.prod_slotsOf]
  exact encard_forall₂ fun slot _ => h slot.1 slot.2

/-- Sets have no element in common if their elements have different origins. -/
theorem disjoint_of_origin {s t : Set Expression} (h : ∀ e ∈ s, ∀ f ∈ t, e.origin ≠ f.origin) :
    Disjoint s t :=
  Set.disjoint_left.mpr fun e hs ht => h e hs e ht rfl

/-- Filled arrays are counted exactly if the plans for their component are. -/
theorem encard_filled {type : TypeExpr}
    (h : ∀ component, type = .array component →
      {e | IsPlan k granted budget component .all e}.encard =
        k.planCount granted budget component .all) :
    {e | ∃ component, type = .array component ∧ component.leaf.isVoid = false ∧
      IsFilling k granted budget component e}.encard = k.arrayCount granted budget type := by
  cases type with
  | array component =>
    cases hleaf : component.leaf.isVoid with
    | true => simp [Catalog.arrayCount, hleaf]
    | false => simpa [Catalog.arrayCount, hleaf] using encard_isFilling (h component rfl)
  | void | primitive p | named c => simp [Catalog.arrayCount]

/-- Calls of producers are counted exactly if the plans for their slots are. -/
theorem encard_called (hnodup : ∀ e ∈ k.entries, e.operations.Nodup) (type : TypeExpr)
    (h : ∀ below, budget = below + 1 → ∀ t demand,
      {e | IsPlan k granted below t demand e}.encard = k.planCount granted below t demand) :
    {e | ∃ below, budget = below + 1 ∧
      ∃ op ∈ k.producers type granted, IsCallOn k granted below op e}.encard =
      k.calledCount granted budget type := by
  cases budget with
  | zero => simp [Catalog.calledCount]
  | succ below =>
    have hdisjoint (op other : Operation) (hne : op ≠ other) :
        Disjoint {e | IsCallOn k granted below op e} {e | IsCallOn k granted below other e} := by
      refine disjoint_of_origin fun e he f hf => ?_
      rw [IsCallOn.origin_eq he, IsCallOn.origin_eq hf]
      exact fun hsame => hne (Origin.called.inj hsame)
    have hcalls := encard_exists_mem (Catalog.nodup_producers hnodup type granted)
      (fun op _ => encard_isCallOn (h below rfl) op) hdisjoint
    simpa [Catalog.calledCount] using hcalls

/-- **As many plans** for a type as are counted. -/
theorem encard_isPlan (h : ∀ e ∈ k.entries, e.operations.Nodup) (budget : Nat) (type : TypeExpr)
    (demand : Demand) :
    {e | IsPlan k granted budget type demand e}.encard =
      k.planCount granted budget type demand := by
  induction budget, type using Fresh.budget_type_induction generalizing demand with
  | step budget type hbelow hcomponent =>
    have hsplit : {e | IsPlan k granted budget type demand e} =
        {e | e ∈ type.seeds demand} ∪
          ({e | ∃ component, type = .array component ∧ component.leaf.isVoid = false ∧
              IsFilling k granted budget component e} ∪
            {e | ∃ below, budget = below + 1 ∧
              ∃ op ∈ k.producers type granted, IsCallOn k granted below op e}) := by
      ext e
      exact isPlan_iff
    have hfilled := encard_filled fun component htype => hcomponent component htype .all
    have hcalled := encard_called h type hbelow
    rw [hsplit, Set.encard_union_eq, Set.encard_union_eq, encard_seeds, hfilled, hcalled,
      k.planCount_eq, Nat.cast_add, Nat.cast_add, add_assoc]
    -- plans of different sources have different origins
    · refine disjoint_of_origin ?_
      rintro e ⟨component, -, -, hfilling⟩ f ⟨below, -, op, -, hcall⟩
      rw [hfilling.origin_eq, hcall.origin_eq]
      exact Origin.noConfusion
    · refine disjoint_of_origin ?_
      rintro e he f (⟨component, -, -, hfilling⟩ | ⟨below, -, op, -, hcall⟩)
      · rw [TypeExpr.origin_of_mem_seeds he, hfilling.origin_eq]
        exact Origin.noConfusion
      · rw [TypeExpr.origin_of_mem_seeds he, hcall.origin_eq]
        exact Origin.noConfusion

end

/-! ### Every plan once -/

/-- Different things below a size, all in a set that has no more elements than the size. -/
theorem bijOn_Iio_of_encard_le {α : Type} {f : Nat → α} {s : Set α} {n : Nat}
    (hmaps : Set.MapsTo f (Set.Iio n) s) (hinjective : Set.InjOn f (Set.Iio n))
    (hcard : s.encard ≤ n) : Set.BijOn f (Set.Iio n) s := by
  have himage : (f '' Set.Iio n).encard = n := by
    rw [hinjective.encard_image]
    exact Set.Nat.encard_range n
  have hsame : f '' Set.Iio n = s := by
    refine Set.Finite.eq_of_subset_of_encard_le ((Set.finite_Iio n).image f) hmaps.image_subset ?_
    rw [himage]
    exact hcard
  exact ⟨hmaps, hinjective, hsame.ge⟩

/-- If no class lists an operation twice, then the tree of a type holds **every plan once**:
whatever was asked before, different indices below the size hold different plans, and as long as
there are at most `maxCount` plans each of them is at some index. -/
theorem exists_plan_at_bijOn {k : Catalog} (h : ∀ e ∈ k.entries, e.operations.Nodup)
    (granted : Access) (requests : List Sharing.Request) (budget : Nat) (type : TypeExpr)
    (demand : Demand) :
    ∃ planAt : Nat → Expression,
      (∀ index < (Sharing.treeAfter k granted requests budget type demand).size,
        (Sharing.treeAfter k granted requests budget type demand).get index = .ok (planAt index)) ∧
      Set.MapsTo planAt
        (Set.Iio (Sharing.treeAfter k granted requests budget type demand).size)
        {e | IsPlan k granted budget type demand e} ∧
      Set.InjOn planAt (Set.Iio (Sharing.treeAfter k granted requests budget type demand).size) ∧
      ({e | IsPlan k granted budget type demand e}.encard ≤ maxCount →
        Set.BijOn planAt
          (Set.Iio (Sharing.treeAfter k granted requests budget type demand).size)
          {e | IsPlan k granted budget type demand e}) := by
  rw [Sharing.treeAfter_eq_tree]
  have : Nonempty Expression := ⟨.literal (.boolean true)⟩
  choose! planAt hget hplan using Fresh.serves_tree k granted budget type demand
  have hinjective : Set.InjOn planAt (Set.Iio (Fresh.tree k granted budget type demand).size) := by
    intro i hi j hj hsame
    refine Fresh.distinct_tree h budget type demand i j (planAt i) hi hj (hget i hi) ?_
    rw [hsame]
    exact hget j hj
  refine ⟨planAt, hget, hplan, hinjective, fun hcard => ?_⟩
  -- nothing is cut off from a size that counts all plans
  refine bijOn_Iio_of_encard_le hplan hinjective ?_
  rw [encard_isPlan h] at hcard ⊢
  rw [Fresh.size_tree, clamp_eq_self (Nat.cast_le.mp hcard)]

/-- Within a budget of one call the plans for a number stand at thirty indices, each at one. -/
theorem Mixer.exists_plan_at_bijOn_number :
    (∀ e ∈ catalog.entries, e.operations.Nodup) ∧
      ∃ planAt : Nat → Expression,
        (∀ index < 30, (Sharing.treeAfter catalog .global [] 1 (.primitive .int) .all).get index =
          .ok (planAt index)) ∧
        Set.BijOn planAt (Set.Iio 30) {e | IsPlan catalog .global 1 (.primitive .int) .all e} := by
  have hnodup : ∀ e ∈ catalog.entries, e.operations.Nodup := by decide
  have hcount : catalog.planCount .global 1 (.primitive .int) .all = 30 := by decide
  have hsize : (Sharing.treeAfter catalog .global [] 1 (.primitive .int) .all).size = 30 := by
    rw [Sharing.treeAfter_eq_tree, Fresh.size_tree, hcount]
    rfl
  have hcard : {e | IsPlan catalog .global 1 (.primitive .int) .all e}.encard ≤ maxCount := by
    rw [encard_isPlan hnodup, hcount, Nat.cast_le]
    decide
  obtain ⟨planAt, hget, -, -, hbijOn⟩ :=
    exists_plan_at_bijOn hnodup .global [] 1 (.primitive .int) .all
  rw [hsize] at hget hbijOn
  exact ⟨hnodup, planAt, hget, hbijOn hcard⟩

end CallPlan
