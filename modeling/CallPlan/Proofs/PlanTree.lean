import CallPlan.Proofs.Counting
import CallPlan.Proofs.Steps
import CallPlan.Enumeration.PlanTree

/-!
# What a plan tree offers

A tree **serves** a property if every index below its size holds a plan with the property, and it is
**distinct** if no two of these indices hold the same plan. Both pass from children to sums and from
slots to products, whether sizes are cut off or not: a sum needs children that have no plan in
common, and a product that different plans of the slots are put together differently, which holds
for every assembly (`Assembly.build?_injective`).
-/

namespace CallPlan

/-! ### Assemblies -/

namespace Assembly

/-- Sets the first plan apart if there is an implicit argument. -/
def split : Option Implicit → List Expression → Option Expression × List Expression
  | some _, first :: rest => (some first, rest)
  | _, plans => (none, plans)

/-- The implicit argument and the others give back all plans. -/
theorem split_injective (implicit : Option Implicit) : Function.Injective (split implicit) := by
  intro plans others h
  cases implicit <;> cases plans <;> cases others <;> simp_all [split]

/-- The call of an operation on plans for all its slots. -/
def callOn (op : Operation) (implicit : Option Implicit) (plans : List Expression) : Expression :=
  .call op (split implicit plans).1 (split implicit plans).2

theorem callOn_injective (op : Operation) (implicit : Option Implicit) :
    Function.Injective (callOn op implicit) := by
  intro plans others h
  obtain ⟨-, himplicit, harguments⟩ := Expression.call.inj h
  exact split_injective implicit (Prod.ext himplicit harguments)

/-- To assemble a call, the first plan is set apart if there is an implicit argument. -/
theorem build?_operation (op : Operation) (implicit : Option Implicit) (plans : List Expression) :
    (operation op implicit).build? plans =
      Expression.call? op (split implicit plans).1 (split implicit plans).2 := by
  cases implicit <;> cases plans <;> rfl

theorem eq_of_call?_eq_ok {op : Operation} {implicit : Option Expression}
    {arguments : List Expression} {e : Expression}
    (h : Expression.call? op implicit arguments = .ok e) : e = .call op implicit arguments := by
  unfold Expression.call? at h
  split_ifs at h
  split at h
  · cases h
  · split at h
    · cases h
    · exact (Except.ok.inj h).symm

theorem eq_of_fill?_eq_ok {component : TypeExpr} {components : List Expression} {e : Expression}
    (h : Expression.fill? component components = .ok e) : e = .array component components := by
  unfold Expression.fill? at h
  split at h
  · cases h
  · exact (Except.ok.inj h).symm

/-- What is put together shows the plans that it is made of. -/
theorem build?_injective (a : Assembly) {plans others : List Expression} {e : Expression}
    (hplans : a.build? plans = .ok e) (hothers : a.build? others = .ok e) : plans = others := by
  cases a with
  | operation op implicit =>
    rw [build?_operation] at hplans hothers
    exact callOn_injective op implicit
      ((eq_of_call?_eq_ok hplans).symm.trans (eq_of_call?_eq_ok hothers))
  | array component =>
    have hsame := (eq_of_fill?_eq_ok hplans).symm.trans (eq_of_fill?_eq_ok hothers)
    exact (Expression.array.inj hsame).2

end Assembly

namespace PlanTree

/-! ### Finding plans -/

theorem getFrom_eq {trees : List PlanTree} {number index : Nat} {tree : PlanTree}
    (h : trees[number]? = some tree) : getFrom trees number index = tree.get index := by
  induction trees generalizing number with
  | nil => simp at h
  | cons first rest ih =>
    cases number with
    | zero =>
      obtain rfl : first = tree := by simpa using h
      rw [getFrom]
    | succ number =>
      rw [getFrom]
      exact ih h

/-- A plan of a sum is the plan of a child. -/
theorem get_sum {type : TypeExpr} {budget index child offset : Nat} {children : List PlanTree}
    {tree : PlanTree} (hlocate : (indexRanges children).locate index = .ok (child, offset))
    (htree : children[child]? = some tree) :
    (sum type budget children).get index = tree.get offset := by
  rw [sum, get, hlocate]
  exact getFrom_eq htree

/-- Where an index of a sum leads. -/
theorem exists_child {children : List PlanTree} {index : Nat}
    (h : index < (indexRanges children).size) :
    ∃ child offset tree, (indexRanges children).locate index = .ok (child, offset) ∧
      children[child]? = some tree ∧ offset < tree.size := by
  obtain ⟨child, offset, hlocate⟩ := (indexRanges children).exists_locate h
  obtain ⟨n, hn, hoffset⟩ := (indexRanges children).offset_lt_of_locate hlocate
  rw [indexRanges, List.getElem?_map, Option.map_eq_some_iff] at hn
  obtain ⟨tree, htree, rfl⟩ := hn
  exact ⟨child, offset, tree, hlocate, htree, hoffset⟩

/-- The plans for all slots are one for the first slot and those for the others. -/
theorem getAll_cons_eq_ok_iff {slot : PlanTree} {slots : List PlanTree} {index : Nat}
    {indices : List Nat} {plans : List Expression} :
    getAll (slot :: slots) (index :: indices) = .ok plans ↔
      ∃ plan rest, slot.get index = .ok plan ∧ getAll slots indices = .ok rest ∧
        plans = plan :: rest := by
  rw [getAll]
  constructor
  · intro h
    obtain ⟨plan, hplan, h⟩ := exists_of_bind_eq_ok h
    obtain ⟨rest, hrest, h⟩ := exists_of_bind_eq_ok h
    exact ⟨plan, rest, hplan, hrest, (Except.ok.inj h).symm⟩
  · rintro ⟨plan, rest, hplan, hrest, rfl⟩
    rw [hplan, hrest]
    rfl

/-- A plan of a product is put together from the plans of the slots. -/
theorem get_product {assembly : Assembly} {slots : List PlanTree} {index : Nat}
    (h : index < (product assembly slots).size) :
    (product assembly slots).get index =
      getAll slots (digitsOf index (slots.map size)) >>= assembly.build? := by
  rw [product, get]
  exact if_pos h

/-! ### Properties of all plans -/

/-- Every index below the size holds a plan with the property. -/
def Serves (tree : PlanTree) (P : Expression → Prop) : Prop :=
  ∀ index < tree.size, ∃ e, tree.get index = .ok e ∧ P e

theorem Serves.imp {tree : PlanTree} {P Q : Expression → Prop} (h : tree.Serves P)
    (hPQ : ∀ e, P e → Q e) : tree.Serves Q := by
  intro index hindex
  obtain ⟨e, he, hP⟩ := h index hindex
  exact ⟨e, he, hPQ e hP⟩

theorem Serves.of_get {tree : PlanTree} {P : Expression → Prop} (h : tree.Serves P) {index : Nat}
    {e : Expression} (hindex : index < tree.size) (he : tree.get index = .ok e) : P e := by
  obtain ⟨e', he', hP⟩ := h index hindex
  rw [he] at he'
  exact Except.ok.inj he' ▸ hP

/-- Listed plans serve a property that all of them have. -/
theorem serves_values {type : TypeExpr} {plans : List Expression} {P : Expression → Prop}
    (h : ∀ e ∈ plans, P e) : (values type plans).Serves P := by
  intro index hindex
  have hget : plans[index]? = some plans[index] := List.getElem?_eq_getElem hindex
  exact ⟨plans[index], by rw [get, hget], h _ (List.getElem_mem hindex)⟩

/-- A sum serves a property that all its children serve. -/
theorem serves_sum {type : TypeExpr} {budget : Nat} {children : List PlanTree}
    {P : Expression → Prop} (h : ∀ tree ∈ children, tree.Serves P) :
    (sum type budget children).Serves P := by
  intro index hindex
  obtain ⟨child, offset, tree, hlocate, htree, hoffset⟩ := exists_child hindex
  rw [get_sum hlocate htree]
  exact h tree (List.mem_of_getElem? htree) offset hoffset

/-- Slots that serve properties give a plan each. -/
theorem exists_getAll {ι : Type} (keys : List ι) {f : ι → PlanTree} {P : ι → Expression → Prop}
    {indices : List Nat} (hserves : ∀ key ∈ keys, (f key).Serves (P key))
    (hindices : List.Forall₂ (· < ·) indices ((keys.map f).map size)) :
    ∃ plans, getAll (keys.map f) indices = .ok plans ∧ List.Forall₂ P keys plans := by
  induction keys generalizing indices with
  | nil => exact ⟨[], by simp [getAll], .nil⟩
  | cons key keys ih =>
    obtain ⟨index, rest, hindex, hrest, rfl⟩ := List.forall₂_cons_right_iff.mp hindices
    obtain ⟨plan, hplan, hP⟩ := hserves key List.mem_cons_self index hindex
    obtain ⟨plans, hplans, hPs⟩ := ih (fun k hk => hserves k (List.mem_cons_of_mem _ hk)) hrest
    refine ⟨plan :: plans, ?_, .cons hP hPs⟩
    rw [List.map_cons, getAll_cons_eq_ok_iff]
    exact ⟨plan, plans, hplan, hplans, rfl⟩

/-- A product serves a property that its assembly gives to whatever is made of plans from the
slots. -/
theorem serves_product {ι : Type} {assembly : Assembly} (keys : List ι) {f : ι → PlanTree}
    {P : ι → Expression → Prop} {Q : Expression → Prop}
    (hslots : ∀ key ∈ keys, (f key).Serves (P key))
    (hbuild : ∀ plans, List.Forall₂ P keys plans → ∃ e, assembly.build? plans = .ok e ∧ Q e) :
    (product assembly (keys.map f)).Serves Q := by
  intro index hindex
  have hpos := pos_of_lt_productOf hindex
  obtain ⟨plans, hplans, hP⟩ := exists_getAll keys hslots (digitsOf_lt index hpos)
  obtain ⟨e, he, hQ⟩ := hbuild plans hP
  refine ⟨e, ?_, hQ⟩
  rw [get_product hindex, hplans]
  exact he

/-! ### Plans at different indices -/

/-- No two indices below the size hold the same plan. -/
def Distinct (tree : PlanTree) : Prop :=
  ∀ i j e, i < tree.size → j < tree.size → tree.get i = .ok e → tree.get j = .ok e → i = j

/-- Listed plans are distinct if none is listed twice. -/
theorem distinct_values {type : TypeExpr} {plans : List Expression} (h : plans.Nodup) :
    (values type plans).Distinct := by
  intro i j e hi hj hgeti hgetj
  rw [get, List.getElem?_eq_getElem hi] at hgeti
  rw [get, List.getElem?_eq_getElem hj] at hgetj
  exact (h.getElem_inj_iff).mp ((Except.ok.inj hgeti).trans (Except.ok.inj hgetj).symm)

/-- The trees have no plan in common. -/
def Apart (s t : PlanTree) : Prop :=
  ∀ i < s.size, ∀ j < t.size, ∀ e, s.get i = .ok e → t.get j ≠ .ok e

/-- A sum is distinct if its children are, and have no plans in common. -/
theorem distinct_sum {type : TypeExpr} {budget : Nat} {children : List PlanTree}
    (hchildren : ∀ tree ∈ children, tree.Distinct) (hapart : children.Pairwise Apart) :
    (sum type budget children).Distinct := by
  intro i j e hi hj hgeti hgetj
  obtain ⟨c, oi, s, hlocatei, hs, hoi⟩ := exists_child hi
  obtain ⟨d, oj, t, hlocatej, ht, hoj⟩ := exists_child hj
  rw [get_sum hlocatei hs] at hgeti
  rw [get_sum hlocatej ht] at hgetj
  obtain ⟨hc, rfl⟩ := List.getElem?_eq_some_iff.mp hs
  obtain ⟨hd, rfl⟩ := List.getElem?_eq_some_iff.mp ht
  -- one plan in two children would be a plan in common, so both indices lead to one child
  have happartAt := List.pairwise_iff_getElem.mp hapart
  rcases Nat.lt_trichotomy c d with hlt | rfl | hlt
  · exact absurd hgetj (happartAt c d hc hd hlt oi hoi oj hoj e hgeti)
  · obtain rfl := hchildren _ (List.getElem_mem hc) oi oj e hoi hoj hgeti hgetj
    exact (indexRanges children).locate_injective hlocatei hlocatej
  · exact absurd hgeti (happartAt d c hd hc hlt oj hoj oi hoi e hgetj)

/-- If every slot is distinct, plans for all of them come from one list of indices only. -/
theorem getAll_injective {slots : List PlanTree} (hslots : ∀ slot ∈ slots, slot.Distinct)
    {is js : List Nat} {plans : List Expression}
    (his : List.Forall₂ (· < ·) is (slots.map size))
    (hjs : List.Forall₂ (· < ·) js (slots.map size))
    (hgeti : getAll slots is = .ok plans) (hgetj : getAll slots js = .ok plans) : is = js := by
  induction slots generalizing is js plans with
  | nil =>
    rw [List.map_nil, List.forall₂_nil_right_iff] at his hjs
    rw [his, hjs]
  | cons slot slots ih =>
    obtain ⟨i, is, hi, hisRest, rfl⟩ := List.forall₂_cons_right_iff.mp his
    obtain ⟨j, js, hj, hjsRest, rfl⟩ := List.forall₂_cons_right_iff.mp hjs
    obtain ⟨plan, rest, hplani, hresti, rfl⟩ := getAll_cons_eq_ok_iff.mp hgeti
    obtain ⟨other, others, hplanj, hrestj, hsame⟩ := getAll_cons_eq_ok_iff.mp hgetj
    obtain ⟨rfl, rfl⟩ := List.cons.inj hsame
    have hfirst := hslots slot List.mem_cons_self i j plan hi hj hplani hplanj
    have hrest := ih (fun s hs => hslots s (List.mem_cons_of_mem _ hs)) hisRest hjsRest hresti
      hrestj
    rw [hfirst, hrest]

/-- A product is distinct if its slots are. -/
theorem distinct_product {assembly : Assembly} {slots : List PlanTree}
    (hslots : ∀ slot ∈ slots, slot.Distinct) : (product assembly slots).Distinct := by
  intro i j e hi hj hgeti hgetj
  rw [get_product hi] at hgeti
  rw [get_product hj] at hgetj
  obtain ⟨plans, hplans, hbuildi⟩ := exists_of_bind_eq_ok hgeti
  obtain ⟨others, hothers, hbuildj⟩ := exists_of_bind_eq_ok hgetj
  obtain rfl := assembly.build?_injective hbuildi hbuildj
  have hpos := pos_of_lt_productOf hi
  exact digitsOf_injective hi hj
    (getAll_injective hslots (digitsOf_lt i hpos) (digitsOf_lt j hpos) hplans hothers)

end PlanTree

end CallPlan
