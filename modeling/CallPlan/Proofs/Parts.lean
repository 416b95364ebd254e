import CallPlan.Proofs.Execution

/-!
# Parts of plans

What is said of all calls inside a plan is said of its parts (`Expression.IsPartOf`). A call inside
a plan is no stranger: it is the call at some index of the calls of a producer, within a smaller
budget, and its implicit argument and its arguments are the plans for the slots at that index
(`Fresh.serves_parts`).
-/

namespace CallPlan

namespace Expression

/-! ### Parts -/

/-- An expression is a **part** of another one if it is that expression, or a part of its implicit
argument, of one of its arguments or of one of its components. -/
inductive IsPartOf (e : Expression) : Expression → Prop
  | whole : IsPartOf e e
  | implicit {op : Operation} {f : Expression} {arguments : List Expression}
      (part : IsPartOf e f) : IsPartOf e (.call op (some f) arguments)
  | argument {op : Operation} {implicit : Option Expression} {f : Expression}
      {arguments : List Expression} (mem : f ∈ arguments) (part : IsPartOf e f) :
      IsPartOf e (.call op implicit arguments)
  | component {component : TypeExpr} {f : Expression} {components : List Expression}
      (mem : f ∈ components) (part : IsPartOf e f) : IsPartOf e (.array component components)

@[simp]
theorem isPartOf_literal_iff {e : Expression} {l : Literal} :
    e.IsPartOf (.literal l) ↔ e = .literal l := by
  constructor
  · rintro ⟨⟩
    rfl
  · rintro rfl
    exact .whole

@[simp]
theorem isPartOf_var_iff {e : Expression} {v : Variable} : e.IsPartOf (.var v) ↔ e = .var v := by
  constructor
  · rintro ⟨⟩
    rfl
  · rintro rfl
    exact .whole

theorem isPartOf_array_iff {e : Expression} {component : TypeExpr} {components : List Expression} :
    e.IsPartOf (.array component components) ↔
      e = .array component components ∨ ∃ f ∈ components, e.IsPartOf f := by
  constructor
  · intro h
    cases h with
    | whole => exact .inl rfl
    | component mem part => exact .inr ⟨_, mem, part⟩
  · rintro (rfl | ⟨f, mem, part⟩)
    · exact .whole
    · exact .component mem part

/-- The parts of a call are the call and those of its implicit argument and its arguments. -/
theorem isPartOf_call_iff {e : Expression} {op : Operation} {implicit : Option Expression}
    {arguments : List Expression} :
    e.IsPartOf (.call op implicit arguments) ↔
      e = .call op implicit arguments ∨ ∃ f ∈ implicit.toList ++ arguments, e.IsPartOf f := by
  constructor
  · intro h
    cases h with
    | whole => exact .inl rfl
    | implicit part => exact .inr ⟨_, List.mem_cons_self, part⟩
    | argument mem part => exact .inr ⟨_, List.mem_append_right _ mem, part⟩
  · rintro (rfl | ⟨f, mem, part⟩)
    · exact .whole
    · rcases List.mem_append.mp mem with mem | mem
      · obtain rfl := Option.mem_toList.mp mem
        exact .implicit part
      · exact .argument mem part

end Expression

/-- Set apart and put in front again, the first plan is where it was. -/
theorem Assembly.toList_split_append (implicit : Option Implicit) (plans : List Expression) :
    (split implicit plans).1.toList ++ (split implicit plans).2 = plans := by
  cases implicit <;> cases plans <;> rfl

/-- The parts of a call are the call and the parts of the plans for its slots. -/
theorem Expression.isPartOf_callOn_iff {e : Expression} {op : Operation}
    {implicit : Option Implicit} {plans : List Expression} :
    e.IsPartOf (Assembly.callOn op implicit plans) ↔
      e = Assembly.callOn op implicit plans ∨ ∃ f ∈ plans, e.IsPartOf f := by
  rw [Assembly.callOn, isPartOf_call_iff, Assembly.toList_split_append]

/-! ### Calls inside plans -/

/-- The call on the implicit argument and the arguments is at an index of the calls, and these are
the plans for the slots at that index, the implicit one first. -/
def Calls.Holds (c : Calls) (implicit : Option Expression) (arguments : List Expression) : Prop :=
  ∃ index < c.size, c.parts index = .ok (implicit.toList ++ arguments) ∧
    c.toTree.get index = .ok (.call c.operation implicit arguments)

section

variable {k : Catalog} {granted : Access} {budget : Nat}

/-- The call is one of the calls of a producer, within a smaller budget. -/
def IsInnerCall (k : Catalog) (granted : Access) (budget : Nat) (op : Operation)
    (implicit : Option Expression) (arguments : List Expression) : Prop :=
  ∃ below < budget, (∃ type, op ∈ k.producers type granted) ∧
    (Fresh.calls k (Fresh.tree k granted below) op).Holds implicit arguments

/-- A larger budget allows for all calls that a smaller one does. -/
theorem IsInnerCall.mono {op : Operation} {implicit : Option Expression}
    {arguments : List Expression} {more : Nat}
    (h : IsInnerCall k granted budget op implicit arguments) (hle : budget ≤ more) :
    IsInnerCall k granted more op implicit arguments := by
  obtain ⟨below, hlt, hcall⟩ := h
  exact ⟨below, hlt.trans_le hle, hcall⟩

/-- All calls inside an expression are calls of producers, within smaller budgets. -/
def Expression.HasInnerCalls (k : Catalog) (granted : Access) (budget : Nat) (e : Expression) :
    Prop :=
  ∀ op implicit arguments, (Expression.call op implicit arguments).IsPartOf e →
    IsInnerCall k granted budget op implicit arguments

/-- There are no calls in seeds. -/
theorem Expression.hasInnerCalls_of_mem_seeds {type : TypeExpr} {demand : Demand} {e : Expression}
    (h : e ∈ type.seeds demand) : e.HasInnerCalls k granted budget := by
  intro op implicit arguments hpart
  obtain ⟨l, rfl, -⟩ | ⟨component, -, rfl⟩ := TypeExpr.mem_seeds h
  · simp at hpart
  · simp [isPartOf_array_iff] at hpart

/-- The call at an index of the calls of an operation is on plans for its slots. -/
theorem Fresh.plans_of_holds {op : Operation} {implicit : Option Expression}
    {arguments : List Expression}
    (h : (Fresh.calls k (Fresh.tree k granted budget) op).Holds implicit arguments) :
    IsImplicitPlan k granted budget (k.implicit? op) implicit ∧
      ArePlans k granted budget op.parameters arguments := by
  obtain ⟨index, hindex, -, hcall⟩ := h
  obtain ⟨plans, -, hget, hplans⟩ :=
    exists_call (fun _ _ _ hplan => hplan) (serves_tree k granted budget) hindex
  rw [hcall] at hget
  obtain ⟨-, rfl, rfl⟩ := Expression.call.inj (Except.ok.inj hget)
  exact forall₂_slotsOf_iff.mp hplans

/-- The call on the plans for the slots at an index is held there. -/
theorem Fresh.holds_of_parts {below : TypeExpr → Demand → PlanTree} {op : Operation} {index : Nat}
    {plans : List Expression} (hindex : index < (Fresh.calls k below op).size)
    (hparts : (Fresh.calls k below op).parts index = .ok plans)
    (hget : (Fresh.calls k below op).toTree.get index =
      .ok (Assembly.callOn op (k.implicit? op) plans)) :
    (Fresh.calls k below op).Holds (Assembly.split (k.implicit? op) plans).1
      (Assembly.split (k.implicit? op) plans).2 := by
  refine ⟨index, hindex, ?_, hget⟩
  rw [Assembly.toList_split_append]
  exact hparts

/-- A fresh tree holds plans, and **every call inside them** is one of the calls of a producer
within a smaller budget. -/
theorem Fresh.serves_parts (k : Catalog) (granted : Access) (budget : Nat) (type : TypeExpr)
    (demand : Demand) :
    (tree k granted budget type demand).Serves fun e =>
      IsPlan k granted budget type demand e ∧ e.HasInnerCalls k granted budget := by
  induction budget, type using budget_type_induction generalizing demand with
  | step budget type hbelow hcomponent =>
    rw [tree_eq]
    refine PlanTree.serves_sum fun child hchild => ?_
    obtain rfl | ⟨component, rfl, hleaf, rfl⟩ | ⟨below, rfl, op, hop, rfl⟩ :=
      mem_alternatives hchild
    · exact PlanTree.serves_values fun e he =>
        ⟨.seed he, Expression.hasInnerCalls_of_mem_seeds he⟩
    · refine (serves_filling (fun e h => h.1.fits) (hcomponent component rfl .all)).imp ?_
      rintro e ⟨plan, rfl, hplan, hcalls⟩
      refine ⟨.array hleaf hplan, fun op implicit arguments hpart => ?_⟩
      -- the array itself is no call
      obtain hsame | ⟨f, hf, hinside⟩ := Expression.isPartOf_array_iff.mp hpart
      · cases hsame
      · rw [List.mem_singleton.mp hf] at hinside
        exact hcalls op implicit arguments hinside
    · intro index hindex
      obtain ⟨plans, hparts, hget, hplans⟩ :=
        exists_call (fun _ _ _ h => h.1) (hbelow below rfl) hindex
      have hcall : IsCallOn k granted below op (Assembly.callOn op (k.implicit? op) plans) :=
        isCallOn_iff.mpr ⟨plans, hplans.imp fun _ _ h => h.1, rfl⟩
      refine ⟨_, hget, isPlan_iff.mpr (.inr (.inr ⟨below, rfl, op, hop, hcall⟩)),
        fun inner implicit arguments hpart => ?_⟩
      obtain hsame | ⟨f, hf, hinside⟩ := Expression.isPartOf_callOn_iff.mp hpart
      · obtain ⟨rfl, rfl, rfl⟩ := Expression.call.inj hsame
        exact ⟨below, Nat.lt_succ_self below, ⟨type, hop⟩, holds_of_parts hindex hparts hget⟩
      · -- calls inside the plans for the slots are deeper still
        have hinner : ∀ e ∈ plans, e.HasInnerCalls k granted below :=
          forall_mem_of_forall₂ (hplans.imp fun _ _ h => h.2)
        exact (hinner f hf inner implicit arguments hinside).mono (Nat.le_succ below)

end

end CallPlan
