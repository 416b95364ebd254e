import CallPlan.Proofs.Parts

/-!
# The statements of a block

A block of a subject has one statement for each slot of the tested operation, which binds the plan
for the slot, and one more, which calls the operation on the bound variables (`Block.body`). The
plans are those of one index of the operation's calls, so all that is known of plans is known of
what a block binds (`Subject.exists_block_body`). Where the names and numbers of the variables do
not matter, `Block.CallsOn` says what does.
-/

namespace CallPlan

/-- The expression that a statement evaluates. -/
def Statement.value : Statement → Expression
  | .bind _ value => value
  | .run value => value

namespace Block

/-! ### What a block is made of -/

/-- Every variable takes a name. -/
theorem length_initials_bindPlans (b : Block) (entries : List (TypeExpr × Expression)) :
    (b.bindPlans entries).2.names.initials.length = b.names.initials.length + entries.length := by
  induction entries generalizing b with
  | nil => rfl
  | cons entry entries ih =>
    obtain ⟨t, plan⟩ := entry
    have hfirst : (b.bindPlan t plan).2.names.initials.length = b.names.initials.length + 1 := rfl
    simp only [bindPlans, ih, hfirst, List.length_cons]
    omega

/-- The variables for the slots of an operation. -/
def locals (op : Operation) (implicit : Option Implicit) : List Variable :=
  variablesFrom 1 (slotTypes op implicit)

@[simp]
theorem length_locals (op : Operation) (implicit : Option Implicit) :
    (locals op implicit).length = (slotTypes op implicit).length := by
  rw [locals, variablesFrom, List.length_map, List.length_zipIdx]

/-- The variable for the instance that a constructor makes. -/
def resultVariable (op : Operation) (implicit : Option Implicit) : Variable :=
  ⟨NameSupply.nameOf op.result.initial ((slotTypes op implicit).length + 1), op.result⟩

/-- The statement that calls the operation on the variables. -/
def lastStatement (op : Operation) (implicit : Option Implicit) : Statement :=
  let call := Assembly.callOn op implicit ((locals op implicit).map .var)
  if op.isConstructor then .bind (resultVariable op implicit) call else .run call

/-- The statements for an operation and plans for its slots. -/
def body (op : Operation) (implicit : Option Implicit) (plans : List Expression) : List Statement :=
  List.zipWith .bind (locals op implicit) plans ++ [lastStatement op implicit]

/-- The variables that plans are bound to are those for the slots. -/
theorem fst_boundPlans {op : Operation} {implicit : Option Implicit} {plans : List Expression}
    (hlength : plans.length = (slotTypes op implicit).length) :
    (boundPlans op implicit plans).1 = locals op implicit := by
  rw [boundPlans, fst_bindPlans, List.map_fst_zip hlength.ge]
  rfl

/-- The statement behind these bindings calls the operation on the variables. -/
theorem callStatement_boundPlans {op : Operation} {implicit : Option Implicit}
    {plans : List Expression} (hlength : plans.length = (slotTypes op implicit).length) :
    (boundPlans op implicit plans).2.callStatement
        (Assembly.callOn op implicit ((boundPlans op implicit plans).1.map .var)) =
      lastStatement op implicit := by
  have hnumber : (boundPlans op implicit plans).2.names.initials.length =
      (slotTypes op implicit).length := by
    rw [boundPlans, length_initials_bindPlans, List.length_zip, hlength, min_self]
    exact Nat.zero_add _
  rw [callStatement, lastStatement, fst_boundPlans hlength, operation_boundPlans]
  unfold freshVariable NameSupply.fresh
  rw [hnumber]
  rfl

/-- A block that is built from plans for all slots has these statements. -/
theorem exists_build_body {op : Operation} {implicit : Option Implicit} {plans : List Expression}
    (hlength : plans.length = (slotTypes op implicit).length)
    (hreceiver : op.isConstructor = false → implicit.isSome = !op.isStatic) :
    ∃ b, build op implicit plans = .ok b ∧ b.operation = op ∧
      b.statements = body op implicit plans := by
  refine ⟨_, build_eq_ok hlength hreceiver, by simp, ?_⟩
  rw [statements_addCall, statements_boundPlans hlength, callStatement_boundPlans hlength,
    fst_boundPlans hlength, body]

/-! ### Calls on bound plans -/

/-- The block **calls its operation on plans**: it binds each of them to a variable with a name and
the type of its slot, and its last statement calls the operation on the variables. -/
structure CallsOn (b : Block) (implicit : Option Implicit) (plans : List Expression)
    (locals : List Variable) (last : Statement) : Prop where
  length : locals.length = plans.length
  types : locals.map Variable.type = slotTypes b.operation implicit
  names : (locals.map Variable.name).Nodup
  statements : b.statements = List.zipWith .bind locals plans ++ [last]
  call : last.value = Assembly.callOn b.operation implicit (locals.map .var)

/-- A block of an operation and plans for all its slots calls the operation on the plans. -/
theorem callsOn_of_statements_eq {b : Block} {implicit : Option Implicit} {plans : List Expression}
    (hlength : plans.length = (slotTypes b.operation implicit).length)
    (h : b.statements = body b.operation implicit plans) :
    b.CallsOn implicit plans (locals b.operation implicit)
      (lastStatement b.operation implicit) where
  length := (length_locals _ _).trans hlength.symm
  types := types_variablesFrom _ _
  names := nodup_names_variablesFrom _ _
  statements := h
  call := by
    rw [lastStatement]
    split_ifs <;> rfl

theorem exists_of_mem_bindings {s : Statement} {locals : List Variable} {plans : List Expression}
    (h : s ∈ List.zipWith .bind locals plans) : ∃ v ∈ locals, ∃ e ∈ plans, s = .bind v e := by
  rw [← List.map_uncurry_zip_eq_zipWith] at h
  obtain ⟨⟨v, e⟩, hmem, rfl⟩ := List.mem_map.mp h
  obtain ⟨hv, he⟩ := List.of_mem_zip hmem
  exact ⟨v, hv, e, he, rfl⟩

/-- Calls in the last statement of a block are calls of its operation. -/
theorem CallsOn.eq_of_isPartOf {b : Block} {i : Option Implicit} {plans : List Expression}
    {locals : List Variable} {last : Statement} (h : b.CallsOn i plans locals last) {op : Operation}
    {implicit : Option Expression} {arguments : List Expression}
    (hpart : (Expression.call op implicit arguments).IsPartOf last.value) :
    Expression.call op implicit arguments = last.value := by
  rw [h.call] at hpart ⊢
  obtain hsame | ⟨e, he, hinside⟩ := Expression.isPartOf_callOn_iff.mp hpart
  · exact hsame
  · obtain ⟨v, -, rfl⟩ := List.mem_map.mp he
    simp at hinside

end Block

/-! ### Blocks of a subject -/

namespace Subject

/-- The plans for the slots of the calls are those of an index of the subject. -/
def HoldsAt (c : Subject) (calls : Calls) (plans : List Expression) (index : Nat) : Prop :=
  ∃ child offset, c.indexRanges.locate index = .ok (child, offset) ∧
    c.calls[child]? = some calls ∧ offset < calls.size ∧ calls.parts offset = .ok plans

/-- At every index of a fresh subject there is a **block of a tested operation and plans** for its
slots, with what the trees below serve. -/
theorem exists_block_body {k : Catalog} {tested : ClassName} {depth : Nat}
    {grantedTested grantedUsed : Access} {P : TypeExpr → Demand → Expression → Prop}
    (hserves : ∀ type demand, (Fresh.tree k grantedUsed depth type demand).Serves (P type demand))
    (hplan : ∀ type demand e, P type demand e → IsPlan k grantedUsed depth type demand e)
    {index : Nat} (h : index < (fresh k tested depth grantedTested grantedUsed).size) :
    ∃ op ∈ testedOperations k tested grantedTested, ∃ plans b,
      (fresh k tested depth grantedTested grantedUsed).HoldsAt
        (Fresh.calls k (Fresh.tree k grantedUsed depth) op) plans index ∧
      List.Forall₂ (fun slot e => P slot.1 slot.2 e) (Sharing.slotsOf op (k.implicit? op)) plans ∧
      (fresh k tested depth grantedTested grantedUsed).get index = .ok b ∧ b.operation = op ∧
      b.statements = Block.body op (k.implicit? op) plans := by
  obtain ⟨child, offset, op, hop, hlocate, hcalls, hoffset⟩ :=
    exists_calls_fresh k tested depth grantedTested grantedUsed h
  obtain ⟨plans, hparts, hplans⟩ := Fresh.exists_parts hserves hoffset
  obtain ⟨b, hbuild, hoperation, hstatements⟩ := Block.exists_build_body
    (length_eq_of_plans (hplans.imp fun _ _ => hplan _ _ _)) k.isSome_implicit?
  have hblock : blockOf (Fresh.calls k (Fresh.tree k grantedUsed depth) op) offset = .ok b := by
    rw [blockOf, hparts]
    exact hbuild
  exact ⟨op, hop, plans, b, ⟨child, offset, hlocate, hcalls, hoffset, hparts⟩, hplans,
    (get_eq_blockOf hlocate hcalls).trans hblock, hoperation, hstatements⟩

/-- At every index of a subject there is a block that calls a tested operation on the **plans of one
index** of the operation's calls. -/
theorem exists_callsOn {k : Catalog} {tested : ClassName} {depth : Nat}
    {grantedTested grantedUsed : Access} {c : Subject}
    (hsubject : ofCatalog k tested depth grantedTested grantedUsed = .ok c) {index : Nat}
    (hindex : index < c.size) :
    ∃ below child offset calls b plans locals last, depth = below + 1 ∧
      c.indexRanges.locate index = .ok (child, offset) ∧ c.calls[child]? = some calls ∧
      calls.parts offset = .ok plans ∧ c.get index = .ok b ∧
      b.operation ∈ testedOperations k tested grantedTested ∧
      List.Forall₂
        (fun slot e => IsPlan k grantedUsed below slot.1 slot.2 e ∧
          e.HasInnerCalls k grantedUsed below)
        (Sharing.slotsOf b.operation (k.implicit? b.operation)) plans ∧
      b.CallsOn (k.implicit? b.operation) plans locals last := by
  obtain ⟨below, rfl, rfl⟩ := eq_fresh_of_ofCatalog_eq_ok hsubject
  obtain ⟨op, hop, plans, b, ⟨child, offset, hlocate, hcalls, -, hparts⟩, hplans, hget, rfl,
      hstatements⟩ :=
    exists_block_body (Fresh.serves_parts k grantedUsed below) (fun _ _ _ h => h.1) hindex
  have hlength := length_eq_of_plans (hplans.imp fun _ _ hplan => hplan.1)
  exact ⟨below, child, offset, _, b, plans, _, _, rfl, hlocate, hcalls, hparts, hget, hop, hplans,
    Block.callsOn_of_statements_eq hlength hstatements⟩

end Subject

end CallPlan
