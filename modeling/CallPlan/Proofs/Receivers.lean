import CallPlan.Proofs.Statements

/-!
# Receivers and enclosing instances

An operation needs an instance if it is an instance method or constructs an inner member type. Calls
have an implicit argument exactly if their operation needs one, and it is the plan for the first
slot. That slot wants plans other than `null` (`IsPlan.isNull_eq_false`), while all other slots take
any, so `null` can be an argument or a component and is never what a method is called on. Blocks
bind the same plans to variables, and call their operation on the first of these
(`exists_calls_with_instances`).
-/

namespace CallPlan

/-- The expression is a literal `null`. -/
def Expression.isNull : Expression → Bool
  | literal l => l.isNull
  | _ => false

/-- The operation is an instance method, or the constructor of an inner member type. -/
def Catalog.NeedsInstance (k : Catalog) (op : Operation) : Prop :=
  (op.isConstructor = false ∧ op.isStatic = false) ∨
    (op.isConstructor = true ∧ k.isInner op.owner = true ∧ op.owner.isMember = true)

theorem Catalog.isSome_implicit?_iff (k : Catalog) {op : Operation} :
    (k.implicit? op).isSome = true ↔ k.NeedsInstance op := by
  rw [implicit?, NeedsInstance]
  cases hconstructor : op.isConstructor with
  | true => cases hinner : k.isInner op.owner <;> simp [ClassName.enclosing?]
  | false => cases hstatic : op.isStatic <;> simp

section

variable {k : Catalog} {granted : Access} {budget : Nat}

/-- Where no `null` is wanted there is none. -/
theorem IsPlan.isNull_eq_false {type : TypeExpr} {e : Expression}
    (h : IsPlan k granted budget type .nonNull e) : e.isNull = false := by
  cases h with
  | seed mem =>
    have hvalue : e ∈ type.valueSeeds := by simpa [TypeExpr.seeds] using mem
    obtain ⟨l, rfl, -, hnull⟩ | ⟨component, -, rfl⟩ := TypeExpr.mem_valueSeeds hvalue
    · exact hnull
    · rfl
  | array | call => rfl

theorem IsImplicitPlan.isNull_eq_false {i : Option Implicit} {implicit : Option Expression}
    (h : IsImplicitPlan k granted budget i implicit) : ∀ e ∈ implicit, e.isNull = false := by
  cases h with
  | none => simp
  | some plan =>
    rintro e ⟨⟩
    exact plan.isNull_eq_false

end

/-! ### Calls inside plans -/

/-- An implicit argument is a plan of the first slot. -/
theorem PlanTree.exists_first_slot {slots : List PlanTree} {indices : List Nat} {e : Expression}
    {plans : List Expression} (h : getAll slots indices = .ok (e :: plans)) :
    ∃ slot index, slots.head? = some slot ∧ slot.get index = .ok e := by
  cases slots with
  | nil => simp [getAll] at h
  | cons slot slots =>
    cases indices with
    | nil => simp [getAll] at h
    | cons index indices =>
      obtain ⟨plan, rest, hplan, -, hsame⟩ := getAll_cons_eq_ok_iff.mp h
      obtain ⟨rfl, -⟩ := List.cons.inj hsame
      exact ⟨slot, index, rfl, hplan⟩

theorem Calls.exists_first_slot {c : Calls} {index : Nat} {e : Expression} {plans : List Expression}
    (h : c.parts index = .ok (e :: plans)) :
    ∃ slot offset, c.slots.head? = some slot ∧ slot.get offset = .ok e := by
  rw [parts] at h
  split_ifs at h
  exact PlanTree.exists_first_slot h

/-- A call with the implicit argument that it should have: there is one exactly if the operation
needs an instance, it is not `null`, and it is the plan for the first slot of the operation's calls
at an index where the arguments are the plans for the other slots. -/
structure IsProperCall (k : Catalog) (granted : Access) (budget : Nat) (op : Operation)
    (implicit : Option Expression) (arguments : List Expression) : Prop where
  isSome_iff : implicit.isSome = true ↔ k.NeedsInstance op
  notNull : ∀ e ∈ implicit, e.isNull = false
  first : ∃ below < budget, ∃ calls index,
    ((Sharing.callsOf k granted op (below + 1)).run.run ∅).1 = .ok calls ∧
    calls.toTree.get index = .ok (.call op implicit arguments) ∧
    calls.parts index = .ok (implicit.toList ++ arguments) ∧
    ∀ e ∈ implicit, ∃ slot offset, calls.slots.head? = some slot ∧ slot.get offset = .ok e

theorem IsInnerCall.isProperCall {k : Catalog} {granted : Access} {budget : Nat} {op : Operation}
    {implicit : Option Expression} {arguments : List Expression}
    (h : IsInnerCall k granted budget op implicit arguments) :
    IsProperCall k granted budget op implicit arguments := by
  obtain ⟨below, hbelow, -, hholds⟩ := h
  obtain ⟨hreceiver, -⟩ := Fresh.plans_of_holds hholds
  obtain ⟨hcalls, -⟩ :=
    Sharing.yields_callsOf below op ∅ (Memo.faithful_empty k granted)
  obtain ⟨index, -, hparts, hget⟩ := hholds
  refine ⟨?_, hreceiver.isNull_eq_false, below, hbelow, _, index, hcalls, hget, hparts, ?_⟩
  · rw [hreceiver.isSome_eq, k.isSome_implicit?_iff]
  · rintro e ⟨⟩
    exact Calls.exists_first_slot hparts

/-! ### Calls in blocks -/

/-- A block calls its operation on an instance exactly if it was built with one. -/
theorem Block.CallsOn.isSome_split {b : Block} {implicit : Option Implicit}
    {plans : List Expression} {locals : List Variable} {last : Statement}
    (h : b.CallsOn implicit plans locals last) :
    (Assembly.split implicit (locals.map .var)).1.isSome = implicit.isSome := by
  cases implicit with
  | none => rfl
  | some i =>
    have htypes := h.types
    cases locals with
    | nil => simp [slotTypes] at htypes
    | cons v locals => rfl

/-- What a block calls its operation on is not bound to `null`. -/
theorem Block.CallsOn.isNull_eq_false {k : Catalog} {granted : Access} {budget : Nat} {b : Block}
    {plans : List Expression} {locals : List Variable} {last : Statement}
    (h : b.CallsOn (k.implicit? b.operation) plans locals last)
    (hplans : List.Forall₂ (fun slot e => IsPlan k granted budget slot.1 slot.2 e)
      (Sharing.slotsOf b.operation (k.implicit? b.operation)) plans)
    {v : Variable} {e : Expression}
    (himplicit : (Assembly.split (k.implicit? b.operation) (locals.map .var)).1 = some (.var v))
    (hbind : .bind v e ∈ b.statements) : e.isNull = false := by
  have hlength := h.length
  have hnames := h.names
  have hcall := h.call
  rw [h.statements, List.mem_append, List.mem_singleton] at hbind
  rcases hbind with hbind | rfl
  · cases hneeded : k.implicit? b.operation with
    | none =>
      rw [hneeded] at himplicit
      simp [Assembly.split] at himplicit
    | some i =>
      rw [hneeded] at himplicit hplans
      obtain ⟨receiver, rest, hreceiver, -, rfl⟩ := List.forall₂_cons_left_iff.mp hplans
      obtain ⟨w, ws, rfl⟩ := List.exists_cons_of_length_eq_add_one hlength
      obtain rfl : w = v := by simpa [Assembly.split] using himplicit
      -- no other variable has the name of the first one
      rw [List.zipWith_cons_cons, List.mem_cons] at hbind
      rcases hbind with hfirst | hother
      · obtain ⟨-, rfl⟩ := Statement.bind.inj hfirst
        exact hreceiver.isNull_eq_false
      · obtain ⟨u, hu, f, -, hsame⟩ := exists_of_mem_bindings hother
        obtain ⟨rfl, -⟩ := Statement.bind.inj hsame
        exact absurd (List.mem_map_of_mem hu) (List.nodup_cons.mp hnames).1
  · -- what the last statement binds is the instance that a constructor makes
    obtain rfl : e = _ := hcall
    rfl

/-- If no call inside the plans is made on `null`, no call in a statement is. -/
theorem Block.CallsOn.isNull_eq_false_of_isPartOf {b : Block} {i : Option Implicit}
    {plans : List Expression} {locals : List Variable} {last : Statement}
    (h : b.CallsOn i plans locals last)
    (hplans : ∀ e ∈ plans, ∀ op receiver others,
      (Expression.call op (some receiver) others).IsPartOf e → receiver.isNull = false)
    {s : Statement} (hs : s ∈ b.statements) {op : Operation} {receiver : Expression}
    {others : List Expression}
    (hpart : (Expression.call op (some receiver) others).IsPartOf s.value) :
    receiver.isNull = false := by
  rw [h.statements, List.mem_append, List.mem_singleton] at hs
  rcases hs with hs | rfl
  · obtain ⟨v, -, e, he, rfl⟩ := exists_of_mem_bindings hs
    exact hplans e he op receiver others hpart
  · -- the operation is called on variables
    have hcall := (h.eq_of_isPartOf hpart).trans h.call
    obtain ⟨-, hreceiver, -⟩ := Expression.call.inj hcall
    have hmem : receiver ∈ locals.map Expression.var := by
      rw [← Assembly.toList_split_append i (locals.map .var), ← hreceiver]
      exact List.mem_cons_self
    obtain ⟨v, -, rfl⟩ := List.mem_map.mp hmem
    rfl

/-- **Calls are made on instances.** In every plan that the tree of a type holds, each call has an
implicit argument exactly if its operation needs an instance, which is then the plan for the first
slot and not `null`. At every index of a subject there is a block that binds the plans for the slots
of one call, in order, and calls its operation on the variables: with an implicit argument exactly
if the operation needs an instance, which is then the variable of the first plan and not bound to
`null`. No call in any statement is made on `null`, and the calls inside the plans are as above. -/
theorem exists_calls_with_instances (k : Catalog) :
    (∀ (granted : Access) (requests : List Sharing.Request) (budget : Nat) (type : TypeExpr)
      (demand : Demand) (index : Nat),
      index < (Sharing.treeAfter k granted requests budget type demand).size →
      ∃ e, (Sharing.treeAfter k granted requests budget type demand).get index = .ok e ∧
        ∀ op implicit arguments, (Expression.call op implicit arguments).IsPartOf e →
          IsProperCall k granted budget op implicit arguments) ∧
    ∀ (tested : ClassName) (depth : Nat) (grantedTested grantedUsed : Access) (c : Subject),
      Subject.ofCatalog k tested depth grantedTested grantedUsed = .ok c →
      ∀ index < c.size, ∃ child offset calls plans b locals last implicit arguments,
        c.indexRanges.locate index = .ok (child, offset) ∧ c.calls[child]? = some calls ∧
        calls.parts offset = .ok plans ∧ c.get index = .ok b ∧
        b.statements = List.zipWith .bind locals plans ++ [last] ∧
        last.value = .call b.operation implicit arguments ∧
        implicit.toList ++ arguments = locals.map .var ∧
        (implicit.isSome = true ↔ k.NeedsInstance b.operation) ∧
        (∀ v e, implicit = some (.var v) → .bind v e ∈ b.statements → e.isNull = false) ∧
        (∀ s ∈ b.statements, ∀ op receiver others,
          (Expression.call op (some receiver) others).IsPartOf s.value →
            receiver.isNull = false) ∧
        ∀ e ∈ plans, ∀ op receiver others,
          (Expression.call op receiver others).IsPartOf e →
            IsProperCall k grantedUsed (depth - 1) op receiver others := by
  constructor
  · intro granted requests budget type demand index hindex
    rw [Sharing.treeAfter_eq_tree] at hindex ⊢
    obtain ⟨e, he, -, hinner⟩ := Fresh.serves_parts k granted budget type demand index hindex
    exact ⟨e, he, fun op implicit arguments hpart =>
      (hinner op implicit arguments hpart).isProperCall⟩
  · intro tested depth grantedTested grantedUsed c hsubject index hindex
    obtain ⟨below, child, offset, calls, b, plans, locals, last, rfl, hlocate, hcalls, hparts,
      hblock, -, hplans, hcallsOn⟩ := Subject.exists_callsOn hsubject hindex
    have hinner : ∀ e ∈ plans, e.HasInnerCalls k grantedUsed below :=
      forall_mem_of_forall₂ (hplans.imp fun _ _ hplan => hplan.2)
    have hproper : ∀ e ∈ plans, ∀ op implicit arguments,
        (Expression.call op implicit arguments).IsPartOf e →
          IsProperCall k grantedUsed below op implicit arguments :=
      fun e he op implicit arguments hpart => (hinner e he op implicit arguments hpart).isProperCall
    refine ⟨child, offset, calls, plans, b, locals, last, _, _, hlocate, hcalls, hparts, hblock,
      hcallsOn.statements, hcallsOn.call, Assembly.toList_split_append _ _, ?_,
      fun v e => hcallsOn.isNull_eq_false (hplans.imp fun _ _ hplan => hplan.1),
      fun s hs op receiver others hpart => ?_, hproper⟩
    · rw [hcallsOn.isSome_split, k.isSome_implicit?_iff]
    · exact hcallsOn.isNull_eq_false_of_isPartOf
        (fun e he op receiver others hinside =>
          (hproper e he op (some receiver) others hinside).notNull receiver rfl) hs hpart

namespace Gallery

/-- The last plan for a shape with two calls makes its calls on instances, and so does the last
block of the shapes. -/
theorem exists_calls_with_instances_last :
    4 < (Sharing.treeAfter catalog .global [] 2 (.named shape) .all).size ∧
      (∃ e, (Sharing.treeAfter catalog .global [] 2 (.named shape) .all).get 4 = .ok e ∧
        ∀ op implicit arguments, (Expression.call op implicit arguments).IsPartOf e →
          IsProperCall catalog .global 2 op implicit arguments) ∧
      Subject.ofCatalog catalog shape 3 .global .global = .ok subject ∧ 11 < subject.size ∧
      ∃ child offset calls plans b locals last implicit arguments,
        subject.indexRanges.locate 11 = .ok (child, offset) ∧ subject.calls[child]? = some calls ∧
        calls.parts offset = .ok plans ∧ subject.get 11 = .ok b ∧
        b.statements = List.zipWith .bind locals plans ++ [last] ∧
        last.value = .call b.operation implicit arguments ∧
        implicit.toList ++ arguments = locals.map .var ∧
        (implicit.isSome = true ↔ catalog.NeedsInstance b.operation) ∧
        (∀ v e, implicit = some (.var v) → .bind v e ∈ b.statements → e.isNull = false) ∧
        (∀ s ∈ b.statements, ∀ op receiver others,
          (Expression.call op (some receiver) others).IsPartOf s.value →
            receiver.isNull = false) ∧
        ∀ e ∈ plans, ∀ op receiver others,
          (Expression.call op receiver others).IsPartOf e →
            IsProperCall catalog .global 2 op receiver others := by
  obtain ⟨hplans, hblocks⟩ := exists_calls_with_instances catalog
  exact ⟨lt_size_tree, hplans .global [] 2 (.named shape) .all 4 lt_size_tree, ofCatalog_shape,
    lt_size_subject, hblocks shape 3 .global .global subject ofCatalog_shape 11 lt_size_subject⟩

end Gallery

end CallPlan
