import CallPlan.Proofs.Statements

/-!
# Budgets bound the nesting of calls

A call takes one off the budget and an array takes nothing, so the calls of a plan nest at most as
deep as the budget says (`IsPlan.nesting_le`). A block binds plans of a smaller budget than the
depth of its subject, and calls its operation on variables, which nest no call
(`exists_nesting_le`).
-/

namespace CallPlan

namespace Expression

theorem greatestNesting_le_iff {es : List Expression} {n : Nat} :
    greatestNesting es ≤ n ↔ ∀ e ∈ es, e.nesting ≤ n := by
  induction es with
  | nil => simp [greatestNesting]
  | cons e es ih => simp [greatestNesting, ih]

/-- A call nests one deeper than the deepest of the plans for its slots. -/
theorem nesting_callOn (op : Operation) (implicit : Option Implicit) (plans : List Expression) :
    (Assembly.callOn op implicit plans).nesting = 1 + greatestNesting plans := by
  cases implicit <;> cases plans <;>
    simp [Assembly.callOn, Assembly.split, nesting, implicitNesting, greatestNesting]

end Expression

/-- The calls of a plan nest **at most as deep as the budget says**. -/
theorem IsPlan.nesting_le {k : Catalog} {granted : Access} {budget : Nat} {type : TypeExpr}
    {demand : Demand} {e : Expression} (h : IsPlan k granted budget type demand e) :
    e.nesting ≤ budget := by
  refine IsPlan.induction ?seed ?array ?call h
  case seed =>
    intro budget type demand e hseed
    obtain ⟨l, rfl, -⟩ | ⟨component, -, rfl⟩ := TypeExpr.mem_seeds hseed
    · simp [Expression.nesting]
    · simp [Expression.nesting, Expression.greatestNesting]
  case array =>
    -- a component is made within the budget of its array
    intro budget component demand e he
    rw [Expression.nesting, Expression.greatestNesting_le_iff]
    exact List.forall_mem_singleton.mpr he
  case call =>
    intro budget type demand op plans _ hplans
    have hslots : Expression.greatestNesting plans ≤ budget :=
      Expression.greatestNesting_le_iff.mpr (forall_mem_of_forall₂ hplans)
    rw [Expression.nesting_callOn]
    omega

namespace Block.CallsOn

variable {b : Block} {implicit : Option Implicit} {plans : List Expression}
  {locals : List Variable} {last : Statement}

/-- The call of a block's operation is on variables. -/
theorem nesting_last (h : b.CallsOn implicit plans locals last) : last.value.nesting = 1 := by
  have hlocals : Expression.greatestNesting (locals.map .var) ≤ 0 := by
    refine Expression.greatestNesting_le_iff.mpr (List.forall_mem_map.mpr fun v _ => ?_)
    rw [Expression.nesting]
  rw [h.call, Expression.nesting_callOn]
  omega

end Block.CallsOn

/-- **Calls nest at most as deep as the budget says.** Whatever was asked before, each plan that the
tree of a type holds nests calls at most `budget` deep, those in implicit arguments and array
components included. At every index of a subject there is a block whose last statement makes one
call, on nothing that nests calls, and whose other statements bind plans that nest calls less deep
than the subject's depth. -/
theorem exists_nesting_le (k : Catalog) :
    (∀ (granted : Access) (requests : List Sharing.Request) (budget : Nat) (type : TypeExpr)
      (demand : Demand) (index : Nat),
      index < (Sharing.treeAfter k granted requests budget type demand).size →
      ∃ e, (Sharing.treeAfter k granted requests budget type demand).get index = .ok e ∧
        e.nesting ≤ budget) ∧
    ∀ (tested : ClassName) (depth : Nat) (grantedTested grantedUsed : Access) (c : Subject),
      Subject.ofCatalog k tested depth grantedTested grantedUsed = .ok c →
      ∀ index < c.size, ∃ b bindings last, c.get index = .ok b ∧
        b.statements = bindings ++ [last] ∧
        (∀ s ∈ bindings, ∃ v e, s = .bind v e ∧ e.nesting < depth) ∧
        last.value.nesting = 1 := by
  constructor
  · intro granted requests budget type demand index hindex
    rw [Sharing.treeAfter_eq_tree] at hindex ⊢
    obtain ⟨e, he, hplan⟩ := Fresh.serves_tree k granted budget type demand index hindex
    exact ⟨e, he, hplan.nesting_le⟩
  · intro tested depth grantedTested grantedUsed c hsubject index hindex
    obtain ⟨below, child, offset, calls, b, plans, locals, last, rfl, -, -, -, hblock, -, hplans,
      hcallsOn⟩ := Subject.exists_callsOn hsubject hindex
    have hbelow : ∀ e ∈ plans, e.nesting ≤ below :=
      forall_mem_of_forall₂ (hplans.imp fun _ _ hplan => hplan.1.nesting_le)
    refine ⟨b, _, last, hblock, hcallsOn.statements, fun s hs => ?_, hcallsOn.nesting_last⟩
    obtain ⟨v, -, e, he, rfl⟩ := Block.exists_of_mem_bindings hs
    exact ⟨v, e, rfl, Nat.lt_succ_of_le (hbelow e he)⟩

/-- At the last index, where the sizes are cut off, a plan within a budget of four nests calls at
most four deep, and a block of a subject with a depth of four binds plans that nest them less
deep. -/
theorem Mixer.exists_nesting_le_last :
    maxCount - 1 < (Sharing.treeAfter catalog .global [] 4 (.primitive .int) .all).size ∧
      (∃ e, (Sharing.treeAfter catalog .global [] 4 (.primitive .int) .all).get (maxCount - 1) =
          .ok e ∧
        e.nesting ≤ 4) ∧
      ∃ c, Subject.ofCatalog catalog name 4 .global .global = .ok c ∧ maxCount - 1 < c.size ∧
        ∃ b bindings last, c.get (maxCount - 1) = .ok b ∧ b.statements = bindings ++ [last] ∧
          (∀ s ∈ bindings, ∃ v e, s = .bind v e ∧ e.nesting < 4) ∧ last.value.nesting = 1 := by
  have hlast : maxCount - 1 < maxCount := by decide
  have htree : maxCount - 1 <
      (Sharing.treeAfter catalog .global [] 4 (.primitive .int) .all).size := by
    rw [Sharing.treeAfter_eq_tree, Fresh.size_tree, clamp_of_maxCount_le maxCount_le_planCount]
    exact hlast
  have hsize : maxCount - 1 < (Subject.fresh catalog name 3 .global .global).size := by
    rw [Subject.size_fresh, clamp_of_maxCount_le maxCount_le_blockCount]
    exact hlast
  have hsubject := Subject.ofCatalog_succ catalog name 3 .global .global
  obtain ⟨hplans, hblocks⟩ := exists_nesting_le catalog
  exact ⟨htree, hplans .global [] 4 (.primitive .int) .all _ htree, _, hsubject, hsize,
    hblocks name 4 .global .global _ hsubject _ hsize⟩

end CallPlan
