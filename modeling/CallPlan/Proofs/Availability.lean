import CallPlan.Proofs.Blocks
import CallPlan.Proofs.PlanCount

/-!
# A plan at every index

No plan that is counted is refused when it is put together: the tree of a type holds a plan of that
type at every index below its size (`Fresh.serves_tree`), and a subject a block at every index below
its own (`Subject.exists_get_fresh`). The index finds its way through ranges that are cut off as
well as through ranges that are not, so this is no matter of how many plans there are.
-/

namespace CallPlan

/-- Plans for all slots are as many as there are slots. -/
theorem length_eq_of_plans {k : Catalog} {granted : Access} {budget : Nat} {op : Operation}
    {implicit : Option Implicit} {plans : List Expression}
    (h : List.Forall₂ (fun slot e => IsPlan k granted budget slot.1 slot.2 e)
      (Sharing.slotsOf op implicit) plans) :
    plans.length = (Block.slotTypes op implicit).length := by
  rw [← h.length_eq]
  simp [Sharing.slotsOf, Block.slotTypes]

namespace Fresh

variable {k : Catalog} {granted : Access} {budget : Nat}

/-- Every index of the calls of an operation stands for one plan per slot, with what the trees below
serve. -/
theorem exists_parts {below : TypeExpr → Demand → PlanTree}
    {P : TypeExpr → Demand → Expression → Prop}
    (h : ∀ type demand, (below type demand).Serves (P type demand))
    {op : Operation} {index : Nat} (hindex : index < (calls k below op).size) :
    ∃ plans, (calls k below op).parts index = .ok plans ∧
      List.Forall₂ (fun slot e => P slot.1 slot.2 e)
        (Sharing.slotsOf op (k.implicit? op)) plans := by
  have hdigits := digitsOf_lt index (pos_of_lt_productOf hindex)
  obtain ⟨plans, hplans, hslots⟩ := PlanTree.exists_getAll
    (Sharing.slotsOf op (k.implicit? op)) (fun slot _ => h slot.1 slot.2) hdigits
  refine ⟨plans, ?_, hslots⟩
  rw [Calls.parts, if_pos hindex]
  exact hplans

/-- Every index of the calls of an operation stands for a block. -/
theorem exists_blockOf {below : TypeExpr → Demand → PlanTree}
    (h : ∀ type demand, (below type demand).Serves (IsPlan k granted budget type demand))
    {op : Operation} {index : Nat} (hindex : index < (calls k below op).size) :
    ∃ b, Subject.blockOf (calls k below op) index = .ok b := by
  obtain ⟨plans, hparts, hplans⟩ := exists_parts h hindex
  have hbuild := Block.build_eq_ok (length_eq_of_plans hplans) k.isSome_implicit?
  refine ⟨_, Eq.trans ?_ hbuild⟩
  rw [Subject.blockOf, hparts]
  rfl

end Fresh

namespace Subject

/-- There is no block at the size of a subject or beyond it. -/
theorem get_of_size_le (c : Subject) {index : Nat} (h : c.size ≤ index) :
    c.get index = .error (.indexOutOfRange index c.size) := by
  rw [get, c.indexRanges.locate_of_size_le h]
  rfl

/-- A block of a subject is the block of a call of one operation. -/
theorem get_eq_blockOf {c : Subject} {index child offset : Nat} {calls : Calls}
    (hlocate : c.indexRanges.locate index = .ok (child, offset))
    (hcalls : c.calls[child]? = some calls) : c.get index = blockOf calls offset := by
  simp only [get, hlocate, bind, Except.bind, hcalls]

/-- Every index below the size of a subject leads to a call of a tested operation. -/
theorem exists_calls_fresh (k : Catalog) (tested : ClassName) (depth : Nat)
    (grantedTested grantedUsed : Access) {index : Nat}
    (h : index < (fresh k tested depth grantedTested grantedUsed).size) :
    ∃ child offset, ∃ op ∈ testedOperations k tested grantedTested,
      (fresh k tested depth grantedTested grantedUsed).indexRanges.locate index =
        .ok (child, offset) ∧
      (fresh k tested depth grantedTested grantedUsed).calls[child]? =
        some (Fresh.calls k (Fresh.tree k grantedUsed depth) op) ∧
      offset < (Fresh.calls k (Fresh.tree k grantedUsed depth) op).size := by
  obtain ⟨child, offset, hlocate⟩ := IndexRanges.exists_locate _ h
  obtain ⟨n, hn, hoffset⟩ := IndexRanges.offset_lt_of_locate _ hlocate
  rw [indexRanges, List.getElem?_map, Option.map_eq_some_iff] at hn
  obtain ⟨calls, hcalls, rfl⟩ := hn
  obtain ⟨op, hop, rfl⟩ := List.mem_map.mp (List.mem_of_mem_filter (List.mem_of_getElem? hcalls))
  exact ⟨child, offset, op, hop, hlocate, hcalls, hoffset⟩

/-- There is a block at every index below the size of a subject. -/
theorem exists_get_fresh (k : Catalog) (tested : ClassName) (depth : Nat)
    (grantedTested grantedUsed : Access) {index : Nat}
    (h : index < (fresh k tested depth grantedTested grantedUsed).size) :
    ∃ b, (fresh k tested depth grantedTested grantedUsed).get index = .ok b := by
  obtain ⟨child, offset, op, -, hlocate, hcalls, hoffset⟩ :=
    exists_calls_fresh k tested depth grantedTested grantedUsed h
  obtain ⟨b, hb⟩ := Fresh.exists_blockOf (Fresh.serves_tree k grantedUsed depth) hoffset
  exact ⟨b, (get_eq_blockOf hlocate hcalls).trans hb⟩

end Subject

/-- Every subject with a depth of at least one exists and holds a **block at every index** below its
size and none at the others. Whatever was asked before, the tree of a type holds a **plan at every
index** below its size, and the plan fits the type. -/
theorem exists_block_and_plan_at (k : Catalog) :
    (∀ (tested : ClassName) (depth : Nat) (grantedTested grantedUsed : Access), 1 ≤ depth →
      ∃ c, Subject.ofCatalog k tested depth grantedTested grantedUsed = .ok c ∧
        ∀ index,
          (index < c.size → ∃ b, c.get index = .ok b) ∧
          (c.size ≤ index → c.get index = .error (.indexOutOfRange index c.size))) ∧
    ∀ (granted : Access) (requests : List Sharing.Request) (budget : Nat) (type : TypeExpr)
      (demand : Demand) (index : Nat),
      index < (Sharing.treeAfter k granted requests budget type demand).size →
      ∃ e, (Sharing.treeAfter k granted requests budget type demand).get index = .ok e ∧
        e.type.fits type = true := by
  constructor
  · intro tested depth grantedTested grantedUsed hdepth
    obtain ⟨depth, rfl⟩ : ∃ d, depth = d + 1 := ⟨depth - 1, by omega⟩
    refine ⟨_, Subject.ofCatalog_succ k tested depth grantedTested grantedUsed, fun index => ?_⟩
    exact ⟨Subject.exists_get_fresh k tested depth grantedTested grantedUsed,
      Subject.get_of_size_le _⟩
  · intro granted requests budget type demand index hindex
    rw [Sharing.treeAfter_eq_tree] at hindex ⊢
    obtain ⟨e, he, hplan⟩ := Fresh.serves_tree k granted budget type demand index hindex
    exact ⟨e, he, hplan.fits⟩

/-- Also where the sizes are cut off, there is a block and a plan at the last index, and no block
beyond it. -/
theorem Mixer.exists_block_and_plan_at_last :
    ∃ c, Subject.ofCatalog catalog name 4 .global .global = .ok c ∧ c.size = maxCount ∧
      (∃ b, c.get (maxCount - 1) = .ok b) ∧
      c.get maxCount = .error (.indexOutOfRange maxCount maxCount) ∧
      ∃ e, (Sharing.treeAfter catalog .global [] 4 (.primitive .int) .all).get (maxCount - 1) =
          .ok e ∧
        e.type.fits (.primitive .int) = true := by
  obtain ⟨hblocks, hplans⟩ := exists_block_and_plan_at catalog
  obtain ⟨c, hc, hget⟩ := hblocks name 4 .global .global (by decide)
  have hfresh := Except.ok.inj
    (hc.symm.trans (Subject.ofCatalog_succ catalog name 3 .global .global))
  have hsize : c.size = maxCount := by
    rw [hfresh, Subject.size_fresh, clamp_of_maxCount_le maxCount_le_blockCount]
  have hblock := (hget (maxCount - 1)).1 (by rw [hsize]; decide)
  have hbeyond := (hget maxCount).2 hsize.le
  rw [hsize] at hbeyond
  have htree : (Sharing.treeAfter catalog .global [] 4 (.primitive .int) .all).size = maxCount := by
    rw [Sharing.treeAfter_eq_tree, Fresh.size_tree, clamp_of_maxCount_le maxCount_le_planCount]
  exact ⟨c, hc, hsize, hblock, hbeyond,
    hplans .global [] 4 (.primitive .int) .all (maxCount - 1) (by rw [htree]; decide)⟩

end CallPlan
