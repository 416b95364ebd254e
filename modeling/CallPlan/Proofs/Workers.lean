import CallPlan.Proofs.PlanTree
import CallPlan.Run.Generation

/-!
# Blocks made side by side

Workers get consecutive shares of the indices and hand in what they made in the order of the shares.
Put together, the shares are all indices again (`flatten_pieces`), so neither the blocks nor the
first error depend on how many workers there are (`Subject.blocksAt_eq_blocksAt_one`).
-/

namespace CallPlan

/-- To wait for what was started is to do it. -/
theorem mapM_get_spawn {ε α β : Type} (f : α → Except ε β) (as : List α) :
    (as.map fun a => Task.spawn fun _ => f a).mapM Task.get = as.mapM f := by
  rw [List.mapM_map]
  rfl

/-! ### Blocks at indices -/

namespace Subject

variable (c : Subject) (indices : List Nat)

/-- Blocks are made for all indices if they are made for each of the shares. -/
theorem blocksInOrder_eq_map_flatten (more : Nat) :
    c.blocksInOrder indices =
      ((pieces more indices).mapM c.blocksInOrder).map List.flatten := by
  conv_lhs => rw [← flatten_pieces more indices]
  exact mapM_flatten _ _

/-- Workers do what is done without them. -/
theorem blocksAt_eq_blocksInOrder (workers : Nat) :
    c.blocksAt indices workers = c.blocksInOrder indices := by
  unfold blocksAt
  split_ifs
  · rfl
  · dsimp only
    rw [mapM_get_spawn,
      c.blocksInOrder_eq_map_flatten indices (shareOf indices.length workers - 1)]
    cases (pieces (shareOf indices.length workers - 1) indices).mapM c.blocksInOrder <;> rfl

theorem blocksInOrder_eq_ok_iff {blocks : List Block} :
    c.blocksInOrder indices = .ok blocks ↔
      List.Forall₂ (fun index b => c.get index = .ok b) indices blocks := by
  refine mapM_eq_ok_iff.trans ⟨fun h => h.imp fun _ _ hb => eq_ok_of_mapError_eq_ok hb,
    fun h => h.imp fun index b hb => ?_⟩
  rw [hb]
  rfl

theorem blocksInOrder_eq_error_iff {e : RunError} :
    c.blocksInOrder indices = .error e ↔
      ∃ before index after cause, indices = before ++ index :: after ∧
        (∀ i ∈ before, ∃ b, c.get i = .ok b) ∧ c.get index = .error cause ∧
        e = .block index c.tested cause := by
  rw [blocksInOrder, mapM_eq_error_iff]
  constructor
  · rintro ⟨before, index, after, rfl, hbefore, hindex⟩
    cases hget : c.get index with
    | ok b =>
      rw [hget] at hindex
      cases hindex
    | error cause =>
      rw [hget] at hindex
      refine ⟨before, index, after, cause, rfl, fun i hi => ?_, hget,
        (Except.error.inj hindex).symm⟩
      obtain ⟨b, hb⟩ := hbefore i hi
      exact ⟨b, eq_ok_of_mapError_eq_ok hb⟩
  · rintro ⟨before, index, after, cause, rfl, hbefore, hindex, rfl⟩
    refine ⟨before, index, after, rfl, fun i hi => ?_, ?_⟩
    · obtain ⟨b, hb⟩ := hbefore i hi
      rw [hb]
      exact ⟨b, rfl⟩
    · rw [hindex]
      rfl

variable {indices}

/-- Workers give the blocks of the indices in the same order. -/
theorem forall₂_of_blocksAt {blocks : List Block} {workers : Nat}
    (h : c.blocksAt indices workers = .ok blocks) :
    List.Forall₂ (fun index b => c.get index = .ok b) indices blocks := by
  rw [blocksAt_eq_blocksInOrder] at h
  exact (c.blocksInOrder_eq_ok_iff indices).mp h

/-- If there is a block at each of the indices, then workers find them all. -/
theorem exists_blocksAt_eq_ok (h : ∀ index ∈ indices, ∃ b, c.get index = .ok b) (workers : Nat) :
    ∃ blocks, c.blocksAt indices workers = .ok blocks := by
  rw [blocksAt_eq_blocksInOrder]
  refine exists_mapM_eq_ok fun index hindex => ?_
  obtain ⟨b, hb⟩ := h index hindex
  exact ⟨b, by rw [hb]; rfl⟩

variable (indices)

/-- **The number of workers does not matter**: whatever it is, the outcome is that of one worker.
These are the blocks at the indices, in order, if there is a block at each of them, and otherwise
the error of the first index that has no block. -/
theorem blocksAt_eq_blocksAt_one (workers : Nat) :
    c.blocksAt indices workers = c.blocksAt indices 1 ∧
      (∀ blocks, c.blocksAt indices workers = .ok blocks ↔
        List.Forall₂ (fun index b => c.get index = .ok b) indices blocks) ∧
      ∀ e, c.blocksAt indices workers = .error e ↔
        ∃ before index after cause, indices = before ++ index :: after ∧
          (∀ i ∈ before, ∃ b, c.get i = .ok b) ∧ c.get index = .error cause ∧
          e = .block index c.tested cause := by
  rw [blocksAt_eq_blocksInOrder, blocksAt_eq_blocksInOrder]
  exact ⟨rfl, fun _ => c.blocksInOrder_eq_ok_iff indices,
    fun _ => c.blocksInOrder_eq_error_iff indices⟩

end Subject

end CallPlan
