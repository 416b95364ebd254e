import CallPlan.Proofs.Availability
import CallPlan.Proofs.Tally
import CallPlan.Proofs.Tiling

/-!
# Samples

A sample of a subject is taken from one operation after the other (`Subject.exists_selects`): from
each of them as many indices as the tally says, in order and inside the index range of the
operation. The ranges of the operations tile the indices of the subject
(`Subject.tiling_operationRanges`), so the whole sample is in order and holds indices of the
subject. There is one if the limit is not too large (`Subject.exists_sample_eq_ok`).
-/

namespace CallPlan

namespace Subject

variable {c : Subject} {indices : List Nat} {limit : Nat}

/-! ### Ranges of operations -/

theorem map_fst_operationRanges (c : Subject) :
    c.operationRanges.map Prod.fst = c.calls.map Calls.operation := by
  rw [operationRanges, List.map_fst_zip]
  simp [indexRanges]

/-- The operations have the index ranges of their subject, in order. -/
theorem map_snd_operationRanges (c : Subject) :
    c.operationRanges.map Prod.snd = c.indexRanges.ranges := by
  rw [operationRanges, List.map_snd_zip]
  simp [indexRanges]

/-- The index ranges of the operations **tile** the indices of the subject. -/
theorem tiling_operationRanges (c : Subject) :
    Tiling 0 c.size (c.operationRanges.map Prod.snd) := by
  rw [map_snd_operationRanges]
  exact c.indexRanges.tiling_ranges

/-! ### Samples of one operation -/

/-- A part of a sample **selects** from the range of an operation: it holds indices of the range in
order, and its tally gives the operation and the number of indices. -/
structure Selects (range : Operation × Nat × Nat) (part : List Nat × OperationTally) : Prop where
  operation : part.2.operation = range.1.signature
  selected : part.2.selected = part.1.length
  increasing : part.1.Pairwise (· < ·)
  inside : ∀ index ∈ part.1, index ∈ Set.Ico range.2.1 range.2.2

/-- What is sampled from the range of an operation selects from that range. -/
theorem selects_of_sampleRange {range : Operation × Nat × Nat} {part : List Nat × OperationTally}
    (h : sampleRange limit range = .ok part) : Selects range part := by
  obtain ⟨chosen, hchosen, rfl⟩ := exists_of_sampleRange_eq_ok h
  have heven := isEvenlySpread_sample hchosen
  refine ⟨rfl, (List.length_map ..).symm, ?_, ?_⟩
  · exact List.pairwise_map.mpr (heven.increasing.imp fun hlt => Nat.add_lt_add_left hlt _)
  · rw [List.forall_mem_map]
    intro offset hoffset
    have hlt := heven.below offset hoffset
    have hstop : range.2.1 + offset < range.2.2 := by omega
    exact ⟨Nat.le_add_right .., hstop⟩

/-! ### Samples of a subject -/

/-- A sample is taken from one operation after the other. -/
theorem exists_selects {tallies : List OperationTally}
    (h : c.sample limit = .ok (indices, tallies)) :
    ∃ parts, indices = parts.flatMap Prod.fst ∧ tallies = parts.map Prod.snd ∧
      List.Forall₂ Selects c.operationRanges parts := by
  obtain ⟨parts, hparts, hindices, htallies⟩ := exists_parts_of_sample h
  exact ⟨parts, hindices, htallies, hparts.imp fun _ _ => selects_of_sampleRange⟩

/-- The tallies of a sample add up to its size. -/
theorem sum_selected_of_sample {tallies : List OperationTally}
    (h : c.sample limit = .ok (indices, tallies)) :
    (tallies.map OperationTally.selected).sum = indices.length := by
  obtain ⟨parts, rfl, rfl, hparts⟩ := exists_selects h
  rw [List.length_flatMap, List.map_map]
  congr 1
  exact List.map_congr_left (forall_mem_of_forall₂ (hparts.imp fun _ _ => Selects.selected))

/-- A sample holds **indices of the subject, in order**. -/
theorem pairwise_and_lt_size_of_sample {tallies : List OperationTally}
    (h : c.sample limit = .ok (indices, tallies)) :
    indices.Pairwise (· < ·) ∧ ∀ index ∈ indices, index < c.size := by
  obtain ⟨parts, rfl, -, hparts⟩ := exists_selects h
  have hranges : List.Forall₂ (fun range part => part.Pairwise (· < ·) ∧
      ∀ index ∈ part, index ∈ Set.Ico range.1 range.2)
      (c.operationRanges.map Prod.snd) (parts.map Prod.fst) := by
    rw [List.forall₂_map_left_iff, List.forall₂_map_right_iff]
    exact hparts.imp fun _ _ hpart => ⟨hpart.increasing, hpart.inside⟩
  obtain ⟨hincreasing, hbounds⟩ := c.tiling_operationRanges.pairwise_flatten hranges
  exact ⟨hincreasing, fun index hindex => (hbounds index hindex).2⟩

/-- A limit that is not too large leads to a sample of any subject. -/
theorem exists_sample_eq_ok (c : Subject) (hlimit : limit ≠ 0) (hlarge : limit ≤ maxSample) :
    ∃ indices tallies, c.sample limit = .ok (indices, tallies) := by
  have hranges : ∀ range ∈ c.operationRanges, ∃ part, sampleRange limit range = .ok part := by
    rintro ⟨op, start, stop⟩ -
    obtain ⟨chosen, hchosen⟩ := CallPlan.exists_sample_eq_ok hlimit hlarge (stop - start)
    simp only [sampleRange, hchosen]
    exact ⟨_, rfl⟩
  obtain ⟨parts, hparts⟩ := exists_mapM_eq_ok hranges
  refine ⟨parts.flatMap (·.1), parts.map (·.2), ?_⟩
  rw [sample, hparts]
  rfl

/-! ### Subjects as settings want them -/

theorem tested_of_ofSettings {k : Catalog} {s : Settings} {tested : ClassName}
    (h : ofSettings k s tested = .ok c) : c.tested = tested := by
  obtain ⟨depth, -, rfl⟩ := eq_fresh_of_ofCatalog_eq_ok (eq_ok_of_mapError_eq_ok h)
  rfl

end Subject

end CallPlan
