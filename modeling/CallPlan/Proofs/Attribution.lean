import CallPlan.Proofs.Building
import CallPlan.Proofs.Samples

/-!
# Which operation an index tests

The block at an index tests the operation whose index range holds the index
(`Subject.operation_of_get`), and there is exactly one. A sample goes through the ranges in the same
order and takes from each of them what the tally says, so no test is counted for another operation
(`Subject.exists_operation_and_selects`). That is so for numbers in words as well: the widths of the
ranges and the indices that are added to where they start do not overflow
(`Subject.sampleInWords_eq`).
-/

namespace CallPlan

namespace Subject

variable {c : Subject} {limit : Nat}

/-! ### Blocks -/

/-- A block that is made for a call of an operation tests that operation. -/
theorem operation_of_blockOf {calls : Calls} {offset : Nat} {b : Block}
    (h : blockOf calls offset = .ok b) : b.operation = calls.operation := by
  obtain ⟨plans, -, hbuild⟩ := exists_of_bind_eq_ok h
  obtain ⟨-, hoperation, -⟩ := Block.statements_of_build_eq_ok hbuild
  exact hoperation

/-- The block at an index tests **the operation whose range holds the index**. -/
theorem operation_of_get {index child : Nat} {b : Block} (hget : c.get index = .ok b)
    (howns : Owns (c.operationRanges.map Prod.snd) child index) :
    (c.operationRanges.map Prod.fst)[child]? = some b.operation := by
  have hsize := (c.tiling_operationRanges.mem_Ico_of_owns howns).2
  rw [map_snd_operationRanges] at howns
  obtain ⟨start, stop, hrange, hmem⟩ := howns
  have hlocate : c.indexRanges.locate index = .ok (child, index - start) :=
    c.indexRanges.locate_eq_ok_iff_ranges.mpr
      ⟨hsize, start, stop, hrange, Nat.add_sub_cancel' hmem.1, hmem⟩
  have hchild : child < c.calls.length := by
    have hlength := (List.getElem?_eq_some_iff.mp hrange).1
    simpa [indexRanges] using hlength
  have hcalls := List.getElem?_eq_getElem hchild
  rw [get_eq_blockOf hlocate hcalls] at hget
  rw [map_fst_operationRanges, List.getElem?_map, hcalls, operation_of_blockOf hget]
  rfl

/-! ### Samples in words -/

/-- The sample of one operation, with all numbers in words of 64 bits. -/
def sampleRangeInWords (limit : Nat) (range : Operation × Nat × Nat) :
    Except (Halt RunError) (List Nat × OperationTally) := do
  let (op, start, stop) := range
  let plans ← if stop < start then .error .overflow else .ok (stop - start)
  let chosen ← (CallPlan.sampleInWords plans limit).mapError (Halt.map (.sampling op))
  let indices ← chosen.mapM fun offset => inWord 64 (start + offset)
  let selected ← inWord 64 chosen.length
  return (indices, { operation := op.signature, plans, selected })

/-- The samples of all operations and the tallies, with all numbers in words. -/
def sampleInWords (c : Subject) (limit : Nat) :
    Except (Halt RunError) (List Nat × List OperationTally) := do
  let parts ← c.operationRanges.mapM (sampleRangeInWords limit)
  return (parts.flatMap (·.1), parts.map (·.2))

/-- From a range that ends below the largest number, a sample is the same in words. -/
theorem sampleRangeInWords_eq {range : Operation × Nat × Nat} (hle : range.2.1 ≤ range.2.2)
    (hstop : range.2.2 ≤ maxCount) (limit : Nat) :
    sampleRangeInWords limit range = (sampleRange limit range).mapError .failed := by
  obtain ⟨op, start, stop⟩ := range
  have hplans : stop - start ≤ maxCount := (Nat.sub_le ..).trans hstop
  have hwords := CallPlan.sampleInWords_eq hplans limit
  simp only [sampleRangeInWords, sampleRange, if_neg (Nat.not_lt.mpr hle), bind, Except.bind,
    hwords]
  cases hchosen : CallPlan.sample (stop - start) limit with
  | error e => rfl
  | ok chosen =>
    have hindices : chosen.mapM (fun offset => inWord 64 (start + offset)) =
        (.ok (chosen.map (start + ·)) : Except (Halt RunError) (List Nat)) := by
      refine mapM_eq_ok_map fun offset hoffset => inWord_eq_ok ?_
      have hlt := (isEvenlySpread_sample hchosen).below offset hoffset
      calc start + offset < stop := by omega
        _ ≤ maxCount := hstop
        _ < 2 ^ 64 := by decide
    have hselected : chosen.length < 2 ^ 64 := by
      obtain ⟨hcount, -⟩ := sample_eq_ok_iff.mp hchosen
      rw [length_sample hchosen]
      exact hcount.trans_lt (by decide)
    simp only [Except.mapError, hindices, inWord_eq_ok hselected]
    rfl

/-- A sample of any subject is the same in words: **no step overflows**. -/
theorem sampleInWords_eq (c : Subject) (limit : Nat) :
    c.sampleInWords limit = (c.sample limit).mapError .failed := by
  have hsize : c.size ≤ maxCount := by
    rw [size, IndexRanges.size_eq_clamp_sum]
    exact clamp_le_maxCount _
  have hparts : c.operationRanges.mapM (sampleRangeInWords limit) =
      (c.operationRanges.mapM (sampleRange limit)).mapError .failed := by
    refine mapM_mapError fun range hrange => ?_
    obtain ⟨-, hle, hstop⟩ := c.tiling_operationRanges.le_of_mem (List.mem_map_of_mem hrange)
    exact sampleRangeInWords_eq hle (hstop.trans hsize) limit
  rw [sampleInWords, sample, hparts]
  cases c.operationRanges.mapM (sampleRange limit) <;> rfl

/-! ### Subjects of a catalogue -/

/-- **Every index is a test of one operation.** The index ranges of the operations of a subject, in
the order of its calls, tile the indices below its size. At each of these there is a block, and it
tests the operation of the one range that holds the index. A sample, if there is one, is in order
and below the size. It consists, range by range, of as many indices of the range as the tally of the
operation says, and no step on the way to it overflows a word. -/
theorem exists_operation_and_selects (k : Catalog) (tested : ClassName) (depth : Nat)
    (grantedTested grantedUsed : Access) :
    ∃ c, ofCatalog k tested (depth + 1) grantedTested grantedUsed = .ok c ∧
      c.operationRanges.map Prod.fst = c.calls.map Calls.operation ∧
      Tiling 0 c.size (c.operationRanges.map Prod.snd) ∧
      (∀ index < c.size, ∃ b, c.get index = .ok b ∧
        (∃! child, Owns (c.operationRanges.map Prod.snd) child index) ∧
        ∀ child, Owns (c.operationRanges.map Prod.snd) child index →
          (c.operationRanges.map Prod.fst)[child]? = some b.operation) ∧
      ∀ limit,
        c.sampleInWords limit = (c.sample limit).mapError .failed ∧
        ∀ indices tallies, c.sample limit = .ok (indices, tallies) →
          indices.Pairwise (· < ·) ∧ (∀ index ∈ indices, index < c.size) ∧
          ∃ parts, indices = parts.flatMap Prod.fst ∧ tallies = parts.map Prod.snd ∧
            List.Forall₂ Selects c.operationRanges parts := by
  refine ⟨_, ofCatalog_succ k tested depth grantedTested grantedUsed, map_fst_operationRanges _,
    tiling_operationRanges _, fun index hindex => ?_, fun limit => ⟨sampleInWords_eq _ limit, ?_⟩⟩
  · obtain ⟨b, hget⟩ := exists_get_fresh k tested depth grantedTested grantedUsed hindex
    exact ⟨b, hget, (tiling_operationRanges _).existsUnique_owns ⟨Nat.zero_le _, hindex⟩,
      fun _ => operation_of_get hget⟩
  · intro indices tallies hsample
    obtain ⟨hincreasing, hbelow⟩ := pairwise_and_lt_size_of_sample hsample
    exact ⟨hincreasing, hbelow, exists_selects hsample⟩

end Subject

/-- Where one operation takes all indices, the block at the last of them tests it, and a sample in
words holds none of the other operation. -/
theorem Mixer.exists_operation_and_selects_last :
    ∃ c, Subject.ofCatalog catalog name 4 .global .global = .ok c ∧ c.size = maxCount ∧
      c.operationRanges = [(mix, 0, maxCount), (accept, maxCount, maxCount)] ∧
      (∃ b, c.get (maxCount - 1) = .ok b ∧ b.operation = mix) ∧
      ∃ indices tallies, c.sampleInWords 10 = .ok (indices, tallies) ∧
        indices.Pairwise (· < ·) ∧ (∀ index ∈ indices, index < maxCount) ∧
        tallies.map OperationTally.selected = [indices.length, 0] := by
  obtain ⟨c, hc, -, -, hblocks, hsamples⟩ :=
    Subject.exists_operation_and_selects catalog name 3 .global .global
  obtain rfl := Except.ok.inj
    (hc.symm.trans (Subject.ofCatalog_succ catalog name 3 .global .global))
  have hranges := operationRanges_subject
  rw [subject] at hranges
  have hsize : (Subject.fresh catalog name 3 .global .global).size = maxCount := by
    rw [Subject.size_fresh, clamp_of_maxCount_le maxCount_le_blockCount]
  refine ⟨_, hc, hsize, hranges, ?_, ?_⟩
  · obtain ⟨b, hget, -, hoperation⟩ := hblocks (maxCount - 1) (by rw [hsize]; decide)
    have hmix := hoperation 0 ⟨0, maxCount, by rw [hranges]; rfl, by decide⟩
    rw [hranges] at hmix
    exact ⟨b, hget, (Option.some.inj hmix).symm⟩
  · obtain ⟨indices, tallies, hsample⟩ :=
      Subject.exists_sample_eq_ok (Subject.fresh catalog name 3 .global .global)
        (show 10 ≠ 0 by decide) (by decide)
    obtain ⟨hwords, hsampled⟩ := hsamples 10
    obtain ⟨hincreasing, hbelow, parts, rfl, rfl, hparts⟩ := hsampled indices tallies hsample
    rw [hsize] at hbelow
    rw [hranges] at hparts
    obtain ⟨mixed, _, hmixed, hrest, rfl⟩ := List.forall₂_cons_left_iff.mp hparts
    obtain ⟨accepted, _, haccepted, hnone, rfl⟩ := List.forall₂_cons_left_iff.mp hrest
    obtain rfl := List.forall₂_nil_left_iff.mp hnone
    -- the range of the second operation is empty
    have hempty : accepted.1 = [] := List.eq_nil_iff_forall_not_mem.mpr fun index hindex => by
      obtain ⟨hstart, hstop⟩ := haccepted.inside index hindex
      exact absurd hstop hstart.not_gt
    refine ⟨_, _, hwords.trans (congrArg _ hsample), hincreasing, hbelow, ?_⟩
    simp [hmixed.selected, haccepted.selected, hempty]

end CallPlan
