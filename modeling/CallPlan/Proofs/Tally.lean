import CallPlan.Proofs.PlanCount
import CallPlan.Proofs.Spread
import CallPlan.Proofs.Workers

/-!
# What tallies say

A tally gives the width of an operation's index range as the number of its plans. The ranges of a
subject are cut off together, so an operation is short of plans once those in front of it have used
up the indices: what is reported is the number of its calls as far as `maxCount` leaves room
(`Subject.getElem?_reportedRows`), and nothing of it is sampled when there is no room left
(`Subject.reaches_iff`). Tallies are right for all operations exactly if the calls of all of them
can be counted together (`Subject.talliesOwnCalls_iff`).
-/

namespace CallPlan

/-! ### Reported and own numbers -/

/-- What a tally says of the plans of an operation. -/
def OperationTally.row (t : OperationTally) : String × Nat := (t.operation, t.plans)

namespace Subject

variable {c : Subject} {child limit : Nat} {calls : Calls}

/-- The operations with the number of their own calls. -/
def ownRows (c : Subject) : List (String × Nat) :=
  c.calls.map fun calls => (calls.operation.signature, calls.size)

/-- The operations with the widths of their index ranges. -/
def reportedRows (c : Subject) : List (String × Nat) :=
  c.operationRanges.map fun (op, start, stop) => (op.signature, stop - start)

/-- How many calls the operations in front of one have, all together. -/
def callsBefore (c : Subject) (child : Nat) : Nat := ((c.calls.map Calls.size).take child).sum

/-- One of the indices leads to a call of the numbered operation. -/
def Reaches (c : Subject) (indices : List Nat) (child : Nat) : Prop :=
  ∃ index ∈ indices, ∃ offset, c.indexRanges.locate index = .ok (child, offset)

theorem getElem?_sizes (h : c.calls[child]? = some calls) :
    (c.calls.map Calls.size)[child]? = some calls.size := by
  rw [List.getElem?_map, h]
  rfl

theorem getElem?_ownRows (h : c.calls[child]? = some calls) :
    c.ownRows[child]? = some (calls.operation.signature, calls.size) := by
  rw [ownRows, List.getElem?_map, h]
  rfl

/-- The range of an operation goes from its own start to that of the next one. -/
theorem getElem?_operationRanges (h : c.calls[child]? = some calls) :
    c.operationRanges[child]? = some (calls.operation, c.indexRanges.start child,
      c.indexRanges.start (child + 1)) := by
  obtain ⟨hchild, -⟩ := List.getElem?_eq_some_iff.mp h
  have hsizes : child < c.indexRanges.sizes.length := by simpa [indexRanges] using hchild
  rw [operationRanges, List.getElem?_zip_eq_some, c.indexRanges.getElem?_ranges hsizes,
    List.getElem?_map, h]
  exact ⟨rfl, rfl⟩

/-- A range is as wide as the calls in front leave room. -/
theorem width_eq (h : c.calls[child]? = some calls) :
    c.indexRanges.start (child + 1) - c.indexRanges.start child =
      min calls.size (maxCount - c.callsBefore child) :=
  c.indexRanges.start_succ_sub_start (getElem?_sizes h)

theorem callsBefore_add_size_le (h : c.calls[child]? = some calls) :
    c.callsBefore child + calls.size ≤ (c.calls.map Calls.size).sum :=
  sum_take_add_le (getElem?_sizes h)

theorem length_reportedRows (c : Subject) : c.reportedRows.length = c.calls.length := by
  simp [reportedRows, operationRanges, indexRanges]

/-- What is reported of an operation. -/
theorem getElem?_reportedRows (h : c.calls[child]? = some calls) :
    c.reportedRows[child]? =
      some (calls.operation.signature, min calls.size (maxCount - c.callsBefore child)) := by
  rw [reportedRows, List.getElem?_map, getElem?_operationRanges h, ← width_eq h]
  rfl

/-- The tally gives every operation with the width of its index range. -/
theorem rows_tally (c : Subject) (limit : Nat) :
    (c.tally limit).map OperationTally.row = c.reportedRows := by
  rw [tally, List.map_map]
  rfl

/-- The parts that a sample is made of, one for each operation. -/
theorem exists_parts_of_sample {indices : List Nat} {tallies : List OperationTally}
    (h : c.sample limit = .ok (indices, tallies)) :
    ∃ parts, List.Forall₂ (fun range part => sampleRange limit range = .ok part) c.operationRanges
        parts ∧
      indices = parts.flatMap Prod.fst ∧ tallies = parts.map Prod.snd := by
  obtain ⟨parts, hparts, h⟩ := exists_of_bind_eq_ok h
  obtain ⟨rfl, rfl⟩ := Prod.mk.inj (Except.ok.inj h)
  exact ⟨parts, mapM_eq_ok_iff.mp hparts, rfl, rfl⟩

/-- The sample of one operation is that of as many plans as the range is wide, counted from where
the range starts. -/
theorem exists_of_sampleRange_eq_ok {range : Operation × Nat × Nat}
    {part : List Nat × OperationTally} (h : sampleRange limit range = .ok part) :
    ∃ chosen, CallPlan.sample (range.2.2 - range.2.1) limit = .ok chosen ∧
      part = (chosen.map (range.2.1 + ·),
        { operation := range.1.signature, plans := range.2.2 - range.2.1,
          selected := chosen.length }) := by
  simp only [sampleRange] at h
  split at h
  · cases h
  · rename_i chosen hchosen
    exact ⟨chosen, hchosen, (Except.ok.inj h).symm⟩

/-- The tallies of a sample are those that are counted without it. -/
theorem tally_of_sample {indices : List Nat} {tallies : List OperationTally}
    (h : c.sample limit = .ok (indices, tallies)) : tallies = c.tally limit := by
  obtain ⟨parts, hparts, -, rfl⟩ := exists_parts_of_sample h
  refine List.forall₂_eq_eq_eq ▸ ?_
  rw [tally, List.forall₂_map_left_iff, List.forall₂_map_right_iff]
  refine hparts.flip.imp fun part range hpart => ?_
  obtain ⟨chosen, hchosen, rfl⟩ := exists_of_sampleRange_eq_ok hpart
  exact congrArg (OperationTally.mk _ _) (length_sample hchosen)

/-- A sample is reported with the same numbers of plans as without one. -/
theorem rows_sample {indices : List Nat} {tallies : List OperationTally}
    (h : c.sample limit = .ok (indices, tallies)) :
    tallies.map OperationTally.row = c.reportedRows := by
  rw [tally_of_sample h, rows_tally]

/-- A sample holds an index of an operation exactly if the operations in front leave room. -/
theorem reaches_iff {indices : List Nat} {tallies : List OperationTally}
    (h : c.sample limit = .ok (indices, tallies)) (hcalls : c.calls[child]? = some calls)
    (hsize : calls.size ≠ 0) : c.Reaches indices child ↔ c.callsBefore child < maxCount := by
  have hwidth := width_eq hcalls
  constructor
  · rintro ⟨index, -, offset, hlocate⟩
    obtain ⟨-, hindex, hlt⟩ := c.indexRanges.locate_eq_ok_iff.mp hlocate
    omega
  · intro hroom
    -- the start of the range is in the sample, as the first plan always is
    obtain ⟨parts, hparts, rfl, -⟩ := exists_parts_of_sample h
    obtain ⟨hchild, hrange⟩ := List.getElem?_eq_some_iff.mp (getElem?_operationRanges hcalls)
    have hpart := List.forall₂_iff_get.mp hparts
    have hlength : child < parts.length := hpart.1 ▸ hchild
    have hsample := hpart.2 child hchild hlength
    rw [List.get_eq_getElem, hrange] at hsample
    obtain ⟨chosen, hchosen, hindices⟩ := exists_of_sampleRange_eq_ok hsample
    refine ⟨c.indexRanges.start child, ?_, 0, ?_⟩
    · refine List.mem_flatMap.mpr ⟨_, List.getElem_mem hlength, ?_⟩
      rw [List.get_eq_getElem] at hindices
      rw [hindices]
      have hwide : 0 < c.indexRanges.start (child + 1) - c.indexRanges.start child := by omega
      exact List.mem_map.mpr ⟨0, zero_mem_sample hchosen hwide, rfl⟩
    · refine c.indexRanges.locate_eq_ok_iff.mpr ⟨?_, rfl, by omega⟩
      obtain ⟨hin, -⟩ := List.getElem?_eq_some_iff.mp hcalls
      simpa [indexRanges] using hin

/-- The widths of the ranges are the numbers of calls exactly if all calls can be counted
together. -/
theorem reportedRows_eq_ownRows_iff (c : Subject) :
    c.reportedRows = c.ownRows ↔ (c.calls.map Calls.size).sum ≤ maxCount := by
  constructor
  · intro hrows
    -- each operation leaves room for the next one
    have hroom (child : Nat) : c.callsBefore child ≤ maxCount := by
      induction child with
      | zero => simp [callsBefore]
      | succ child ih =>
        rw [callsBefore, List.take_add_one, List.sum_append, List.getElem?_map]
        rcases hcalls : c.calls[child]? with _ | calls
        · simpa [callsBefore] using ih
        · have hsame := getElem?_reportedRows hcalls
          rw [hrows, getElem?_ownRows hcalls] at hsame
          have hfull := (Prod.mk.inj (Option.some.inj hsame)).2
          simp only [Option.map_some, Option.toList_some, List.sum_singleton]
          rw [callsBefore] at hfull ih
          omega
    have hall := hroom (c.calls.map Calls.size).length
    rwa [callsBefore, List.take_length] at hall
  · intro hsum
    refine List.ext_getElem? fun child => ?_
    rcases hcalls : c.calls[child]? with _ | calls
    · rw [List.getElem?_eq_none_iff] at hcalls
      rw [List.getElem?_eq_none (c.length_reportedRows ▸ hcalls),
        List.getElem?_eq_none (by simpa [ownRows] using hcalls)]
    · have hroom := callsBefore_add_size_le hcalls
      rw [getElem?_reportedRows hcalls, getElem?_ownRows hcalls]
      congr 2
      omega

/-- Every operation is reported and sampled **on its own**, whatever the others are: its tallies
give the number of its own calls, and a sample holds one of them if there are any. -/
structure TalliesOwnCalls (c : Subject) (limit : Nat) : Prop where
  counted : (c.tally limit).map OperationTally.row = c.ownRows
  sampled : ∀ indices tallies, c.sample limit = .ok (indices, tallies) →
    tallies.map OperationTally.row = c.ownRows
  reached : ∀ indices tallies, c.sample limit = .ok (indices, tallies) →
    ∀ child calls, c.calls[child]? = some calls → calls.size ≠ 0 → c.Reaches indices child

/-- Tallies are right for all operations exactly if all calls can be counted together. -/
theorem talliesOwnCalls_iff (c : Subject) (limit : Nat) :
    c.TalliesOwnCalls limit ↔ (c.calls.map Calls.size).sum ≤ maxCount := by
  rw [← reportedRows_eq_ownRows_iff]
  constructor
  · intro h
    rw [← rows_tally c limit, h.counted]
  · intro h
    refine ⟨(rows_tally c limit).trans h,
      fun indices tallies hsample => (rows_sample hsample).trans h,
      fun indices tallies hsample child calls hcalls hsize => ?_⟩
    have hroom := callsBefore_add_size_le hcalls
    rw [reportedRows_eq_ownRows_iff] at h
    exact (reaches_iff hsample hcalls hsize).mpr (by omega)

/-- What tallies and samples say of the operations of a class. Every tested operation with any calls
has a row; the row gives the number of its calls as far as those of the operations in front leave
room, with or without a sample, and a sample holds one of the calls exactly if there is any room.
So all operations are reported and sampled on their own **exactly if** all calls can be counted
together. -/
theorem exists_talliesOwnCalls_iff (k : Catalog) (tested : ClassName) (depth : Nat)
    (grantedTested grantedUsed : Access) :
    ∃ c, ofCatalog k tested (depth + 1) grantedTested grantedUsed = .ok c ∧
      c.calls = ((testedOperations k tested grantedTested).map
        (Fresh.calls k (Fresh.tree k grantedUsed depth))).filter (·.size ≠ 0) ∧
      ∀ limit,
        (∀ child calls, c.calls[child]? = some calls →
          ((c.tally limit).map OperationTally.row)[child]? =
            some (calls.operation.signature, min calls.size (maxCount - c.callsBefore child)) ∧
          ∀ indices tallies, c.sample limit = .ok (indices, tallies) →
            tallies.map OperationTally.row = (c.tally limit).map OperationTally.row ∧
              (c.Reaches indices child ↔ c.callsBefore child < maxCount)) ∧
        (c.TalliesOwnCalls limit ↔ (c.calls.map Calls.size).sum ≤ maxCount) := by
  refine ⟨_, ofCatalog_succ k tested depth grantedTested grantedUsed, rfl, fun limit => ⟨?_,
    talliesOwnCalls_iff _ limit⟩⟩
  intro child calls hcalls
  have hsize : calls.size ≠ 0 := by
    have hmem := (List.mem_filter.mp (List.mem_of_getElem? hcalls)).2
    simpa using hmem
  rw [rows_tally]
  refine ⟨getElem?_reportedRows hcalls, fun indices tallies hsample => ⟨rows_sample hsample, ?_⟩⟩
  exact reaches_iff hsample hcalls hsize

end Subject

/-! ### An operation without room -/

namespace Mixer

/-- The class as a subject with a depth of four. -/
def subject : Subject := Subject.fresh catalog name 3 .global .global

/-- The calls of a method with a depth of four. -/
def callsOf (op : Operation) : Calls := Fresh.calls catalog (Fresh.tree catalog .global 3) op

/-- The first method alone has as many calls as can be counted. -/
theorem size_callsOf_mix : (callsOf mix).size = maxCount := by
  rw [callsOf, Fresh.size_calls (Fresh.size_tree catalog .global 3)]
  decide +kernel

theorem size_callsOf_accept : (callsOf accept).size = 3 + 27003 ^ 3 := by
  rw [callsOf, Fresh.size_calls (Fresh.size_tree catalog .global 3)]
  decide +kernel

theorem calls_subject : subject.calls = [callsOf mix, callsOf accept] := by
  have htested : Subject.testedOperations catalog name .global = [mix, accept] := by decide
  have hmix : (callsOf mix).size ≠ 0 := by
    rw [size_callsOf_mix]
    decide
  have haccept : (callsOf accept).size ≠ 0 := by
    rw [size_callsOf_accept]
    decide
  change ((Subject.testedOperations catalog name .global).map callsOf).filter (·.size ≠ 0) = _
  rw [htested]
  simp [hmix, haccept]

/-- No index is left for the second method. -/
theorem operationRanges_subject :
    subject.operationRanges = [(mix, 0, maxCount), (accept, maxCount, maxCount)] := by
  rw [Subject.operationRanges, Subject.indexRanges, calls_subject]
  simp only [List.map_cons, List.map_nil, size_callsOf_mix, size_callsOf_accept]
  rfl

/-- A method with too many calls to be counted leaves no room for the one behind it, which is
reported with no plans at all and is not in the sample. -/
theorem not_talliesOwnCalls :
    ∃ c, Subject.ofCatalog catalog name 4 .global .global = .ok c ∧
      c.ownRows = [(mix.signature, maxCount), (accept.signature, 3 + 27003 ^ 3)] ∧
      (c.tally 10).map OperationTally.row = [(mix.signature, maxCount), (accept.signature, 0)] ∧
      (∃ indices tallies, c.sample 10 = .ok (indices, tallies) ∧ ¬ c.Reaches indices 1) ∧
      ¬ c.TalliesOwnCalls 10 := by
  refine ⟨subject, Subject.ofCatalog_succ catalog name 3 .global .global, ?_, ?_, ?_, ?_⟩
  · rw [Subject.ownRows, calls_subject]
    simp only [List.map_cons, List.map_nil, size_callsOf_mix, size_callsOf_accept]
    rfl
  · rw [Subject.rows_tally, Subject.reportedRows, operationRanges_subject]
    rfl
  · have hsample : ∃ indices tallies, subject.sample 10 = .ok (indices, tallies) := by
      rw [Subject.sample, operationRanges_subject]
      exact ⟨_, _, rfl⟩
    obtain ⟨indices, tallies, hsample⟩ := hsample
    have haccept : subject.calls[1]? = some (callsOf accept) := by
      rw [calls_subject]
      rfl
    have hsize : (callsOf accept).size ≠ 0 := by
      rw [size_callsOf_accept]
      decide
    refine ⟨indices, tallies, hsample, ?_⟩
    rw [Subject.reaches_iff hsample haccept hsize, Subject.callsBefore, calls_subject]
    simp [size_callsOf_mix]
  · rw [Subject.talliesOwnCalls_iff, calls_subject]
    simp [size_callsOf_mix, size_callsOf_accept]

end Mixer

end CallPlan
