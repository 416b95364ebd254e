import CallPlan.Proofs.Counting
import CallPlan.Proofs.Steps

/-!
# Evenly spread samples

A sample of `count` out of `size` plans takes the plans `slot * size / count`, which are all plans
if there are as many (`spread_self`). Between one of them and the next, and from the last one to the
end, lies the size divided by the count, rounded down or up (`isChain_spread`). All else follows
from these gaps: they are not empty if the count is not above the size, so a sample is in order and
below the size.

The product goes beyond 64 bits on the way. Carried out in words, of 128 bits for the product, the
sample is the same (`sampleInWords_eq`).
-/

namespace CallPlan

/-! ### Spread indices -/

/-- So many indices below `size`, evenly spread. -/
def spread (size count : Nat) : List Nat :=
  (List.range count).map fun slot => slot * size / count

variable {size count limit : Nat} {chosen : List Nat}

@[simp]
theorem length_spread (size count : Nat) : (spread size count).length = count := by
  simp [spread]

/-- As many indices as there are below `size` are all of them. -/
theorem spread_self (size : Nat) : spread size size = List.range size := by
  rw [spread]
  refine (List.map_congr_left fun slot hslot => ?_).trans (List.map_id _)
  exact Nat.mul_div_cancel slot (Nat.zero_lt_of_lt (List.mem_range.mp hslot))

theorem head?_spread (hcount : 0 < count) : (spread size count).head? = some 0 := by
  obtain ⟨count, rfl⟩ : ∃ n, count = n + 1 := ⟨count - 1, by omega⟩
  simp [spread, List.range_succ_eq_map]

/-- The size stands where one more index would. -/
theorem spread_concat (hcount : 0 < count) :
    spread size count ++ [size] = (List.range (count + 1)).map fun slot => slot * size / count := by
  rw [List.range_succ, List.map_append, List.map_singleton, Nat.mul_div_cancel_left size hcount,
    spread]

theorem ceilDiv_eq_div_add_one (h : size % count ≠ 0) (hcount : 0 < count) :
    size ⌈/⌉ count = size / count + 1 := by
  have hlow := Nat.mod_lt size hcount
  have hsplit := Nat.div_add_mod size count
  have hround : size + count - 1 = count * (size / count + 1) + (size % count - 1) := by
    rw [Nat.mul_add, Nat.mul_one]
    omega
  have hrest : (size % count - 1) / count = 0 := Nat.div_eq_of_lt (by omega)
  rw [Nat.ceilDiv_eq_add_pred_div, hround, Nat.mul_add_div hcount, hrest, Nat.add_zero]

/-- One step further is one gap further, rounded down or up. -/
theorem succ_mul_div (hcount : 0 < count) (slot : Nat) :
    (slot + 1) * size / count = slot * size / count + size / count ∨
      (slot + 1) * size / count = slot * size / count + size ⌈/⌉ count := by
  rw [Nat.succ_mul, Nat.add_div hcount]
  split_ifs with hcarry
  · have hmod : size % count ≠ 0 := by
      have hlow := Nat.mod_lt (slot * size) hcount
      omega
    right
    rw [ceilDiv_eq_div_add_one hmod hcount, Nat.add_assoc]
  · exact .inl rfl

/-- The **gaps** between spread indices, and from the last one to the size, are all the same but for
rounding. -/
theorem isChain_spread (size count : Nat) :
    (spread size count ++ [size]).IsChain fun index next =>
      next = index + size / count ∨ next = index + size ⌈/⌉ count := by
  rcases Nat.eq_zero_or_pos count with rfl | hcount
  · exact .singleton size
  · rw [spread_concat hcount, List.isChain_map, List.isChain_range_succ]
    exact fun slot _ => succ_mul_div hcount slot

/-- With no more indices than there are below the size, no gap is empty. -/
theorem pairwise_spread_concat (hcount : 0 < count) (hle : count ≤ size) :
    (spread size count ++ [size]).Pairwise (· < ·) := by
  have hdown : 0 < size / count := Nat.div_pos hle hcount
  have hup : size / count ≤ size ⌈/⌉ count := by
    rw [Nat.ceilDiv_eq_add_pred_div]
    exact Nat.div_le_div_right (by omega)
  rw [← List.isChain_iff_pairwise]
  refine (isChain_spread size count).imp fun index next hgap => ?_
  omega

/-- A list of indices **evenly spread** below `size`: in order, from zero on, and every gap, the one
behind the last index included, is the size divided by the number of indices, rounded down or up. -/
structure IsEvenlySpread (size : Nat) (chosen : List Nat) : Prop where
  increasing : chosen.Pairwise (· < ·)
  first : chosen ≠ [] → chosen.head? = some 0
  below : ∀ index ∈ chosen, index < size
  gaps : (chosen ++ [size]).IsChain fun index next =>
    next = index + size / chosen.length ∨ next = index + size ⌈/⌉ chosen.length

theorem isEvenlySpread_spread (hle : count ≤ size) : IsEvenlySpread size (spread size count) := by
  have hgaps := isChain_spread size count
  rcases Nat.eq_zero_or_pos count with rfl | hcount
  · exact ⟨.nil, absurd rfl, by simp [spread], by simpa using hgaps⟩
  · obtain ⟨hincreasing, -, hbelow⟩ :=
      List.pairwise_append.mp (pairwise_spread_concat hcount hle)
    refine ⟨hincreasing, fun _ => head?_spread hcount, fun index hindex => ?_, ?_⟩
    · exact hbelow index hindex size (List.mem_singleton_self size)
    · rwa [length_spread]

/-! ### Samples -/

/-- A sample is refused exactly if it would hold too many plans. -/
theorem sample_eq_error_iff {e : PlanError} :
    sample size limit = .error e ↔
      maxSample < sampleSize size limit ∧ e = .sampleTooLarge (sampleSize size limit) size := by
  simp only [sample]
  split_ifs with hlarge hall
  · simp [hlarge, eq_comm]
  · simp [hlarge]
  · simp [hlarge]

/-- A sample that is not refused holds spread plans. -/
theorem sample_eq_ok_iff :
    sample size limit = .ok chosen ↔
      sampleSize size limit ≤ maxSample ∧ chosen = spread size (sampleSize size limit) := by
  simp only [sample]
  split_ifs with hlarge hall
  · simp [hlarge]
  · rw [hall, spread_self]
    simp [hall ▸ Nat.le_of_not_lt hlarge, eq_comm]
  · simp [Nat.le_of_not_lt hlarge, eq_comm, spread]

/-- A sample holds as many plans as are counted without it. -/
theorem length_sample (h : sample size limit = .ok chosen) :
    chosen.length = sampleSize size limit := by
  obtain ⟨-, rfl⟩ := sample_eq_ok_iff.mp h
  exact length_spread ..

theorem isEvenlySpread_sample (h : sample size limit = .ok chosen) :
    IsEvenlySpread size chosen := by
  obtain ⟨-, rfl⟩ := sample_eq_ok_iff.mp h
  exact isEvenlySpread_spread (sampleSize_le size limit)

theorem sampleSize_pos (hsize : 0 < size) (limit : Nat) : 0 < sampleSize size limit := by
  rw [sampleSize]
  split <;> omega

/-- A sample of any plans at all holds the first one. -/
theorem zero_mem_sample (h : sample size limit = .ok chosen) (hsize : 0 < size) :
    0 ∈ chosen := by
  obtain ⟨-, rfl⟩ := sample_eq_ok_iff.mp h
  exact List.mem_of_head? (head?_spread (sampleSize_pos hsize limit))

/-- A limit that is not too large leads to a sample. -/
theorem exists_sample_eq_ok (hlimit : limit ≠ 0) (hlarge : limit ≤ maxSample) (size : Nat) :
    ∃ chosen, sample size limit = .ok chosen := by
  have hcount : sampleSize size limit ≤ limit := by
    rw [sampleSize, if_neg hlimit]
    exact Nat.min_le_right ..
  exact ⟨_, sample_eq_ok_iff.mpr ⟨hcount.trans hlarge, rfl⟩⟩

/-! ### Samples in words -/

/-- Why a computation in words stops. -/
inductive Halt (ε : Type) where
  /-- A step has no result, or none that fits its word. -/
  | overflow
  /-- The computation itself fails. -/
  | failed (e : ε)
deriving DecidableEq, Repr

/-- The same reason, as a reason of something larger. -/
def Halt.map {ε ε' : Type} (f : ε → ε') : Halt ε → Halt ε'
  | .overflow => .overflow
  | .failed e => .failed (f e)

/-- A number in a word of so many bits. -/
def inWord {ε : Type} (bits n : Nat) : Except (Halt ε) Nat :=
  if n < 2 ^ bits then .ok n else .error .overflow

/-- The plan that a sample of `count` out of `size` plans takes for a slot. The product is in a word
of 128 bits, the quotient in one of 64. -/
def placeInWords (size count slot : Nat) : Except (Halt PlanError) Nat := do
  let product ← inWord 128 (slot * size)
  if count = 0 then .error .overflow else inWord 64 (product / count)

/-- A sample, with all numbers in words. -/
def sampleInWords (size limit : Nat) : Except (Halt PlanError) (List Nat) :=
  let count := sampleSize size limit
  if maxSample < count then .error (.failed (.sampleTooLarge count size))
  else if count = size then .ok (List.range size)
  else (List.range count).mapM (placeInWords size count)

theorem inWord_eq_ok {ε : Type} {bits n : Nat} (h : n < 2 ^ bits) :
    (inWord bits n : Except (Halt ε) Nat) = .ok n := if_pos h

/-- The product of a slot and the size fits 128 bits, and the place below the size fits 64. -/
theorem placeInWords_eq {slot : Nat} (hsize : size ≤ maxCount) (hcount : count ≤ maxSample)
    (hslot : slot < count) :
    placeInWords size count slot = .ok (slot * size / count) := by
  have hword : size < 2 ^ 64 := hsize.trans_lt (by decide)
  have hproduct : slot * size < 2 ^ 128 :=
    calc slot * size ≤ maxSample * maxCount := Nat.mul_le_mul (hslot.le.trans hcount) hsize
      _ < 2 ^ 128 := by decide
  have hplace : slot * size / count < 2 ^ 64 := by
    refine (Nat.div_le_of_le_mul ?_).trans_lt hword
    exact Nat.mul_le_mul_right size hslot.le
  have hpos : count ≠ 0 := by omega
  rw [placeInWords, inWord_eq_ok hproduct]
  simp only [bind, Except.bind, hpos, if_false]
  exact inWord_eq_ok hplace

/-- Of a number of plans in a word, a sample is the same in words: **no step overflows**. -/
theorem sampleInWords_eq (hsize : size ≤ maxCount) (limit : Nat) :
    sampleInWords size limit = (sample size limit).mapError .failed := by
  simp only [sampleInWords, sample]
  split_ifs with hlarge hall
  · rfl
  · rfl
  · exact mapM_eq_ok_map fun slot hslot =>
      placeInWords_eq hsize (Nat.le_of_not_lt hlarge) (List.mem_range.mp hslot)

/-- **Samples are evenly spread.** A sample is refused exactly if it would hold more than
`maxSample` plans. Else it holds as many as are counted without it, evenly spread below the size,
and these are all plans if the limit is not below the size or there is no limit. For a size in a
word of 64 bits no step overflows, the sample in words being the same. -/
theorem sample_isEvenlySpread (size limit : Nat) :
    (∀ e, sample size limit = .error e ↔
      maxSample < sampleSize size limit ∧ e = .sampleTooLarge (sampleSize size limit) size) ∧
    (sampleSize size limit ≤ maxSample → ∃ chosen, sample size limit = .ok chosen ∧
      chosen.length = sampleSize size limit ∧ IsEvenlySpread size chosen ∧
      (size ≤ limit ∨ limit = 0 → chosen = List.range size)) ∧
    (size ≤ maxCount → sampleInWords size limit = (sample size limit).mapError .failed) := by
  refine ⟨fun e => sample_eq_error_iff, fun hcount => ?_, fun hsize => sampleInWords_eq hsize limit⟩
  have hsample := sample_eq_ok_iff.mpr ⟨hcount, rfl⟩
  refine ⟨_, hsample, length_sample hsample, isEvenlySpread_sample hsample, fun hall => ?_⟩
  have hsize : sampleSize size limit = size := by
    rw [sampleSize]
    split <;> omega
  rw [hsize, spread_self]

/-- Three plans out of the largest number of plans, and all of them, which are too many. -/
theorem sample_isEvenlySpread_three :
    sample maxCount 3 = .ok [0, 6148914691236517205, 12297829382473034410] ∧
      IsEvenlySpread maxCount [0, 6148914691236517205, 12297829382473034410] ∧
      sampleInWords maxCount 3 = .ok [0, 6148914691236517205, 12297829382473034410] ∧
      sample maxCount 0 = .error (.sampleTooLarge maxCount maxCount) ∧
      ∃ chosen, sample 5 7 = .ok chosen ∧ chosen = List.range 5 := by
  obtain ⟨-, hspread, hwords⟩ := sample_isEvenlySpread maxCount 3
  have hthree : sample maxCount 3 = .ok [0, 6148914691236517205, 12297829382473034410] := rfl
  obtain ⟨chosen, hchosen, -, heven, -⟩ := hspread (by decide)
  obtain rfl := Except.ok.inj (hthree.symm.trans hchosen)
  obtain ⟨all, hall, -, -, hrange⟩ := (sample_isEvenlySpread 5 7).2.1 (by decide)
  refine ⟨hthree, heven, (hwords le_rfl).trans (congrArg _ hthree), ?_, all, hall,
    hrange (.inl (by decide))⟩
  exact ((sample_isEvenlySpread maxCount 0).1 _).mpr ⟨by decide, rfl⟩

end CallPlan
