import CallPlan.Enumeration.Counting
import Mathlib

/-!
# Sums and products of clamped counts

Counts are cut off at `maxCount` at every step, and still a sum or a product comes out as if it had
been cut off once, at the end (`IndexRanges.size_eq_clamp_sum`, `productOf_eq_clamp_prod`). The
splitting of indices does not suffer either: `IndexRanges.locate` takes every index below the size
to exactly one alternative and to an index inside it, and `digitsOf` tells indices below the product
apart, whether sizes were cut off or not.
-/

namespace CallPlan

/-! ### Clamping -/

theorem maxCount_pos : 0 < maxCount := by decide

@[simp]
theorem clamp_zero : clamp 0 = 0 := rfl

@[simp]
theorem clamp_one : clamp 1 = 1 := clamp_eq_self maxCount_pos

@[simp]
theorem clamp_clamp (n : Nat) : clamp (clamp n) = clamp n := clamp_eq_self (clamp_le_maxCount n)

@[simp]
theorem clamp_clamp_add (m n : Nat) : clamp (clamp m + n) = clamp (m + n) := by
  simp only [clamp]
  omega

@[simp]
theorem clamp_add_clamp (m n : Nat) : clamp (m + clamp n) = clamp (m + n) := by
  rw [Nat.add_comm, clamp_clamp_add, Nat.add_comm]

/-- A factor that was cut off leads to a product that is cut off, unless the other one is zero. -/
@[simp]
theorem clamp_clamp_mul (m n : Nat) : clamp (clamp m * n) = clamp (m * n) := by
  rcases Nat.eq_zero_or_pos n with rfl | hn
  · rfl
  · rcases Nat.le_total m maxCount with hm | hm
    · rw [clamp_eq_self hm]
    · have hcut : maxCount ≤ maxCount * n := Nat.le_mul_of_pos_right _ hn
      have hexact : maxCount ≤ m * n := hm.trans (Nat.le_mul_of_pos_right _ hn)
      rw [clamp_of_maxCount_le hm, clamp_of_maxCount_le hcut, clamp_of_maxCount_le hexact]

@[simp]
theorem clamp_mul_clamp (m n : Nat) : clamp (m * clamp n) = clamp (m * n) := by
  rw [Nat.mul_comm, clamp_clamp_mul, Nat.mul_comm]

/-- A sum is the same when cut off, whether or not its parts were cut off before. -/
theorem clamp_sum_map_clamp (ns : List Nat) : clamp (ns.map clamp).sum = clamp ns.sum := by
  induction ns with
  | nil => rfl
  | cons n ns ih =>
    rw [List.map_cons, List.sum_cons, List.sum_cons, clamp_clamp_add, ← clamp_add_clamp, ih,
      clamp_add_clamp]

/-- A product is the same when cut off, whether or not its factors were cut off before. -/
theorem clamp_prod_map_clamp (ns : List Nat) : clamp (ns.map clamp).prod = clamp ns.prod := by
  induction ns with
  | nil => rfl
  | cons n ns ih =>
    rw [List.map_cons, List.prod_cons, List.prod_cons, clamp_clamp_mul, ← clamp_mul_clamp, ih,
      clamp_mul_clamp]

/-- A number of a list and all in front of it add up to no more than the list does. -/
theorem sum_take_add_le {ns : List Nat} {i n : Nat} (h : ns[i]? = some n) :
    (ns.take i).sum + n ≤ ns.sum := by
  obtain ⟨hi, hget⟩ := List.getElem?_eq_some_iff.mp h
  have hsplit := List.sum_take_add_sum_drop ns i
  rw [List.drop_eq_getElem_cons hi, List.sum_cons, hget] at hsplit
  omega

/-! ### Alternatives -/

namespace IndexRanges

/-- Where the range of a numbered alternative starts. The range ends where the next one starts. -/
def start (r : IndexRanges) (child : Nat) : Nat := clamp (r.sizes.take child).sum

/-- A range ends where the sizes up to it add up to, cut off. -/
theorem getElem?_endsFrom (first child : Nat) (ns : List Nat) :
    (endsFrom first ns)[child]? =
      if child < ns.length then some (clamp (first + (ns.take (child + 1)).sum)) else none := by
  induction ns generalizing first child with
  | nil => simp [endsFrom]
  | cons n ns ih =>
    cases child with
    | zero => simp [endsFrom]
    | succ child =>
      rw [endsFrom, List.getElem?_cons_succ, ih]
      simp [Nat.add_assoc]

theorem getLast?_endsFrom (first : Nat) (ns : List Nat) :
    (endsFrom first ns).getLast?.getD (clamp first) = clamp (first + ns.sum) := by
  induction ns generalizing first with
  | nil => rfl
  | cons n ns ih =>
    have h := ih (clamp (first + n))
    rw [clamp_clamp, clamp_clamp_add] at h
    rw [endsFrom, List.getLast?_cons, Option.getD_some, h, List.sum_cons, Nat.add_assoc]

/-- The size is the sum of the sizes, cut off once. -/
theorem size_eq_clamp_sum (r : IndexRanges) : r.size = clamp r.sizes.sum := by
  have h := getLast?_endsFrom 0 r.sizes
  rwa [clamp_zero, Nat.zero_add] at h

/-- Every alternative has the range from its start to the start of the next one. -/
theorem getElem?_ranges (r : IndexRanges) {child : Nat} (h : child < r.sizes.length) :
    r.ranges[child]? = some (r.start child, r.start (child + 1)) := by
  have hstop : r.ends[child]? = some (r.start (child + 1)) := by
    rw [ends, getElem?_endsFrom, if_pos h, Nat.zero_add, start]
  have hstart : (0 :: r.ends)[child]? = some (r.start child) := by
    cases child with
    | zero => simp [start]
    | succ child =>
      rw [List.getElem?_cons_succ, ends, getElem?_endsFrom, if_pos (by omega), Nat.zero_add, start]
  rw [ranges, List.getElem?_zip_eq_some]
  exact ⟨hstart, hstop⟩

/-- A range starts where the one in front of it ends. -/
theorem start_succ (r : IndexRanges) {child n : Nat} (h : r.sizes[child]? = some n) :
    r.start (child + 1) = clamp ((r.sizes.take child).sum + n) := by
  rw [start, List.take_add_one, h, List.sum_append, Option.toList_some, List.sum_singleton]

/-- The width of a range is the size of its alternative as far as the sizes in front leave room. -/
theorem start_succ_sub_start (r : IndexRanges) {child n : Nat} (h : r.sizes[child]? = some n) :
    r.start (child + 1) - r.start child = min n (maxCount - (r.sizes.take child).sum) := by
  rw [r.start_succ h, start]
  simp only [clamp]
  omega

/-- The alternative found is the one whose range, cut off, holds the index. -/
theorem locateFrom_eq_some_iff {first index child offset : Nat} {ns : List Nat}
    (hindex : first ≤ index) (hfirst : first ≤ maxCount) :
    locateFrom first index ns = some (child, offset) ↔
      child < ns.length ∧ clamp (first + (ns.take child).sum) + offset = index ∧
        index < clamp (first + (ns.take (child + 1)).sum) := by
  induction ns generalizing first child with
  | nil => simp [locateFrom]
  | cons n ns ih =>
    rw [locateFrom]
    split
    · rename_i hlt
      cases child with
      | zero =>
        simp only [Option.some.injEq, Prod.mk.injEq, true_and, List.length_cons, List.take_zero,
          List.sum_nil, Nat.add_zero, List.take_succ_cons, List.sum_cons, clamp_eq_self hfirst]
        omega
      | succ child =>
        -- the ranges behind start where the first one ends, which is beyond the index
        have hbehind : clamp (first + n) ≤ clamp (first + ((n :: ns).take (child + 1)).sum) :=
          clamp_mono (by simp)
        simp only [Option.some.injEq, Prod.mk.injEq, false_and, false_iff, reduceCtorEq]
        omega
    · rename_i hge
      -- the index is behind the first range, so the search goes on where that ends
      have hrest := @ih (clamp (first + n))
      cases child with
      | zero =>
        simp only [Option.map_eq_some_iff, Prod.mk.injEq, Nat.succ_ne_zero, false_and, and_false,
          exists_const, List.take_succ_cons, List.take_zero, List.sum_cons, List.sum_nil,
          Nat.add_zero, false_iff]
        omega
      | succ child =>
        have hstep : (locateFrom (clamp (first + n)) index ns).map
              (fun found => (found.1 + 1, found.2)) = some (child + 1, offset) ↔
            locateFrom (clamp (first + n)) index ns = some (child, offset) := by
          cases locateFrom (clamp (first + n)) index ns <;> simp [Prod.ext_iff]
        rw [hstep, hrest (Nat.le_of_not_lt hge) (clamp_le_maxCount _)]
        simp [Nat.add_assoc]

/-- Nothing is found exactly for indices beyond the size. -/
theorem locateFrom_eq_none_iff {first index : Nat} {ns : List Nat} (hindex : first ≤ index)
    (hfirst : first ≤ maxCount) :
    locateFrom first index ns = none ↔ clamp (first + ns.sum) ≤ index := by
  induction ns generalizing first with
  | nil => simp [locateFrom, clamp_eq_self hfirst, hindex]
  | cons n ns ih =>
    have hmono : clamp (first + n) ≤ clamp (first + (n :: ns).sum) := clamp_mono (by simp)
    rw [locateFrom]
    split
    · simp only [reduceCtorEq, false_iff]
      omega
    · rename_i hge
      rw [Option.map_eq_none_iff, ih (Nat.le_of_not_lt hge) (clamp_le_maxCount _)]
      simp [Nat.add_assoc]

/-- **Locating an index**: the range of the alternative holds the index, and the offset counts from
its start. -/
theorem locate_eq_ok_iff (r : IndexRanges) {index child offset : Nat} :
    r.locate index = .ok (child, offset) ↔
      child < r.sizes.length ∧ r.start child + offset = index ∧ index < r.start (child + 1) := by
  have h := @locateFrom_eq_some_iff 0 index child offset r.sizes (Nat.zero_le _) (Nat.zero_le _)
  rw [Nat.zero_add, Nat.zero_add] at h
  rw [start, start, ← h, locate]
  cases locateFrom 0 index r.sizes <;> simp

/-- Indices beyond the size are refused. -/
theorem locate_of_size_le (r : IndexRanges) {index : Nat} (h : r.size ≤ index) :
    r.locate index = .error (.indexOutOfRange index r.size) := by
  have hnone : locateFrom 0 index r.sizes = none := by
    rw [locateFrom_eq_none_iff (Nat.zero_le _) (Nat.zero_le _), Nat.zero_add,
      ← r.size_eq_clamp_sum]
    exact h
  rw [locate, hnone]

/-- Indices below the size are found. -/
theorem exists_locate (r : IndexRanges) {index : Nat} (h : index < r.size) :
    ∃ child offset, r.locate index = .ok (child, offset) := by
  rcases hfound : locateFrom 0 index r.sizes with _ | ⟨child, offset⟩
  · rw [locateFrom_eq_none_iff (Nat.zero_le _) (Nat.zero_le _), Nat.zero_add,
      ← r.size_eq_clamp_sum] at hfound
    exact absurd h (Nat.not_lt.mpr hfound)
  · exact ⟨child, offset, by rw [locate, hfound]⟩

/-- The offset lies inside the alternative, also where ranges are cut off. -/
theorem offset_lt_of_locate (r : IndexRanges) {index child offset : Nat}
    (h : r.locate index = .ok (child, offset)) : ∃ n, r.sizes[child]? = some n ∧ offset < n := by
  obtain ⟨hchild, hindex, hlt⟩ := r.locate_eq_ok_iff.mp h
  have hsize := List.getElem?_eq_getElem hchild
  have hwidth := r.start_succ_sub_start hsize
  exact ⟨_, hsize, by omega⟩

/-- No two indices are taken to the same place. -/
theorem locate_injective (r : IndexRanges) {i j : Nat} {found : Nat × Nat}
    (hi : r.locate i = .ok found) (hj : r.locate j = .ok found) : i = j := by
  obtain ⟨-, hi, -⟩ := r.locate_eq_ok_iff.mp hi
  obtain ⟨-, hj, -⟩ := r.locate_eq_ok_iff.mp hj
  omega

end IndexRanges

/-! ### Combinations -/

/-- The product is cut off once. -/
theorem productOf_eq_clamp_prod (ns : List Nat) : productOf ns = clamp ns.prod := by
  have hfold (total : Nat) (ns : List Nat) :
      ns.foldl (fun total n => clamp (total * n)) (clamp total) = clamp (total * ns.prod) := by
    induction ns generalizing total with
    | nil => simp
    | cons n ns ih => rw [List.foldl_cons, clamp_clamp_mul, ih, List.prod_cons, Nat.mul_assoc]
  rw [productOf, ← clamp_one, hfold, Nat.one_mul]

/-- Where there is an index, no slot is empty. -/
theorem pos_of_lt_productOf {index : Nat} {ns : List Nat} (h : index < productOf ns) :
    ∀ n ∈ ns, 0 < n := by
  intro n hn
  refine Nat.pos_of_ne_zero fun hzero => ?_
  rw [hzero] at hn
  rw [productOf_eq_clamp_prod, List.prod_eq_zero hn, clamp_zero] at h
  exact Nat.not_lt_zero _ h

theorem lt_prod_of_lt_productOf {index : Nat} {ns : List Nat} (h : index < productOf ns) :
    index < ns.prod :=
  Nat.lt_of_lt_of_le h (productOf_eq_clamp_prod ns ▸ clamp_le _)

/-- What is left of an index after its digits are taken off. -/
theorem snd_takeDigits {ns : List Nat} (index : Nat) (hpos : ∀ n ∈ ns, 0 < n) :
    (takeDigits index ns).2 = index / ns.prod := by
  induction ns with
  | nil => simp [takeDigits]
  | cons n ns ih =>
    have hn : n ≠ 0 := (hpos n List.mem_cons_self).ne'
    have hrest := ih fun m hm => hpos m (List.mem_cons_of_mem _ hm)
    rw [takeDigits]
    simp only [hn, if_false, hrest, List.prod_cons]
    rw [Nat.div_div_eq_div_mul, Nat.mul_comm]

/-- The choice for a slot depends on what the index holds beyond the slots behind it. -/
theorem digitsOf_cons {n : Nat} {ns : List Nat} (index : Nat) (hpos : ∀ m ∈ n :: ns, 0 < m) :
    digitsOf index (n :: ns) = index / ns.prod % n :: digitsOf index ns := by
  have hn : n ≠ 0 := (hpos n List.mem_cons_self).ne'
  have hrest := snd_takeDigits index fun m hm => hpos m (List.mem_cons_of_mem _ hm)
  simp only [digitsOf, takeDigits, hn, if_false, hrest]

/-- Every choice is one that the slot offers. -/
theorem digitsOf_lt {ns : List Nat} (index : Nat) (hpos : ∀ n ∈ ns, 0 < n) :
    List.Forall₂ (· < ·) (digitsOf index ns) ns := by
  induction ns with
  | nil => exact .nil
  | cons n ns ih =>
    rw [digitsOf_cons index hpos]
    exact .cons (Nat.mod_lt _ (hpos n List.mem_cons_self))
      (ih fun m hm => hpos m (List.mem_cons_of_mem _ hm))

/-- The digits tell an index up to multiples of the product of the sizes. -/
theorem mod_prod_eq_of_digitsOf_eq {i j : Nat} {ns : List Nat} (hpos : ∀ n ∈ ns, 0 < n)
    (h : digitsOf i ns = digitsOf j ns) : i % ns.prod = j % ns.prod := by
  induction ns with
  | nil => simp [Nat.mod_one]
  | cons n ns ih =>
    rw [digitsOf_cons i hpos, digitsOf_cons j hpos] at h
    obtain ⟨hdigit, hrest⟩ := List.cons.inj h
    have hlow := ih (fun m hm => hpos m (List.mem_cons_of_mem _ hm)) hrest
    rw [List.prod_cons, Nat.mul_comm, Nat.mod_mul, Nat.mod_mul, hlow, hdigit]

/-- Indices below the product are told apart by their choices. -/
theorem digitsOf_injective {i j : Nat} {ns : List Nat} (hi : i < productOf ns)
    (hj : j < productOf ns) (h : digitsOf i ns = digitsOf j ns) : i = j := by
  have hmod := mod_prod_eq_of_digitsOf_eq (pos_of_lt_productOf hi) h
  rwa [Nat.mod_eq_of_lt (lt_prod_of_lt_productOf hi),
    Nat.mod_eq_of_lt (lt_prod_of_lt_productOf hj)] at hmod

/-- Choices come again after as many indices as there are combinations. -/
theorem digitsOf_add_mul_prod {ns : List Nat} (index turns : Nat) (hpos : ∀ n ∈ ns, 0 < n) :
    digitsOf (index + turns * ns.prod) ns = digitsOf index ns := by
  induction ns generalizing turns with
  | nil => rfl
  | cons n ns ih =>
    have hrest : ∀ m ∈ ns, 0 < m := fun m hm => hpos m (List.mem_cons_of_mem _ hm)
    have hturns : turns * (n :: ns).prod = turns * n * ns.prod := by
      rw [List.prod_cons, Nat.mul_assoc]
    rw [hturns, digitsOf_cons _ hpos, digitsOf_cons _ hpos, ih _ hrest,
      Nat.add_mul_div_right _ _ (List.prod_pos hrest), Nat.add_mul_mod_self_right]

/-- Every combination of choices is that of an index. -/
theorem exists_digitsOf_eq {digits ns : List Nat} (h : List.Forall₂ (· < ·) digits ns) :
    ∃ index < ns.prod, digitsOf index ns = digits := by
  induction h with
  | nil => exact ⟨0, Nat.one_pos, rfl⟩
  | @cons digit n digits ns hdigit _ ih =>
    obtain ⟨index, hindex, rfl⟩ := ih
    have hrest : ∀ m ∈ ns, 0 < m := by
      intro m hm
      refine Nat.pos_of_ne_zero fun hzero => ?_
      rw [List.prod_eq_zero (hzero ▸ hm)] at hindex
      exact Nat.not_lt_zero _ hindex
    have hpos : ∀ m ∈ n :: ns, 0 < m :=
      List.forall_mem_cons.mpr ⟨Nat.zero_lt_of_lt hdigit, hrest⟩
    refine ⟨index + digit * ns.prod, ?_, ?_⟩
    · calc index + digit * ns.prod < ns.prod + digit * ns.prod := Nat.add_lt_add_right hindex _
        _ = (digit + 1) * ns.prod := by rw [Nat.succ_mul, Nat.add_comm]
        _ ≤ (n :: ns).prod := Nat.mul_le_mul_right _ hdigit
    · rw [digitsOf_cons _ hpos, digitsOf_add_mul_prod _ _ hrest,
        Nat.add_mul_div_right _ _ (List.prod_pos hrest), Nat.div_eq_of_lt hindex, Nat.zero_add,
        Nat.mod_eq_of_lt hdigit]

end CallPlan
