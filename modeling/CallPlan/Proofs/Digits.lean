import CallPlan.Proofs.Counting

/-!
# Choices as digits

The choices for independent slots are the digits of an index, where a slot counts as much as there
are combinations of the slots behind it: `sum_digitsOf` puts the index together again. Indices and
choices are in the same order, slots in front before slots behind (`digitsOf_lt_digitsOf`), and if
the product is not cut off, every combination of choices has exactly one index
(`existsUnique_digitsOf_eq`).
-/

namespace CallPlan

variable {i j : Nat} {ns : List Nat}

/-- The digits, each of them times the number of combinations behind its slot, add up to the index
as far as there are combinations. -/
theorem sum_digitsOf (index : Nat) (hpos : ∀ n ∈ ns, 0 < n) :
    ∑ slot ∈ Finset.range ns.length,
      (digitsOf index ns).getD slot 0 * (ns.drop (slot + 1)).prod = index % ns.prod := by
  induction ns with
  | nil => simp [Nat.mod_one]
  | cons n ns ih =>
    have hrest := ih fun m hm => hpos m (List.mem_cons_of_mem _ hm)
    rw [digitsOf_cons index hpos, List.length_cons, Finset.sum_range_succ']
    simp only [List.getD_cons_succ, List.getD_cons_zero, List.drop_succ_cons, List.drop_zero]
    calc _ = index % ns.prod + index / ns.prod % n * ns.prod := by rw [hrest]
      _ = index % ns.prod + ns.prod * (index / ns.prod % n) := by rw [Nat.mul_comm ns.prod]
      _ = index % (ns.prod * n) := Nat.mod_mul.symm
      _ = index % (n :: ns).prod := by rw [List.prod_cons, Nat.mul_comm]

/-- Of two numbers written with a last digit below `base`, the larger one is larger in front, or
else in the last digit. -/
theorem lt_or_eq_and_lt_of_add_mul_lt {base a b r s : Nat} (hr : s < base)
    (h : r + base * a < s + base * b) : a < b ∨ a = b ∧ r < s := by
  rcases Nat.lt_trichotomy a b with hab | rfl | hab
  · exact .inl hab
  · exact .inr ⟨rfl, Nat.lt_of_add_lt_add_right h⟩
  · have hmul : base * (b + 1) ≤ base * a := Nat.mul_le_mul_left _ hab
    rw [Nat.mul_succ] at hmul
    omega

/-- Choices come in the order of the indices, up to whole turns through all combinations. -/
theorem digitsOf_lt_digitsOf_of_mod (hpos : ∀ n ∈ ns, 0 < n) (h : i % ns.prod < j % ns.prod) :
    digitsOf i ns < digitsOf j ns := by
  induction ns with
  | nil => simp [Nat.mod_one] at h
  | cons n ns ih =>
    have hrest : ∀ m ∈ ns, 0 < m := fun m hm => hpos m (List.mem_cons_of_mem _ hm)
    have hlow : j % ns.prod < ns.prod := Nat.mod_lt _ (List.prod_pos hrest)
    rw [List.prod_cons, Nat.mul_comm, Nat.mod_mul, Nat.mod_mul] at h
    rw [digitsOf_cons i hpos, digitsOf_cons j hpos, List.cons_lt_cons_iff]
    exact (lt_or_eq_and_lt_of_add_mul_lt hlow h).imp_right fun ⟨hfront, hbehind⟩ =>
      ⟨hfront, ih hrest hbehind⟩

/-- Indices below the product and their choices are in the **same order**. -/
theorem digitsOf_lt_digitsOf (hij : i < j) (hj : j < productOf ns) :
    digitsOf i ns < digitsOf j ns := by
  have hprod := lt_prod_of_lt_productOf hj
  refine digitsOf_lt_digitsOf_of_mod (pos_of_lt_productOf hj) ?_
  rwa [Nat.mod_eq_of_lt (hij.trans hprod), Nat.mod_eq_of_lt hprod]

/-- Where the product is not cut off, every combination of choices is that of **one index**. -/
theorem existsUnique_digitsOf_eq (hprod : ns.prod ≤ maxCount) {digits : List Nat}
    (h : List.Forall₂ (· < ·) digits ns) :
    ∃! index, index < productOf ns ∧ digitsOf index ns = digits := by
  have hexact : productOf ns = ns.prod := by
    rw [productOf_eq_clamp_prod, clamp_eq_self hprod]
  obtain ⟨index, hindex, hdigits⟩ := exists_digitsOf_eq h
  rw [← hexact] at hindex
  refine ⟨index, ⟨hindex, hdigits⟩, ?_⟩
  rintro other ⟨hother, hsame⟩
  exact digitsOf_injective hother hindex (hsame.trans hdigits.symm)

/-- **Indices count through the combinations.** The number of combinations is the product of the
sizes, cut off at `maxCount`. The choices of an index below it are ones that the slots offer, one
for each slot; with the products of the sizes behind as weights they add up to the index, so smaller
indices have choices that come first, slot by slot from the front. If the product is not cut off,
every combination of choices has exactly one index. -/
theorem productOf_eq_and_digitsOf_lt_digitsOf (ns : List Nat) :
    productOf ns = min ns.prod maxCount ∧
    (∀ index < productOf ns,
      (digitsOf index ns).length = ns.length ∧
      List.Forall₂ (· < ·) (digitsOf index ns) ns ∧
      index = ∑ slot ∈ Finset.range ns.length,
        (digitsOf index ns).getD slot 0 * (ns.drop (slot + 1)).prod) ∧
    (∀ i j, i < j → j < productOf ns → digitsOf i ns < digitsOf j ns) ∧
    (ns.prod ≤ maxCount → ∀ digits, List.Forall₂ (· < ·) digits ns →
      ∃! index, index < productOf ns ∧ digitsOf index ns = digits) := by
  refine ⟨productOf_eq_clamp_prod ns, fun index hindex => ?_, fun _ _ => digitsOf_lt_digitsOf,
    fun hprod _ => existsUnique_digitsOf_eq hprod⟩
  have hpos := pos_of_lt_productOf hindex
  refine ⟨length_digitsOf index ns, digitsOf_lt index hpos, ?_⟩
  rw [sum_digitsOf index hpos, Nat.mod_eq_of_lt (lt_prod_of_lt_productOf hindex)]

/-- The last index of three slots with too many combinations, and the index of a combination of two
slots with few. -/
theorem productOf_eq_and_digitsOf_lt_digitsOf_last :
    productOf [2 ^ 40, 3, 2 ^ 40] = maxCount ∧
      digitsOf (maxCount - 1) [2 ^ 40, 3, 2 ^ 40] = [5592405, 0, 1099511627774] ∧
      maxCount - 1 = 5592405 * (3 * 2 ^ 40) + 0 * 2 ^ 40 + 1099511627774 ∧
      digitsOf (maxCount - 2) [2 ^ 40, 3, 2 ^ 40] < digitsOf (maxCount - 1) [2 ^ 40, 3, 2 ^ 40] ∧
      ∃! index, index < productOf [2, 3] ∧ digitsOf index [2, 3] = [1, 2] := by
  obtain ⟨hsize, hdigits, horder, -⟩ := productOf_eq_and_digitsOf_lt_digitsOf [2 ^ 40, 3, 2 ^ 40]
  have hcut : productOf [2 ^ 40, 3, 2 ^ 40] = maxCount := hsize.trans (by decide)
  have hlast : maxCount - 1 < productOf [2 ^ 40, 3, 2 ^ 40] := by
    rw [hcut]
    decide
  have hsplit : digitsOf (maxCount - 1) [2 ^ 40, 3, 2 ^ 40] = [5592405, 0, 1099511627774] := by
    decide
  obtain ⟨-, -, hsum⟩ := hdigits _ hlast
  rw [hsplit] at hsum
  refine ⟨hcut, hsplit, hsum.trans (by decide), horder _ _ (by decide) hlast, ?_⟩
  exact (productOf_eq_and_digitsOf_lt_digitsOf [2, 3]).2.2.2 (by decide) [1, 2] (by decide)

end CallPlan
