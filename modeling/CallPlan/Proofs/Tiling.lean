import CallPlan.Proofs.Counting

/-!
# Ranges laid end to end

Ranges **tile** the indices from `first` to `last` if each of them starts where the one in front of
it ends. Then every index between belongs to exactly one of them (`Tiling.existsUnique_owns`), and
lists of indices taken from one range after the other are in order if each of them is
(`Tiling.pairwise_flatten`).

The ranges of alternatives tile the indices below the size, also where they are empty or cut off,
and locating an index finds the alternative that owns it
(`IndexRanges.tiling_and_locate_eq_ok_iff`).
-/

namespace CallPlan

/-! ### Ranges of any kind -/

/-- Ranges that lie end to end from `first` to `last`; some may be empty. -/
inductive Tiling : Nat → Nat → List (Nat × Nat) → Prop
  | nil (index : Nat) : Tiling index index []
  | cons {start stop last : Nat} {ranges : List (Nat × Nat)} (h : start ≤ stop)
      (hrest : Tiling stop last ranges) : Tiling start last ((start, stop) :: ranges)

/-- The numbered range holds the index. -/
def Owns (ranges : List (Nat × Nat)) (child index : Nat) : Prop :=
  ∃ start stop, ranges[child]? = some (start, stop) ∧ index ∈ Set.Ico start stop

section

variable {start stop first last child index : Nat} {ranges : List (Nat × Nat)}

theorem not_owns_nil : ¬ Owns [] child index := by
  rintro ⟨start, stop, hrange, -⟩
  cases hrange

theorem owns_cons_zero : Owns ((start, stop) :: ranges) 0 index ↔ index ∈ Set.Ico start stop := by
  constructor
  · rintro ⟨_, _, hrange, hindex⟩
    obtain ⟨rfl, rfl⟩ := Prod.mk.inj (Option.some.inj hrange)
    exact hindex
  · intro hindex
    exact ⟨start, stop, rfl, hindex⟩

theorem owns_cons_succ :
    Owns ((start, stop) :: ranges) (child + 1) index ↔ Owns ranges child index := Iff.rfl

namespace Tiling

theorem le (h : Tiling first last ranges) : first ≤ last := by
  induction h with
  | nil index => exact le_rfl
  | cons hle _ ih => exact hle.trans ih

/-- Every range lies between the ends of the tiling. -/
theorem le_of_mem (h : Tiling first last ranges) {range : Nat × Nat} (hrange : range ∈ ranges) :
    first ≤ range.1 ∧ range.1 ≤ range.2 ∧ range.2 ≤ last := by
  induction h with
  | nil => cases hrange
  | @cons start stop last ranges hle hrest ih =>
    rcases List.mem_cons.mp hrange with rfl | hrange
    · exact ⟨le_rfl, hle, hrest.le⟩
    · obtain ⟨hstart, hwidth, hstop⟩ := ih hrange
      exact ⟨hle.trans hstart, hwidth, hstop⟩

/-- What a range holds lies between the ends of the tiling. -/
theorem mem_Ico_of_owns (h : Tiling first last ranges) (howns : Owns ranges child index) :
    index ∈ Set.Ico first last := by
  induction h generalizing child with
  | nil => exact absurd howns not_owns_nil
  | @cons start stop last ranges hle hrest ih =>
    have hlast := hrest.le
    cases child with
    | zero =>
      obtain ⟨hstart, hstop⟩ := owns_cons_zero.mp howns
      exact ⟨hstart, by omega⟩
    | succ child =>
      obtain ⟨hstop, hindex⟩ := ih (owns_cons_succ.mp howns)
      exact ⟨by omega, hindex⟩

/-- Every index between the ends belongs to exactly **one range**. -/
theorem existsUnique_owns (h : Tiling first last ranges) (hindex : index ∈ Set.Ico first last) :
    ∃! child, Owns ranges child index := by
  induction h with
  | nil => exact absurd hindex (by simp)
  | @cons start stop last ranges hle hrest ih =>
    obtain ⟨hstart, hlast⟩ := hindex
    by_cases hstop : index < stop
    · refine ⟨0, owns_cons_zero.mpr ⟨hstart, hstop⟩, fun other hother => ?_⟩
      -- the ranges behind start where the first one ends, which is beyond the index
      cases other with
      | zero => rfl
      | succ other =>
        have hbehind := (hrest.mem_Ico_of_owns (owns_cons_succ.mp hother)).1
        omega
    · obtain ⟨child, howns, hunique⟩ := ih ⟨Nat.le_of_not_lt hstop, hlast⟩
      refine ⟨child + 1, howns, fun other hother => ?_⟩
      cases other with
      | zero => exact absurd (owns_cons_zero.mp hother).2 hstop
      | succ other => exact congrArg (· + 1) (hunique other hother)

/-- Lists from one range after the other are in order if each of them is. -/
theorem pairwise_flatten {parts : List (List Nat)} (h : Tiling first last ranges)
    (hparts : List.Forall₂ (fun range part => part.Pairwise (· < ·) ∧
      ∀ index ∈ part, index ∈ Set.Ico range.1 range.2) ranges parts) :
    parts.flatten.Pairwise (· < ·) ∧ ∀ index ∈ parts.flatten, index ∈ Set.Ico first last := by
  induction h generalizing parts with
  | nil =>
    cases hparts
    simp
  | @cons start stop last ranges hle hrest ih =>
    obtain ⟨part, rest, ⟨hpart, hin⟩, hrests, rfl⟩ := List.forall₂_cons_left_iff.mp hparts
    obtain ⟨hflat, hbehind⟩ := ih hrests
    have hlast := hrest.le
    rw [List.flatten_cons, List.pairwise_append]
    refine ⟨⟨hpart, hflat, fun i hi j hj => ?_⟩, fun index hindex => ?_⟩
    · exact (hin i hi).2.trans_le (hbehind j hj).1
    · rcases List.mem_append.mp hindex with hindex | hindex
      · exact ⟨(hin index hindex).1, (hin index hindex).2.trans_le hlast⟩
      · exact ⟨hle.trans (hbehind index hindex).1, (hbehind index hindex).2⟩

end Tiling

end

/-! ### Ranges of alternatives -/

namespace IndexRanges

/-- From wherever the first range starts, the ranges reach as far as the sizes do. -/
theorem tiling_zip_endsFrom {first : Nat} (ns : List Nat) (hfirst : first ≤ maxCount) :
    Tiling first (clamp (first + ns.sum))
      ((first :: endsFrom first ns).zip (endsFrom first ns)) := by
  induction ns generalizing first with
  | nil =>
    rw [List.sum_nil, Nat.add_zero, clamp_eq_self hfirst]
    exact .nil first
  | cons n ns ih =>
    have hstart : first ≤ clamp (first + n) :=
      calc first = clamp first := (clamp_eq_self hfirst).symm
        _ ≤ clamp (first + n) := clamp_mono (Nat.le_add_right ..)
    have hrest := ih (clamp_le_maxCount (first + n))
    rw [clamp_clamp_add, Nat.add_assoc] at hrest
    rw [endsFrom, List.zip_cons_cons, List.sum_cons]
    exact .cons hstart hrest

/-- The ranges **tile** the indices below the size. -/
theorem tiling_ranges (r : IndexRanges) : Tiling 0 r.size r.ranges := by
  have h := tiling_zip_endsFrom r.sizes (Nat.zero_le maxCount)
  rwa [Nat.zero_add, ← size_eq_clamp_sum] at h

theorem overflowsFrom_iff {first : Nat} {ns : List Nat} (hfirst : first ≤ maxCount) :
    overflowsFrom first ns = true ↔ maxCount < first + ns.sum := by
  induction ns generalizing first with
  | nil =>
    rw [List.sum_nil]
    simpa [overflowsFrom] using hfirst
  | cons n ns ih =>
    rw [overflowsFrom, Bool.or_eq_true, decide_eq_true_iff, ih (clamp_le_maxCount _), List.sum_cons]
    simp only [clamp]
    omega

/-- Ranges are cut off exactly if there are more indices than can be told apart. -/
theorem overflows_iff (r : IndexRanges) : r.overflows = true ↔ maxCount < r.sizes.sum := by
  rw [overflows, overflowsFrom_iff (Nat.zero_le _), Nat.zero_add]

/-- An index is located in the range that holds it, counted from where the range starts. -/
theorem locate_eq_ok_iff_ranges (r : IndexRanges) {index child offset : Nat} :
    r.locate index = .ok (child, offset) ↔
      index < r.size ∧ ∃ start stop, r.ranges[child]? = some (start, stop) ∧
        start + offset = index ∧ index ∈ Set.Ico start stop := by
  rw [r.locate_eq_ok_iff]
  constructor
  · rintro ⟨hchild, hindex, hstop⟩
    have hrange := r.getElem?_ranges hchild
    have hmem : index ∈ Set.Ico (r.start child) (r.start (child + 1)) := ⟨by omega, hstop⟩
    have hsize := (r.tiling_ranges.mem_Ico_of_owns ⟨_, _, hrange, hmem⟩).2
    exact ⟨hsize, _, _, hrange, hindex, hmem⟩
  · rintro ⟨-, start, stop, hrange, hindex, hmem⟩
    have hchild : child < r.sizes.length := by
      have hlength := (List.getElem?_eq_some_iff.mp hrange).1
      rwa [length_ranges] at hlength
    rw [r.getElem?_ranges hchild] at hrange
    obtain ⟨rfl, rfl⟩ := Prod.mk.inj (Option.some.inj hrange)
    exact ⟨hchild, hindex, hmem.2⟩

/-- **Alternatives share out the indices.** The size is the sum of all sizes, cut off at `maxCount`,
and the ranges, one for each alternative, tile the indices below it; they are cut off exactly if the
sum goes beyond. An index below the size belongs to exactly one range, and it is located there: the
offset counts from the start of the range and lies inside the alternative. So nothing is ever
located in an empty range, and nothing at all at the size or beyond it. -/
theorem tiling_and_locate_eq_ok_iff (r : IndexRanges) :
    r.size = min r.sizes.sum maxCount ∧
    (r.overflows = true ↔ maxCount < r.sizes.sum) ∧
    r.ranges.length = r.sizes.length ∧ Tiling 0 r.size r.ranges ∧
    (∀ index child offset, r.locate index = .ok (child, offset) ↔
      index < r.size ∧ ∃ start stop, r.ranges[child]? = some (start, stop) ∧
        start + offset = index ∧ index ∈ Set.Ico start stop) ∧
    (∀ index child offset, r.locate index = .ok (child, offset) →
      ∃ n, r.sizes[child]? = some n ∧ offset < n) ∧
    (∀ index < r.size, ∃! child, Owns r.ranges child index) ∧
    (∀ child start, r.ranges[child]? = some (start, start) →
      ∀ index offset, r.locate index ≠ .ok (child, offset)) ∧
    ∀ index, r.size ≤ index → r.locate index = .error (.indexOutOfRange index r.size) := by
  refine ⟨r.size_eq_clamp_sum, r.overflows_iff, r.length_ranges, r.tiling_ranges,
    fun _ _ _ => r.locate_eq_ok_iff_ranges, fun _ _ _ => r.offset_lt_of_locate, ?_, ?_,
    fun _ => r.locate_of_size_le⟩
  · intro index hindex
    exact r.tiling_ranges.existsUnique_owns ⟨Nat.zero_le _, hindex⟩
  · intro child start hempty index offset hlocate
    obtain ⟨-, _, _, hrange, -, hmem⟩ := r.locate_eq_ok_iff_ranges.mp hlocate
    rw [hempty] at hrange
    obtain ⟨rfl, rfl⟩ := Prod.mk.inj (Option.some.inj hrange)
    exact (Set.Ico_self start ▸ hmem).elim

/-- Four alternatives, the second one empty, the third one too large, and no index left for the
last one. -/
def crowded : IndexRanges := ⟨[3, 0, maxCount, 2]⟩

/-- Behind the empty range the third one takes all indices that are left. -/
theorem tiling_and_locate_eq_ok_iff_crowded :
    crowded.size = maxCount ∧ crowded.overflows = true ∧
      crowded.ranges = [(0, 3), (3, 3), (3, maxCount), (maxCount, maxCount)] ∧
      crowded.locate 3 = .ok (2, 0) ∧ crowded.locate (maxCount - 1) = .ok (2, maxCount - 4) ∧
      (∃! child, Owns crowded.ranges child 3) ∧
      (∀ index offset, crowded.locate index ≠ .ok (1, offset)) ∧
      crowded.locate maxCount = .error (.indexOutOfRange maxCount maxCount) := by
  obtain ⟨-, hoverflows, -, -, hlocate, -, howner, hempty, hbeyond⟩ :=
    tiling_and_locate_eq_ok_iff crowded
  have hsize : crowded.size = maxCount := by decide
  have hranges : crowded.ranges = [(0, 3), (3, 3), (3, maxCount), (maxCount, maxCount)] := by decide
  refine ⟨hsize, hoverflows.mpr (by decide), hranges, ?_, ?_, howner 3 (by decide),
    hempty 1 3 (by decide), ?_⟩
  · exact (hlocate 3 2 0).mpr ⟨by decide, 3, maxCount, by decide, rfl, by decide⟩
  · exact (hlocate _ 2 _).mpr ⟨by decide, 3, maxCount, by decide, by decide, by decide⟩
  · rw [hbeyond maxCount hsize.le, hsize]

end IndexRanges

end CallPlan
