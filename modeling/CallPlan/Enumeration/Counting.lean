import CallPlan.Plan.Error

/-!
# Counting plans

Numbers of plans grow beyond all bounds, so they are kept up to `maxCount` and stay there. This
module holds the arithmetic on such counts: sums of alternatives with the range of indices that each
of them owns, and products of independent slots with the splitting of an index among them.
-/

namespace CallPlan

/-- The largest number of plans that is told apart from larger ones. -/
def maxCount : Nat := UInt64.size - 1

/-- A number of plans, cut off at `maxCount`. -/
def clamp (n : Nat) : Nat := min n maxCount

theorem clamp_le (n : Nat) : clamp n ≤ n := Nat.min_le_left ..

theorem clamp_le_maxCount (n : Nat) : clamp n ≤ maxCount := Nat.min_le_right ..

/-- Numbers up to `maxCount` are not cut off. -/
theorem clamp_eq_self {n : Nat} (h : n ≤ maxCount) : clamp n = n := Nat.min_eq_left h

theorem clamp_of_maxCount_le {n : Nat} (h : maxCount ≤ n) : clamp n = maxCount :=
  Nat.min_eq_right h

/-- Cutting off keeps the order. -/
theorem clamp_mono {m n : Nat} (h : m ≤ n) : clamp m ≤ clamp n := by
  simp only [clamp]; omega

/-! ### Alternatives -/

/-- Consecutive ranges of indices for alternatives of the given sizes. Where the sum reaches
`maxCount` the ranges are cut off. -/
structure IndexRanges where
  sizes : List Nat
deriving DecidableEq, Repr

namespace IndexRanges

/-- Where the ranges end, if the first one starts at `start`. -/
def endsFrom (start : Nat) : List Nat → List Nat
  | [] => []
  | n :: ns => clamp (start + n) :: endsFrom (clamp (start + n)) ns

/-- Whether some sum goes beyond `maxCount`, if the first range starts at `start`. -/
def overflowsFrom (start : Nat) : List Nat → Bool
  | [] => false
  | n :: ns => maxCount < start + n || overflowsFrom (clamp (start + n)) ns

/-- The alternative whose range holds an index, and the index inside it, if the first range starts
at `start`. -/
def locateFrom (start index : Nat) : List Nat → Option (Nat × Nat)
  | [] => none
  | n :: ns =>
    if index < clamp (start + n) then some (0, index - start)
    else (locateFrom (clamp (start + n)) index ns).map fun (child, offset) => (child + 1, offset)

/-- Where the ranges end. -/
def ends (r : IndexRanges) : List Nat := endsFrom 0 r.sizes

/-- The number of all indices. -/
def size (r : IndexRanges) : Nat := r.ends.getLast?.getD 0

/-- Whether some ranges are cut off. -/
def overflows (r : IndexRanges) : Bool := overflowsFrom 0 r.sizes

/-- Start and end of every range. -/
def ranges (r : IndexRanges) : List (Nat × Nat) := (0 :: r.ends).zip r.ends

/-- The alternative whose range holds an index, and the index inside it. -/
def locate (r : IndexRanges) (index : Nat) : Except PlanError (Nat × Nat) :=
  match locateFrom 0 index r.sizes with
  | some found => .ok found
  | none => .error (.indexOutOfRange index r.size)

@[simp]
theorem length_endsFrom (start : Nat) (ns : List Nat) :
    (endsFrom start ns).length = ns.length := by
  induction ns generalizing start with
  | nil => rfl
  | cons n ns ih => simp [endsFrom, ih]

/-- There is one end for each alternative. -/
@[simp]
theorem length_ends (r : IndexRanges) : r.ends.length = r.sizes.length :=
  length_endsFrom 0 r.sizes

/-- There is one range for each alternative. -/
@[simp]
theorem length_ranges (r : IndexRanges) : r.ranges.length = r.sizes.length := by
  simp [ranges]

end IndexRanges

/-! ### Combinations -/

/-- The number of ways to choose from independent slots. -/
def productOf (sizes : List Nat) : Nat :=
  sizes.foldl (fun total n => clamp (total * n)) 1

/-- Takes the choice for every slot off an index, the last slot first, and returns what is left.
Empty slots take nothing. -/
def takeDigits (index : Nat) : List Nat → List Nat × Nat
  | [] => ([], index)
  | n :: ns =>
    let (digits, rest) := takeDigits index ns
    if n = 0 then (0 :: digits, rest) else (rest % n :: digits, rest / n)

/-- The choice for every slot that an index stands for; the last slot changes fastest. -/
def digitsOf (index : Nat) (sizes : List Nat) : List Nat :=
  (takeDigits index sizes).1

/-- There is one digit for each size, however large the index is. -/
@[simp]
theorem length_digitsOf (index : Nat) (sizes : List Nat) :
    (digitsOf index sizes).length = sizes.length := by
  simp only [digitsOf]
  induction sizes with
  | nil => rfl
  | cons n ns ih => simp only [takeDigits]; split <;> simp [ih]

/-! ### Samples -/

/-- How many of `size` plans a sample takes under a limit; zero is no limit. -/
def sampleSize (size limit : Nat) : Nat :=
  if limit = 0 then size else min size limit

/-- No sample is larger than what it is taken from. -/
theorem sampleSize_le (size limit : Nat) : sampleSize size limit ≤ size := by
  simp only [sampleSize]; split <;> omega

/-- The indices of a sample of plans: all of them if the limit allows, and else as many as it
allows, evenly spread. -/
def sample (size limit : Nat) : Except PlanError (List Nat) :=
  let count := sampleSize size limit
  if maxSample < count then .error (.sampleTooLarge count size)
  else if count = size then .ok (List.range size)
  else .ok ((List.range count).map fun slot => slot * size / count)

end CallPlan
