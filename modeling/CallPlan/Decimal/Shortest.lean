import CallPlan.Decimal.Binary

/-!
# The fewest digits that read back

A binary number stands for every real number that rounds to it: an interval around its value, which
contains its own ends exactly if the significand is even. The shortest decimal form of the number is
the decimal in that interval that lies on the coarsest grid `10 ^ k`, and among two of one grid the
one nearer to the value, the larger one if both are equally near.

All comparisons are made between natural numbers. If some point of a grid lies in the interval then
so does one of the value's two neighbours on that grid, so only these are tested.
-/

namespace CallPlan.Decimal

/-- The decimal `digits · 10 ^ exponent`. -/
structure Scaled where
  digits : Nat
  exponent : Int
deriving DecidableEq, Repr

/-- An interval and the value inside it, as multiples of one common unit. -/
structure Rounding where
  low : Nat
  value : Nat
  high : Nat
  closed : Bool

namespace Rounding

/-- Whether a multiple of the unit rounds to the value. -/
def covers (r : Rounding) (x : Nat) : Bool :=
  if r.closed then r.low ≤ x && x ≤ r.high else r.low < x && x < r.high

/-- The grid point in the interval that is nearest to the value, counted in steps of the grid, where
`step` is the width of one step in units. -/
def gridPoint? (r : Rounding) (step : Nat) : Option Nat :=
  let below := r.value / step
  let above := if r.value % step = 0 then below else below + 1
  match r.covers (below * step), r.covers (above * step) with
  | true, true =>
    -- of two points equally near, the larger one
    if r.value - below * step < above * step - r.value then some below else some above
  | true, false => some below
  | false, true => some above
  | false, false => none

end Rounding

namespace Dyadic

/-- The interval of a binary number in units of `2 ^ (exponent - 2) / 10 ^ places`. -/
def rounding (d : Dyadic) (places : Nat) : Rounding :=
  let scale := Nat.pow 10 places <<< (d.exponent - 2).toNat
  let four := 4 * d.significand
  { low := (four - if d.closeBelow then 1 else 2) * scale
    value := four * scale
    high := (four + 2) * scale
    closed := d.significand % 2 = 0 }

/-- The step of the grid `10 ^ k` in the units of `rounding`, `k + places` being `shift`. -/
def gridStep (d : Dyadic) (shift : Nat) : Nat :=
  Nat.pow 10 shift <<< (2 - d.exponent).toNat

/-- The first hit among the grids `10 ^ (fuel - places - 1)`, …, `10 ^ (-places)`. -/
def firstGridPoint (d : Dyadic) (r : Rounding) (places : Nat) : Nat → Option Scaled
  | 0 => none
  | fuel + 1 =>
    match r.gridPoint? (d.gridStep fuel) with
    | some digits => some ⟨digits, (fuel : Int) - places⟩
    | none => firstGridPoint d r places fuel

/-- The **shortest decimal** that reads back as the number. The finest grid that can be needed has
steps of `2 ^ (exponent - 2)` at most, the coarsest one reaches beyond the value. -/
def shortest (d : Dyadic) : Scaled :=
  let places := (2 - d.exponent).toNat
  let whole := d.significand <<< d.exponent.toNat
  let coarsest := (Nat.toDigits 10 whole).length
  (d.firstGridPoint (d.rounding places) places (places + coarsest + 1)).getD ⟨0, 0⟩

end Dyadic

end CallPlan.Decimal
