import CallPlan.Decimal.Shortest

/-!
# Decimal notation

The text of a floating point number: its shortest digits, laid out as a plain decimal fraction where
that is short enough, and with a power of ten elsewhere.
-/

namespace CallPlan.Decimal

/-- Where a decimal is written as a plain fraction, and how the special values read. -/
structure Layout where
  /-- Plain fractions start at this power of ten. -/
  lowestPlain : Int
  /-- Plain fractions end before this power of ten. -/
  endPlain : Int
  exponentMark : Char
  notANumber : String
  infinity : String

/-- Values are written as plain fractions from `0.0001` up to `1e16`. -/
def Layout.value : Layout := ⟨-4, 16, 'e', "NaN", "inf"⟩

namespace Layout

/-- A plain fraction. It has at least one digit on either side of the point. -/
def plain (digits : List Char) (exponent : Int) : List Char :=
  if 0 ≤ exponent then
    digits ++ List.replicate exponent.toNat '0' ++ ['.', '0']
  else
    let places := (-exponent).toNat
    let padded := digits.leftpad (places + 1) '0'
    padded.take (padded.length - places) ++ ['.'] ++ padded.drop (padded.length - places)

/-- One digit in front of the point and a power of ten behind the rest; no point without a digit
after it. -/
def scientific (mark : Char) (digits : List Char) (power : Int) : List Char :=
  let mantissa := match digits with
    | d :: e :: rest => d :: '.' :: e :: rest
    | short => short
  mantissa ++ [mark] ++ (toString power).toList

/-- A positive decimal. The power of ten of its first digit decides on the notation. -/
def scaled (layout : Layout) (d : Scaled) : List Char :=
  let digits := Nat.toDigits 10 d.digits
  let power := d.exponent + (digits.length - 1 : Nat)
  if layout.lowestPlain ≤ power ∧ power < layout.endPlain then plain digits d.exponent
  else scientific layout.exponentMark digits power

/-- The text of a number, given by its sign and magnitude. What is not a number has no sign. -/
def text (layout : Layout) : Bool × Magnitude → String
  | (_, .notANumber) => layout.notANumber
  | (negative, magnitude) =>
    let unsigned := match magnitude with
      | .notANumber => layout.notANumber
      | .infinite => layout.infinity
      | .zero => "0.0"
      | .positive d => String.ofList (layout.scaled d.shortest)
    if negative then "-" ++ unsigned else unsigned

end Layout

end CallPlan.Decimal
