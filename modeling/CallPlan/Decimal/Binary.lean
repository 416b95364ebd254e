/-!
# Binary floating point numbers

A binary floating point number is held as the word of bits that encodes it, so that two numbers are
told apart exactly when their words differ. The word decodes into a sign and, for a finite number, a
whole significand and a power of two.
-/

namespace CallPlan.Decimal

/-- A number in the 32-bit binary format. -/
structure Binary32 where
  bits : UInt32
deriving DecidableEq, Repr

/-- A number in the 64-bit binary format. -/
structure Binary64 where
  bits : UInt64
deriving DecidableEq, Repr

/-- The shape of a binary format: how many bits the fraction and the exponent take. The sign takes
one more bit, in front. -/
structure BinaryShape where
  fractionBits : Nat
  exponentBits : Nat

/-- The shape of the 32-bit format. -/
def BinaryShape.single : BinaryShape := ⟨23, 8⟩

/-- The shape of the 64-bit format. -/
def BinaryShape.double : BinaryShape := ⟨52, 11⟩

/-- A positive number `significand · 2 ^ exponent`. Its lower neighbour is half as far away as its
upper one if `closeBelow`, which happens at the powers of two. -/
structure Dyadic where
  significand : Nat
  exponent : Int
  closeBelow : Bool
deriving Repr

/-- What a word of bits stands for. -/
inductive Magnitude where
  | notANumber
  | infinite
  | zero
  | positive (d : Dyadic)

/-- The sign and the magnitude that a word encodes in a format. -/
def BinaryShape.decode (shape : BinaryShape) (word : Nat) : Bool × Magnitude :=
  let fraction := word % (1 <<< shape.fractionBits)
  let biased := (word >>> shape.fractionBits) % (1 <<< shape.exponentBits)
  let negative := word.testBit (shape.fractionBits + shape.exponentBits)
  -- the exponent of the last place of the smallest numbers
  let lowest : Int := 2 - (1 <<< (shape.exponentBits - 1) : Nat) - shape.fractionBits
  let magnitude :=
    if biased = (1 <<< shape.exponentBits) - 1 then
      if fraction = 0 then .infinite else .notANumber
    else if biased = 0 then
      if fraction = 0 then .zero else .positive ⟨fraction, lowest, false⟩
    else
      .positive ⟨(1 <<< shape.fractionBits) + fraction, lowest + (biased - 1 : Nat),
        fraction = 0 && 1 < biased⟩
  (negative, magnitude)

/-- Sign and magnitude of a 32-bit number. -/
def Binary32.decode (x : Binary32) : Bool × Magnitude :=
  BinaryShape.single.decode x.bits.toNat

/-- Sign and magnitude of a 64-bit number. -/
def Binary64.decode (x : Binary64) : Bool × Magnitude :=
  BinaryShape.double.decode x.bits.toNat

/-- The 32-bit number zero. -/
def Binary32.zero : Binary32 := ⟨0⟩

/-- The 32-bit number one. -/
def Binary32.one : Binary32 := ⟨0x3F800000⟩

/-- The 32-bit number minus one. -/
def Binary32.minusOne : Binary32 := ⟨0xBF800000⟩

/-- The 64-bit number zero. -/
def Binary64.zero : Binary64 := ⟨0⟩

/-- The 64-bit number one. -/
def Binary64.one : Binary64 := ⟨0x3FF0000000000000⟩

/-- The 64-bit number minus one. -/
def Binary64.minusOne : Binary64 := ⟨0xBFF0000000000000⟩

end CallPlan.Decimal
