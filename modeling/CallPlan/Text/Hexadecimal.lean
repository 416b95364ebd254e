/-!
# Hexadecimal numerals

Numbers in base sixteen with lower-case digits, as escapes and object handles are written.
-/

namespace CallPlan.Text

/-- The hexadecimal digits of `n`, without leading zeros. -/
def hexDigits (n : Nat) : List Char :=
  Nat.toDigits 16 n

/-- The hexadecimal digits of `n`, filled up with zeros to at least four. -/
def hexDigits4 (n : Nat) : List Char :=
  (hexDigits n).leftpad 4 '0'

/-- The value of a hexadecimal digit of either case. -/
def hexValue? (c : Char) : Option Nat :=
  if '0' ≤ c ∧ c ≤ '9' then some (c.toNat - '0'.toNat)
  else if 'a' ≤ c ∧ c ≤ 'f' then some (c.toNat - 'a'.toNat + 10)
  else if 'A' ≤ c ∧ c ≤ 'F' then some (c.toNat - 'A'.toNat + 10)
  else none

end CallPlan.Text
