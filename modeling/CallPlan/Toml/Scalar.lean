import CallPlan.Toml.Quoted
import CallPlan.Toml.Datum

/-!
# Numbers, truth values and points in time of TOML

These are written without quotes. Their text is cut out first, up to the first character that none
of them contains, and then read as a whole.
-/

namespace CallPlan.Toml

/-! ### Digits -/

/-- Digits with single underscores between them, as digits. -/
def digitRun? (isDigit : Char → Bool) (cs : List Char) : Option (List Char) :=
  let groups := cs.splitOn '_'
  if groups.all fun group => !group.isEmpty && group.all isDigit then some groups.flatten else none

/-- Takes the sign off, if there is one. -/
def takeSign : List Char → Option Char × List Char
  | '+' :: rest => (some '+', rest)
  | '-' :: rest => (some '-', rest)
  | cs => (none, cs)

/-- The digits of a whole decimal number, which does not start with a zero unless it is one. -/
def wholeDigits? (cs : List Char) : Option (List Char) := do
  let digits ← digitRun? Char.isDigit cs
  guard (digits.head? ≠ some '0' ∨ digits.length = 1)
  return digits

/-- The number that digits of a base spell. -/
def numberOf (base : Nat) (digits : List Char) : Nat :=
  digits.foldl (fun n c => base * n + (Text.hexValue? c).getD 0) 0

/-! ### Whole numbers -/

/-- Whole numbers have 64 bits. -/
def inRange (n : Int) : Bool := Int64.minValue.toInt ≤ n && n ≤ Int64.maxValue.toInt

/-- A whole number in base two, eight or sixteen, by the letter behind the leading zero. -/
def basedInteger? (letter : Char) (cs : List Char) : Option Int := do
  let base ← match letter with
    | 'x' => some 16
    | 'o' => some 8
    | 'b' => some 2
    | _ => none
  let digits ← digitRun? (fun c => (Text.hexValue? c).any (· < base)) cs
  return numberOf base digits

/-- A whole number. -/
def integer? (cs : List Char) : Option Int := do
  let n ← match cs with
    | '0' :: letter :: rest =>
      if letter.isAlpha then basedInteger? letter rest else none
    | _ =>
      let (sign, digits) := takeSign cs
      let n := numberOf 10 (← wholeDigits? digits)
      some (if sign = some '-' then -(n : Int) else n)
  guard (inRange n)
  return n

/-! ### Decimal numbers -/

/-- Whether `n · 10 ^ power` lies beyond all numbers of the 64-bit binary format. -/
def exceedsBinary64 (n : Nat) (power : Int) : Bool :=
  let limit := (1 <<< 1024) - (1 <<< 970)
  let size := (Nat.toDigits 10 n).length + power
  if n = 0 then false
  else if 400 < size then true
  else if size < 300 then false
  else limit * Nat.pow 10 (-power).toNat ≤ n * Nat.pow 10 power.toNat

/-- Whether the text is a number with a fraction or an exponent, or one of the special numbers. A
positive one must not be too large for the 64-bit binary format. -/
def isDecimal (cs : List Char) : Bool :=
  let (sign, unsigned) := takeSign cs
  if unsigned = ['i', 'n', 'f'] ∨ unsigned = ['n', 'a', 'n'] then true
  else
    -- fraction and exponent still have their marks in front
    let mantissa := unsigned.takeWhile fun c => c ≠ 'e' ∧ c ≠ 'E'
    let exponent := unsigned.drop mantissa.length
    let whole := mantissa.takeWhile (· ≠ '.')
    let fraction := mantissa.drop whole.length
    if exponent.isEmpty && fraction.isEmpty then false
    else
      let places := match fraction with
        | [] => some []
        | _ :: digits => digitRun? Char.isDigit digits
      let power : Option Int := match exponent with
        | [] => some 0
        | _ :: written =>
          let (sign, digits) := takeSign written
          (digitRun? Char.isDigit digits).map fun ds =>
            if sign = some '-' then -(numberOf 10 ds : Int) else numberOf 10 ds
      match wholeDigits? whole, places, power with
      | some ds, some fs, some p =>
        sign = some '-' || !exceedsBinary64 (numberOf 10 (ds ++ fs)) (p - fs.length)
      | _, _, _ => false

/-! ### Points in time -/

/-- A number of exactly `width` digits between `low` and `high`. -/
def isField (width low high : Nat) (cs : List Char) : Bool :=
  cs.length = width && cs.all Char.isDigit && low ≤ numberOf 10 cs && numberOf 10 cs ≤ high

/-- The number of days of a month. -/
def daysOf (year month : Nat) : Nat :=
  if month = 2 then
    if year % 4 = 0 ∧ (year % 100 ≠ 0 ∨ year % 400 = 0) then 29 else 28
  else if month = 4 ∨ month = 6 ∨ month = 9 ∨ month = 11 then 30
  else 31

/-- Whether the text is a date, as in `1979-05-27`. -/
def isDate (cs : List Char) : Bool :=
  match cs.splitOn '-' with
  | [year, month, day] =>
    isField 4 0 9999 year && isField 2 1 12 month &&
      isField 2 1 (daysOf (numberOf 10 year) (numberOf 10 month)) day
  | _ => false

/-- Whether the text is a time of the day, as in `07:32:00.5`. -/
def isClock (cs : List Char) : Bool :=
  let whole := cs.takeWhile (· ≠ '.')
  let fraction := cs.drop whole.length
  let fits := match fraction with
    | [] => true
    | _ :: digits => !digits.isEmpty && digits.all Char.isDigit
  match whole.splitOn ':' with
  | [hour, minute, second] =>
    -- a second may be a leap second
    isField 2 0 23 hour && isField 2 0 59 minute && isField 2 0 60 second && fits
  | _ => false

/-- Whether the text is a distance from universal time: `Z`, or hours and minutes. -/
def isOffset : List Char → Bool
  | ['Z'] | ['z'] => true
  | sign :: rest =>
    match rest.splitOn ':' with
    | [hour, minute] =>
      (sign = '+' || sign = '-') && isField 2 0 23 hour && isField 2 0 59 minute
    | _ => false
  | [] => false

/-- Whether the text is a time of the day, perhaps with a distance from universal time. -/
def isClockWithOffset (cs : List Char) : Bool :=
  let clock := cs.takeWhile fun c => c.isDigit || c = ':' || c = '.'
  let offset := cs.drop clock.length
  isClock clock && (offset.isEmpty || isOffset offset)

/-- Whether the text is a date, a time of the day, or both. -/
def isTime (cs : List Char) : Bool :=
  isClock cs ||
    (isDate (cs.take 10) &&
      match cs.drop 10 with
      | [] => true
      | mark :: rest => (mark = 'T' || mark = 't' || mark = ' ') && isClockWithOffset rest)

/-! ### Cutting out -/

/-- Whether some value without quotes contains the character. -/
def isScalarChar (c : Char) : Bool :=
  c.isAlphanum || c = '_' || c = '+' || c = '-' || c = '.' || c = ':'

/-- Whether the text is a date and goes on with a time of the day after a blank. -/
def hasClockBehind (cs rest : List Char) : Bool :=
  isDate cs && match rest with
    | ' ' :: c :: _ => c.isDigit
    | _ => false

/-- Cuts out the text of a value without quotes. -/
def cutScalar (cs : List Char) : List Char × List Char :=
  let word := cs.takeWhile isScalarChar
  let rest := cs.drop word.length
  if hasClockBehind word rest then
    let clock := (rest.drop 1).takeWhile isScalarChar
    (word ++ ' ' :: clock, rest.drop (1 + clock.length))
  else
    (word, rest)

/-- What a text without quotes stands for. -/
def scalarOf? (cs : List Char) : Option Datum :=
  if cs = "true".toList then some (.boolean true)
  else if cs = "false".toList then some (.boolean false)
  else match integer? cs with
    | some n => some (.integer n)
    | none =>
      if isDecimal cs then some (.decimal (String.ofList cs))
      else if isTime cs then some (.time (String.ofList cs))
      else none

/-- A value that is not made of others. -/
def scalar : Reader Datum := fun cs =>
  match cs with
  | '"' :: _ | '\'' :: _ => (anyText cs).map fun (s, rest) => (.text s, rest)
  | _ =>
    let (word, rest) := cutScalar cs
    (scalarOf? word).map fun v => (v, rest)

end CallPlan.Toml
