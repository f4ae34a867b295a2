import GameBridge.Number.Binary64
import GameBridge.Number.Powers

/-!
# The shortest decimal text of a binary64 number

Among the decimals that round to a given value, the text shows one with the fewest digits, and of
those the one nearest to the value. The search is done in exact arithmetic: for one digit, two
digits and so on, the two neighbours of the value on the grid with that many digits are tried.

The written form is positional, with `.0` after an integer, for values whose point lies within or
near the digits, and scientific with a signed power otherwise.
-/

namespace GameBridge.Binary64

/-! ## Digits -/

/-- How many decimal digits a natural number has. -/
def decimalLength (n : Nat) : Nat := (Nat.toDigits 10 n).length

/-- Whether `digits * 10 ^ power` rounds to `x`, a positive value. -/
def roundsTo (x : Binary64) (digits : Nat) (power : Int) : Bool :=
  nearest? x.negative (digits * tenTo power.toNat) (tenTo (-power).toNat) == some x

/-- The value in units of `10 ^ power`, as numerator and denominator. -/
def decimalUnits (x : Binary64) (power : Int) : Nat × Nat :=
  (unitDen x.mantissa x.exponent * tenTo (-power).toNat,
    twoTo (-x.exponent).toNat * tenTo power.toNat)

/-- The power of ten of the first digit of a positive value. -/
def leadingPower (x : Binary64) : Int :=
  let (num, den) := x.decimalUnits 0
  if den ≤ num then (decimalLength (num / den) : Int) - 1
  else
    -- count the places by which the value has to be moved to reach one
    let places := (decimalLength ((den + num - 1) / num) : Int) - 1
    if den ≤ num * tenTo places.toNat then -places else -(places + 1)

/-- The decimal with `count` digits that rounds to `x` and is nearest to it, if there is one. -/
def candidate? (x : Binary64) (count : Nat) : Option (Nat × Int) :=
  let power := x.leadingPower - count + 1
  let (num, den) := x.decimalUnits power
  let below := num / den
  -- the two neighbours on the grid, the nearer one first
  let closer := roundDiv num den
  let other := if closer = below then below + 1 else below
  if x.roundsTo closer power then some (closer, power)
  else if x.roundsTo other power then some (other, power)
  else none

/-- The least `count` digits, of `fuel` further ones, that identify `x`. -/
def searchShortest (x : Binary64) : Nat → Nat → Nat × Int
  | 0, count => (x.candidate? count).getD (0, 0)
  | fuel + 1, count => (x.candidate? count).getD (searchShortest x fuel (count + 1))

/-- Takes trailing zeros off the digits, at most `fuel` of them. -/
def dropZeros : Nat → Nat → Int → Nat × Int
  | 0, digits, power => (digits, power)
  | fuel + 1, digits, power =>
    if digits ≠ 0 ∧ digits % 10 = 0 then dropZeros fuel (digits / 10) (power + 1)
    else (digits, power)

/-- The digits of the shortest decimal for a positive value, and the power of ten of the last. -/
def shortestDecimal (x : Binary64) : Nat × Int :=
  let (digits, power) := x.searchShortest 16 1
  dropZeros 20 digits power

/-! ## Written form -/

/-- Digits with the point where `point` digits stand before it, or in scientific form. -/
def renderDigits (digits : List Char) (point : Int) : List Char :=
  let count : Int := digits.length
  -- an integer: zeros fill the places up to the point
  if count ≤ point ∧ point ≤ 16 then
    digits ++ List.replicate (point - count).toNat '0' ++ ['.', '0']
  else if 0 < point ∧ point ≤ 16 then
    digits.take point.toNat ++ '.' :: digits.drop point.toNat
  -- a fraction: zeros fill the places after the point
  else if -5 < point ∧ point ≤ 0 then
    '0' :: '.' :: List.replicate (-point).toNat '0' ++ digits
  else
    let power := point - 1
    let sign := if power < 0 then '-' else '+'
    let fraction := if digits.length ≤ 1 then [] else '.' :: digits.drop 1
    digits.take 1 ++ fraction ++ 'e' :: sign :: Nat.toDigits 10 power.natAbs

/-- The shortest text of a value. -/
def chars (x : Binary64) : List Char :=
  let sign := if x.negative then ['-'] else []
  if x.mantissa = 0 then sign ++ ['0', '.', '0']
  else
    let (digits, power) := x.shortestDecimal
    let ds := Nat.toDigits 10 digits
    sign ++ renderDigits ds (ds.length + power)

/-- The shortest text of a value. -/
def text (x : Binary64) : String := String.ofList x.chars

end GameBridge.Binary64
