import GameBridge.Number.Numeral
import GameBridge.Number.Powers

/-!
# Numbers with 64 significant bits

The database converts between decimal text and double precision values by way of numbers with 64
significant bits. A number is scaled by a power of ten in steps of a hundred, ten and one, and every
step is rounded to 64 bits, ties to the even mantissa. A conversion is therefore not always the
nearest one, and `Wide.scale` fixes which one it is.

Exponents have no limits here. Magnitudes only matter where a number becomes a double precision
value again.
-/

namespace GameBridge

/-- A positive number or zero, `mantissa * 2 ^ exponent`. -/
structure Wide where
  /-- The significant bits. -/
  mantissa : Nat
  /-- The power of two of the last bit. -/
  exponent : Int
deriving DecidableEq, Repr

namespace Wide

/-! ## Rounding -/

/-- How many significant bits there are. -/
def bits : Nat := 64

/-- The number nearest to `mantissa * 2 ^ exponent`. -/
def round (mantissa : Nat) (exponent : Int) : Wide :=
  let excess := mantissa.log2 + 1 - bits
  ⟨roundDiv mantissa (twoTo excess), exponent + excess⟩

/-- The number nearest to `1 / den`. -/
def ofInverse (den : Nat) : Wide :=
  let shift := den.log2 + bits
  -- the quotient has 64 bits, unless `den` is a power of two and it is exact with 65
  ⟨roundDiv (twoTo shift) den, -(shift : Int)⟩

/-- The rounded product. -/
def mul (a b : Wide) : Wide := round (a.mantissa * b.mantissa) (a.exponent + b.exponent)

/-- Whether a number is not above another. -/
def atMost (a b : Wide) : Bool :=
  a.mantissa * twoTo (a.exponent - b.exponent).toNat
    ≤ b.mantissa * twoTo (b.exponent - a.exponent).toNat

/-- The whole part. -/
def floor (x : Wide) : Nat := x.mantissa * twoTo x.exponent.toNat / twoTo (-x.exponent).toNat

/-! ## Scaling -/

/-- The rounded power `10 ^ n`. -/
def powerOfTen (n : Nat) : Wide := round (tenTo n) 0

/-- The rounded power `10 ^ (-n)`. -/
def inversePower (n : Nat) : Wide := ofInverse (tenTo n)

/-- Multiplies `count` times by a factor. -/
def mulTimes (factor : Wide) : Nat → Wide → Wide
  | 0, x => x
  | count + 1, x => mulTimes factor count (x.mul factor)

/-- Scales a number by `10 ^ power`, by hundreds, tens and ones. -/
def scale (x : Wide) (power : Int) : Wide :=
  let factor := if power < 0 then inversePower else powerOfTen
  let n := power.natAbs
  mulTimes (factor 1) (n % 10)
    (mulTimes (factor 10) (n % 100 / 10) (mulTimes (factor 100) (n / 100) x))

/-! ## Double precision values -/

/-- The magnitude of a double precision value. -/
def ofBinary64 (x : Binary64) : Wide := ⟨x.mantissa, x.exponent⟩

/-- The largest double precision value. -/
def largest : Wide := ⟨twoTo 53 - 1, 971⟩

/-- The double precision value nearest to a number with a sign; nothing if the number is larger
than all of them. -/
def toBinary64? (x : Wide) (negative : Bool) : Option Binary64 :=
  if x.atMost largest then
    Binary64.nearest? negative (x.mantissa * twoTo x.exponent.toNat) (twoTo (-x.exponent).toNat)
  else none

/-! ## Reading -/

/-- The least power to which no further digit is added. -/
def fullPower : Nat := 10000

/-- Adds a digit to the power of a numeral. A full power falls back to the least one. -/
def addPowerDigit : Numeral.PowerRule := fun power digit ↦
  if power < fullPower then 10 * power + digit else fullPower

/-- The least significand to which no further digit is added. -/
def fullSignificand : Nat := (UInt64.size - 10) / 10

/-- Takes digits off the end of a significand for as long as it is full without them. -/
def dropExcess (n : Nat) (power : Int) : Nat × Int :=
  if fullSignificand ≤ n / 10 then dropExcess (n / 10) (power + 1) else (n, power)
termination_by n
decreasing_by
  have : 0 < fullSignificand := by decide
  omega

/-- Brings a positive power of ten nearer to zero by adding at most `fuel` zeros to a significand
for which there is room. -/
def absorbPower : Nat → Nat → Int → Nat × Int
  | 0, n, power => (n, power)
  | fuel + 1, n, power =>
    if 0 < power ∧ n < (UInt64.size - 1) / 10 then absorbPower fuel (n * 10) (power - 1)
    else (n, power)

/-- Brings a negative power of ten nearer to zero by taking at most `fuel` zeros off. -/
def releasePower : Nat → Nat → Int → Nat × Int
  | 0, n, power => (n, power)
  | fuel + 1, n, power =>
    if power < 0 ∧ n % 10 = 0 then releasePower fuel (n / 10) (power + 1) else (n, power)

/-- The most zeros that a significand can gain or lose. -/
def maxZeros : Nat := 20

/-- The double precision value as which the database reads a numeral; nothing if it is too large.
Powers of ten that decide the outcome alone are not computed. -/
def read? (numeral : Numeral) : Option Binary64 :=
  if numeral.coefficient = 0 then some (.zero numeral.negative)
  else
    let (n, power) := dropExcess numeral.coefficient numeral.power
    -- a significand is less than `10 ^ 20`
    if 320 < power then none
    else if power < -360 then some (.zero numeral.negative)
    else
      let (n, power) := absorbPower maxZeros n power
      let (n, power) := releasePower maxZeros n power
      toBinary64? (scale ⟨n, 0⟩ power) numeral.negative

/-! ## Digits -/

/-- Multiplies by a factor for as long as a condition holds, at most `fuel` times, and counts the
times. -/
def mulWhile (condition : Wide → Bool) (factor : Wide) : Nat → Wide → Wide × Nat
  | 0, x => (x, 0)
  | fuel + 1, x =>
    if condition x then
      let (y, count) := mulWhile condition factor fuel (x.mul factor)
      (y, count + 1)
    else (x, 0)

/-- How often a double precision value can be scaled by the same power of ten. -/
def maxSteps : Nat := 20

/-- Scales a positive number down to less than `10 ^ 19`, and gives the power of ten taken out. -/
def shrink (x : Wide) : Wide × Int :=
  let (x, hundreds) := mulWhile (powerOfTen 119).atMost (inversePower 100) maxSteps x
  let (x, tens) := mulWhile (powerOfTen 29).atMost (inversePower 10) maxSteps x
  let (x, ones) := mulWhile (powerOfTen 19).atMost (inversePower 1) maxSteps x
  (x, 100 * hundreds + 10 * tens + ones)

/-- Scales a positive number up to at least `10 ^ 17`, and gives the power of ten taken out. -/
def grow (x : Wide) : Wide × Int :=
  let (x, hundreds) := mulWhile (!(inversePower 97).atMost ·) (powerOfTen 100) maxSteps x
  let (x, tens) := mulWhile (!(powerOfTen 7).atMost ·) (powerOfTen 10) maxSteps x
  let (x, ones) := mulWhile (!(powerOfTen 17).atMost ·) (powerOfTen 1) maxSteps x
  (x, -(100 * hundreds + 10 * tens + ones))

/-- The first eighteen or nineteen digits of a positive number, and the power of ten of the last
of them. -/
def leadingDigits (x : Wide) : Nat × Int :=
  let (y, power) := if (powerOfTen 19).atMost x then x.shrink else x.grow
  (y.floor, power)

end Wide

end GameBridge
