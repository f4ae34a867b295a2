import GameBridge.Number.Powers
import GameBridge.Number.Shortest
import GameBridge.Number.Wide

/-!
# Numbers with fifteen digits

A number that ends up where a text is expected is written with at most fifteen significant digits
and with at least one digit after the point. The digits are rounded from the first eighteen or
nineteen ones of `Wide.leadingDigits`, a five up. The form is positional for powers of ten from -4
to 14, and otherwise scientific with a power of at least two digits.
-/

namespace GameBridge.Binary64

/-- How many significant digits are kept. -/
def keptDigits : Nat := 15

/-- The first `count` of the digits of `n`, rounded by the digit after them, and the power of ten of
the last one. -/
def roundDigits (count n : Nat) (power : Int) : Nat × Int :=
  let excess := decimalLength n - count
  ((n / tenTo (excess - 1) + 5) / 10, power + excess)

/-- The digits that are kept of a positive value, without zeros at the end, and the power of ten of
the last one. -/
def roundedDecimal (x : Binary64) : Nat × Int :=
  let (n, power) := (Wide.ofBinary64 x).leadingDigits
  let (n, power) := roundDigits keptDigits n power
  dropZeros (keptDigits + 1) n power

/-- The digits of a power of ten, at least two. -/
def powerDigits (n : Nat) : List Char :=
  if n < 10 then '0' :: Nat.toDigits 10 n else Nat.toDigits 10 n

/-- Digits of which `point` stand before the point, with a digit on either side of it. -/
def placePoint (digits : List Char) (point : Int) : List Char :=
  let whole :=
    if point ≤ 0 then ['0']
    else digits.take point.toNat ++ List.replicate (point.toNat - digits.length) '0'
  let fraction := List.replicate (-point).toNat '0' ++ digits.drop point.toNat
  whole ++ '.' :: (if fraction = [] then ['0'] else fraction)

/-- A value with fifteen significant digits. A zero has no sign. -/
def roundedText (x : Binary64) : String :=
  if x.mantissa = 0 then "0.0"
  else
    let (n, power) := x.roundedDecimal
    let digits := Nat.toDigits 10 n
    let first := power + digits.length - 1
    let unsigned :=
      if -4 ≤ first ∧ first < keptDigits then placePoint digits (first + 1)
      else placePoint digits 1 ++ 'e' :: (if first < 0 then '-' else '+')
        :: powerDigits first.natAbs
    String.ofList (if x.negative then '-' :: unsigned else unsigned)

end GameBridge.Binary64
