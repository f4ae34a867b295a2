import GameBridge.Number.Powers

/-!
# Finite binary64 numbers

Stored numbers are read as IEEE 754 double precision values. A finite value is a sign, a mantissa
and an exponent of two, and rounding to the nearest value, ties to the even mantissa, is carried
out on natural numbers, so that nothing about it depends on the machine's arithmetic.

A value is a multiple of `2 ^ (-1074)`, has at most 53 significant bits and lies below
`2 ^ 1024`; larger magnitudes overflow.
-/

namespace GameBridge

/-! ## Rounding a quotient -/

/-- The quotient rounded to the nearest natural number, a tie to the even one. -/
def roundDiv (num den : Nat) : Nat :=
  let q := num / den
  let r := num % den
  if 2 * r < den then q
  else if den < 2 * r then q + 1
  else if q % 2 = 0 then q
  else q + 1

/-- A finite double precision value, `mantissa * 2 ^ exponent` with a sign. -/
structure Binary64 where
  /-- Whether the value carries a minus sign; zero can. -/
  negative : Bool
  /-- The significant bits. -/
  mantissa : Nat
  /-- The power of two of the last bit. -/
  exponent : Int
deriving DecidableEq, Repr

namespace Binary64

/-- The smallest exponent of a last bit. -/
def minExponent : Int := -1074

/-- The largest exponent of a last bit. -/
def maxExponent : Int := 971

/-- The numerator of `num / den` counted in units of `2 ^ e`. -/
def unitNum (num : Nat) (e : Int) : Nat := num * twoTo (-e).toNat

/-- The denominator of `num / den` counted in units of `2 ^ e`. -/
def unitDen (den : Nat) (e : Int) : Nat := den * twoTo e.toNat

/-- The exponent of the last bit for values around `num / den`: the least one, not below
`minExponent`, that leaves the quotient fewer than 54 bits. -/
def lastBit (num den : Nat) : Int :=
  let e := max minExponent ((num.log2 : Int) - den.log2 - 53)
  if unitNum num e < twoTo 53 * unitDen den e then e else e + 1

/-- The zero with the given sign. -/
def zero (negative : Bool) : Binary64 := ⟨negative, 0, 0⟩

/-- The value with the given mantissa and exponent, unless it is too large. A mantissa of 54 bits,
which rounding up can produce, is written with the next exponent. -/
def pack? (negative : Bool) (mantissa : Nat) (exponent : Int) : Option Binary64 :=
  let value : Binary64 :=
    if mantissa = twoTo 53 then ⟨negative, twoTo 52, exponent + 1⟩
    else ⟨negative, mantissa, exponent⟩
  if maxExponent < value.exponent then none else some value

/-- The value nearest to `num / den`, a tie to the even mantissa, or nothing if that overflows. -/
def nearest? (negative : Bool) (num den : Nat) : Option Binary64 :=
  if num = 0 then some (zero negative)
  else
    let e := lastBit num den
    pack? negative (roundDiv (unitNum num e) (unitDen den e)) e

/-- The value nearest to an integer. -/
def ofInt? (i : Int) : Option Binary64 := nearest? (decide (i < 0)) i.natAbs 1

/-! ## Products and quotients -/

/-- The rounded product. -/
def mul? (a b : Binary64) : Option Binary64 :=
  let e := a.exponent + b.exponent
  nearest? (a.negative != b.negative) (unitDen (a.mantissa * b.mantissa) e) (unitNum 1 e)

/-- The rounded quotient by a value that is not zero. -/
def div? (a b : Binary64) : Option Binary64 :=
  let e := a.exponent - b.exponent
  nearest? (a.negative != b.negative) (unitDen a.mantissa e) (unitNum b.mantissa e)

/-! ## Whole parts -/

/-- The magnitude without its fraction. -/
def wholePart (x : Binary64) : Nat := unitDen x.mantissa x.exponent / twoTo (-x.exponent).toNat

/-- The value cut towards zero, held within the 64-bit signed integers. -/
def toInt64 (x : Binary64) : Int64 :=
  Int64.ofIntClamp (if x.negative then -(x.wholePart : Int) else x.wholePart)

/-- The value cut towards zero, held within the 64-bit unsigned integers. -/
def toUInt64 (x : Binary64) : UInt64 :=
  if x.negative then 0 else UInt64.ofNatClamp x.wholePart

/-- Whether the value is an integer. -/
def isWhole (x : Binary64) : Bool :=
  unitDen x.mantissa x.exponent % twoTo (-x.exponent).toNat == 0

/-- Whether the value is the integer `i`. -/
def equalsInt (x : Binary64) (i : Int) : Bool :=
  x.isWhole && (if x.negative then -(x.wholePart : Int) else x.wholePart) == i

end Binary64

end GameBridge
