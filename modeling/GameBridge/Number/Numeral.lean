import GameBridge.Number.Binary64
import GameBridge.Number.Powers
import GameBridge.Text.Blank

/-!
# Decimal numerals

A numeral is a run of digits with an optional sign, an optional point anywhere among the digits
and an optional power of ten: `12`, `-1.5`, `.5`, `5.`, `+1e3`. At least one digit is needed before
the power. `Numeral.read?` accepts exactly these; words for infinities and for missing values are
not numerals.

The digits of a power are only counted up to a bound, so that a power of any length can be read. A
numeral with very many other digits may bring such a power back into range, and its value then
depends on the bound. Readers differ in it, hence it is a parameter of `Numeral.read?`.

`readFinite?` is how a stored number is read: the text is trimmed and the nearest double precision
value is taken, provided it is finite.
-/

namespace GameBridge

/-- A decimal numeral: the digits as one number, and the power of ten that scales it. -/
structure Numeral where
  /-- Whether the numeral has a minus sign. -/
  negative : Bool
  /-- All digits before the power, read without the point. -/
  coefficient : Nat
  /-- The power of ten. -/
  power : Int
deriving DecidableEq, Repr

namespace Numeral

/-- The digits at the front of a text. -/
def leadingDigits (cs : List Char) : List Char := cs.takeWhile Char.isDigit

/-- What follows the digits at the front. -/
def afterDigits (cs : List Char) : List Char := cs.dropWhile Char.isDigit

/-- The sign of a text, and the text after it. -/
def splitSign : List Char → Bool × List Char
  | '-' :: cs => (true, cs)
  | '+' :: cs => (false, cs)
  | cs => (false, cs)

/-- How a digit is added to the digits of a power that were read before it. -/
abbrev PowerRule := Nat → Nat → Nat

/-- The least power to which no further digit is added. -/
def fullPower : Nat := twoTo 16

/-- Adds a digit to a power, or ignores it if the power is full. -/
def addPowerDigit : PowerRule := fun power digit ↦
  if power < fullPower then 10 * power + digit else power

/-- The power of ten written at the end of a numeral: nothing, or `e` and a signed integer. -/
def readPower? (addDigit : PowerRule) : List Char → Option Int
  | [] => some 0
  | c :: cs =>
    if c = 'e' ∨ c = 'E' then
      let (negative, digits) := splitSign cs
      if digits ≠ [] ∧ digits.all Char.isDigit then
        let n := digits.foldl (fun power digit ↦ addDigit power (digit.toNat - '0'.toNat)) 0
        some (if negative then -(n : Int) else n)
      else none
    else none

/-- The digits after a point, and what follows them; there may be no point. -/
def splitFraction : List Char → List Char × List Char
  | '.' :: cs => (leadingDigits cs, afterDigits cs)
  | cs => ([], cs)

/-- Reads a numeral that fills the whole text. -/
def read? (addDigit : PowerRule) (cs : List Char) : Option Numeral :=
  let (negative, unsigned) := splitSign cs
  let whole := leadingDigits unsigned
  let (fraction, rest) := splitFraction (afterDigits unsigned)
  let digits := whole ++ fraction
  if digits = [] then none
  else (readPower? addDigit rest).map fun power ↦
    ⟨negative, Nat.ofDigitChars 10 digits 0, power - fraction.length⟩

/-- The double precision value nearest to the numeral, unless that is too large. Scales that are
certain to overflow or to vanish are decided without computing the power of ten. -/
def nearest? (n : Numeral) : Option Binary64 :=
  if n.coefficient = 0 then some (.zero n.negative)
  else if 0 ≤ n.power then
    -- even `1e310` is beyond all finite values
    if 310 ≤ n.power then none
    else Binary64.nearest? n.negative (n.coefficient * tenTo n.power.toNat) 1
  -- ten is more than `2 ^ 3`, so this is less than half of the least positive value
  else if (n.coefficient.log2 : Int) + 3 * n.power < -1077 then some (.zero n.negative)
  else Binary64.nearest? n.negative n.coefficient (tenTo (-n.power).toNat)

end Numeral

/-- The finite number that a stored text denotes, white space around it aside. -/
def readFinite? (s : String) : Option Binary64 :=
  (Numeral.read? Numeral.addPowerDigit (Text.trimChars s.toList)).bind Numeral.nearest?

end GameBridge
