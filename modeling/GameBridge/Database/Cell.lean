import GameBridge.Failure
import GameBridge.Number.Numeral
import GameBridge.Number.Powers
import GameBridge.Number.Rounded
import GameBridge.Text.Decimal
import GameBridge.Text.Encoding

/-!
# Cells

A cell of the database holds a value of any kind, whatever its column is meant for. Columns only
have a preference: a column of integers turns a text that is a number into that number, and a
whole number into an integer, and a column of texts turns numbers into texts. What cannot be
converted without loss is stored as it is.

Cells are ordered by kind, numbers of both kinds together, and within a kind by value.
-/

namespace GameBridge.Database

/-- The content of a cell. -/
inductive Cell where
  /-- No value. -/
  | null
  /-- An integer. -/
  | integer (value : Int64)
  /-- A finite floating-point number. -/
  | real (value : Binary64)
  /-- A floating-point number beyond all finite ones. -/
  | infinite (negative : Bool)
  /-- A text. -/
  | text (value : String)
  /-- A sequence of bytes. -/
  | blob (value : List UInt8)
deriving DecidableEq, Repr

namespace Cell

/-- The kind of a cell. -/
def kind : Cell → CellKind
  | null => .null
  | integer _ => .integer
  | real _ => .real
  | infinite _ => .real
  | text _ => .text
  | blob _ => .blob

/-! ## Conversions -/

/-- A floating-point number in a column of integers: an integer if it is whole and lies strictly
between the least and the greatest 64-bit integer. -/
def ofReal (x : Binary64) : Cell :=
  let i : Int := if x.negative then -(x.wholePart : Int) else x.wholePart
  if x.isWhole = true ∧ Int64.minValue.toInt < i ∧ i < Int64.maxValue.toInt then
    integer (Int64.ofInt i)
  else real x

/-- Whether a character may surround a number that is written as a text. -/
def isPadding (c : Char) : Bool := c == ' ' || ('\t' ≤ c && c ≤ '\r')

/-- The characters of a text without padding. -/
def unpad (cs : List Char) : List Char :=
  ((cs.dropWhile isPadding).reverse.dropWhile isPadding).reverse

/-- A text in a column of integers: the number that it denotes, if it denotes one. -/
def ofNumeral (s : String) : Cell :=
  let cs := unpad s.toList
  match Decimal.readInt64? (String.ofList cs) with
  | some n => integer n
  | none =>
    match Numeral.read? Wide.addPowerDigit cs with
    | none => text s
    | some numeral =>
      match Wide.read? numeral with
      | some x => ofReal x
      | none => infinite numeral.negative

/-- What a column of integers stores. -/
def asInteger : Cell → Cell
  | real x => ofReal x
  | text s => ofNumeral s
  | cell => cell

/-- What a column of texts stores. -/
def asText : Cell → Cell
  | integer n => text (Decimal.ofInt64 n)
  | real x => text x.roundedText
  | infinite negative => text (if negative then "-Inf" else "Inf")
  | cell => cell

/-! ## Comparing -/

/-- Whether a cell holds the number `n`. -/
def isNumber (cell : Cell) (n : Int64) : Bool :=
  match cell with
  | integer m => m == n
  | real x => x.equalsInt n.toInt
  | _ => false

/-- The place of a kind in the order of cells. -/
def rank : Cell → Nat
  | null => 0
  | infinite true => 1
  | integer _ => 2
  | real _ => 2
  | infinite false => 3
  | text _ => 4
  | blob _ => 5

/-- A number in units of `2 ^ (-1074)`, of which all finite numbers are multiples. -/
def units : Cell → Int
  | integer n => n.toInt * twoTo 1074
  | real x =>
    let n : Int := x.mantissa * twoTo (x.exponent + 1074).toNat
    if x.negative then -n else n
  | _ => 0

/-- The bytes by which texts and sequences of bytes are compared. -/
def bytes : Cell → List UInt8
  | text s => Text.bytes s
  | blob b => b
  | _ => []

/-- Whether a cell does not come after another. -/
def atMost (a b : Cell) : Bool :=
  -- texts have no units, and numbers have no bytes
  if a.rank = b.rank then
    if a.units = b.units then decide (a.bytes ≤ b.bytes) else decide (a.units < b.units)
  else decide (a.rank < b.rank)

end Cell

end GameBridge.Database
