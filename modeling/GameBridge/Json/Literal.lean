import GameBridge.Number.Binary64
import GameBridge.Number.Powers

/-!
# Numbers as written in JSON

A number literal keeps its digits as they stand in the text. `Literal.number?` gives the number
it stands for: an integer if it is written without a fraction and a power and fits into 64 bits,
signed or unsigned, and otherwise a double precision value.

A floating-point literal is not rounded from its exact value. Its digits are read into a 64-bit
significand for as long as they fit, and the significand is scaled by a power of ten with one
rounding, so the result can differ from the nearest value in its last bits.
-/

namespace GameBridge.Json

/-- A decimal digit. -/
abbrev Digit := Fin 10

/-- A number literal. -/
structure Literal where
  /-- Whether there is a minus sign. -/
  negative : Bool
  /-- The digits before the point. -/
  whole : List Digit
  /-- The digits after the point; none if there is no point. -/
  fraction : List Digit
  /-- The sign and the digits of the power of ten, if one is written. -/
  power : Option (Bool × List Digit)
deriving DecidableEq, Repr

/-- An integer of at most 64 bits, signed or unsigned. -/
structure Integer where
  /-- The integer. -/
  val : Int
  /-- It is not below the least signed integer. -/
  lower : Int64.minValue.toInt ≤ val := by decide
  /-- It is not above the greatest unsigned integer. -/
  upper : val < UInt64.size := by decide
deriving DecidableEq, Repr

/-- The number that a literal stands for. -/
inductive Number where
  /-- An integer. -/
  | int (value : Integer)
  /-- A floating-point number. -/
  | float (value : Binary64)
deriving DecidableEq, Repr

namespace Integer

/-- The integer, if it has at most 64 bits. -/
def ofInt? (i : Int) : Option Integer :=
  if h : Int64.minValue.toInt ≤ i ∧ i < UInt64.size then some ⟨i, h.1, h.2⟩ else none

/-- A signed integer. -/
def ofInt64 (n : Int64) : Integer :=
  ⟨n.toInt, n.minValue_le_toInt, Int.lt_trans n.toInt_lt (by decide)⟩

/-- An unsigned integer. -/
def ofUInt64 (n : UInt64) : Integer :=
  ⟨n.toNat, Int.le_trans (by decide) (Int.natCast_nonneg _), Int.ofNat_lt.mpr n.toNat_lt_size⟩

@[simp] theorem val_ofInt64 (n : Int64) : (ofInt64 n).val = n.toInt := rfl

@[simp] theorem val_ofUInt64 (n : UInt64) : (ofUInt64 n).val = n.toNat := rfl

end Integer

namespace Literal

/-- Whether the literal is written without a fraction and without a power. -/
def isPlain (l : Literal) : Bool := l.fraction.isEmpty && l.power.isNone

/-- The number that digits denote. -/
def ofDigits (digits : List Digit) : Nat := digits.foldl (fun n d ↦ n * 10 + d.val) 0

/-! ## The significand -/

/-- Appends digits to a significand for as long as it fits into 64 bits, and gives the digits that
are left over. -/
def absorb (n : Nat) : List Digit → Nat × List Digit
  | [] => (n, [])
  | d :: rest =>
    if n * 10 + d.val < UInt64.size then absorb (n * 10 + d.val) rest else (n, d :: rest)

/-- The significand before scaling, and the power of ten that belongs to its last digit. Digits
left over before the point each add one to the power. -/
def significand (l : Literal) : Nat × Int :=
  let (whole, dropped) := absorb 0 l.whole
  -- digits left over after the point are forgotten
  let (all, cut) := absorb whole l.fraction
  (all, (dropped.length : Int) - ((l.fraction.length - cut.length : Nat) : Int))

/-! ## Scaling -/

/-- The double precision value of a power of ten. -/
def powerOfTen? (n : Nat) : Option Binary64 := Binary64.nearest? false (tenTo n) 1

/-- The largest power of ten by which a value is scaled in one step. -/
def maxStep : Nat := 308

/-- Divides a value by `10 ^ n`, in steps of at most `maxStep`. -/
def scaleDown? (x : Binary64) (n : Nat) : Option Binary64 :=
  if n ≤ maxStep then (powerOfTen? n).bind x.div?
  else if x.mantissa = 0 then some x
  else (powerOfTen? maxStep).bind x.div? |>.bind fun y ↦ scaleDown? y (n - maxStep)
termination_by n
decreasing_by simp only [maxStep] at *; omega

/-- Scales a value by a power of ten. -/
def scale? (x : Binary64) (power : Int) : Option Binary64 :=
  if power < 0 then scaleDown? x power.natAbs
  else if power.natAbs ≤ maxStep then (powerOfTen? power.natAbs).bind x.mul?
  else if x.mantissa = 0 then some x
  else none

/-! ## The number -/

/-- The largest power of ten that is taken at its value. -/
def maxPower : Nat := twoTo 31 - 1

/-- The floating-point number that a literal stands for; nothing if it is too large. -/
def float? (l : Literal) : Option Binary64 := do
  let (n, power) := l.significand
  let magnitude ← Binary64.ofInt? n
  let x := { magnitude with negative := l.negative }
  match l.power with
  | none => scale? x power
  | some (negative, digits) =>
    let written := ofDigits digits
    -- a power this large decides the outcome whatever the significand is scaled by besides
    if maxPower < written then
      if n ≠ 0 ∧ negative = false then none else some (.zero l.negative)
    else scale? x (if negative then power - written else power + written)

/-- The number that a literal stands for; nothing if it is too large. A plain literal out of the
range of integers is a floating-point number, and so is `-0`. -/
def number? (l : Literal) : Option Number :=
  let i : Int := if l.negative then -(ofDigits l.whole : Int) else ofDigits l.whole
  if l.isPlain = true ∧ ¬(l.negative = true ∧ i = 0) then
    match Integer.ofInt? i with
    | some n => some (.int n)
    | none => l.float?.map .float
  else l.float?.map .float

end Literal

end GameBridge.Json
