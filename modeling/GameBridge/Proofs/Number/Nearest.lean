import GameBridge.Proofs.Number.Order
import Mathlib.Algebra.Order.Field.Power
import Mathlib.Data.Rat.Floor
import Mathlib.Tactic.FieldSimp
import Mathlib.Tactic.Linarith
import Mathlib.Tactic.LinearCombination
import Mathlib.Tactic.Positivity
import Mathlib.Tactic.Ring

/-!
# The nearest double precision value

`Binary64.IsNearest` says what rounding to the nearest value means, in terms of the rational number
for which a value stands and of all finite values at once: none of them is nearer, and if another
one is just as near, then the last bit of the one that was taken is zero.

`Binary64.nearest?` works with a common unit of the number and the value, and two facts show that
what it finds is nearest (`isNearest_nearest?`). Among the multiples of the unit the rounded
quotient is, as `roundDiv` rounds to the nearest integer. And a value that is no multiple of the
unit is less than `2 ^ 52` units, while the number is not.

Cutting a value to an integer is cutting the number for which it stands (`toInt64_eq`,
`toUInt64_eq`).
-/

namespace GameBridge

/-! ## Nearest integers -/

/-- How far the multiples of a denominator are from a numerator: the two that enclose it by the
remainder and by what is missing to the next one, the others by the denominator at least. -/
theorem distance_cases (num : Nat) {den : Nat} (hden : 0 < den) (k : Int) :
    k = (num / den : Nat) ∧ (k * den - num).natAbs = num % den ∨
      k = (num / den + 1 : Nat) ∧ (k * den - num).natAbs = den - num % den ∨
      k ≠ (num / den : Nat) ∧ k ≠ (num / den + 1 : Nat) ∧ den ≤ (k * den - num).natAbs := by
  have hrest : num % den < den := Nat.mod_lt num hden
  obtain ⟨d, rfl⟩ : ∃ d : Int, k = (num / den : Nat) + d := ⟨k - (num / den : Nat), by ring⟩
  have hdist : ((num / den : Nat) + d) * den - num = d * den - (num % den : Nat) := by
    have hsplit : (num : Int) = (num / den : Nat) * den + (num % den : Nat) := by
      exact_mod_cast (Nat.div_add_mod' num den).symm
    linear_combination -hsplit
  rw [hdist]
  generalize num / den = q
  obtain hlow | rfl | rfl | hhigh : d ≤ -1 ∨ d = 0 ∨ d = 1 ∨ 2 ≤ d := by omega
  · have hmul : d * den ≤ -1 * den := mul_le_mul_of_nonneg_right hlow (Int.natCast_nonneg den)
    exact Or.inr (Or.inr ⟨by omega, by omega, by omega⟩)
  · exact Or.inl ⟨by omega, by omega⟩
  · exact Or.inr (Or.inl ⟨by omega, by omega⟩)
  · have hmul : 2 * den ≤ d * den := mul_le_mul_of_nonneg_right hhigh (Int.natCast_nonneg den)
    exact Or.inr (Or.inr ⟨by omega, by omega, by omega⟩)

/-- **Nearest integers.** No multiple of the denominator is nearer to the numerator than the rounded
one, and if another one is just as near then the rounded one is even. -/
theorem roundDiv_nearest (num : Nat) {den : Nat} (hden : 0 < den) (k : Int) :
    ((roundDiv num den : Int) * den - num).natAbs ≤ (k * den - num).natAbs
      ∧ ((k * den - num).natAbs = ((roundDiv num den : Int) * den - num).natAbs →
          k ≠ roundDiv num den → roundDiv num den % 2 = 0) := by
  have hrest : num % den < den := Nat.mod_lt num hden
  have hk := distance_cases num hden k
  have hround := distance_cases num hden (roundDiv num den)
  generalize ((roundDiv num den : Int) * den - num).natAbs = nearest at *
  generalize (k * den - num).natAbs = other at *
  rw [roundDiv] at *
  generalize num / den = q at *
  split_ifs at * <;> omega

namespace Binary64

/-! ## Values as numbers -/

/-- The significant bits with the sign. -/
def significand (x : Binary64) : Int := if x.negative then -x.mantissa else x.mantissa

/-- The number for which a value stands. -/
def toRat (x : Binary64) : ℚ := x.significand * 2 ^ x.exponent

/-- The value has at most 53 significant bits, and its last bit is within the limits. -/
structure IsFinite (x : Binary64) : Prop where
  mantissa_lt : x.mantissa < 2 ^ 53
  le_exponent : minExponent ≤ x.exponent
  exponent_le : x.exponent ≤ maxExponent

/-- One of two numbers is nearer to a third one, or it is as near and its last bit is zero. -/
structure Preferred (q : ℚ) (mantissa : Nat) (chosen other : ℚ) : Prop where
  le : |chosen - q| ≤ |other - q|
  even : |other - q| = |chosen - q| → other ≠ chosen → mantissa % 2 = 0

/-- The value is the one to which a number is rounded that is not too large. It has 53 significant
bits if it can, so that its last bit is the one that decides between two values that are as near. -/
structure IsNearest (x : Binary64) (q : ℚ) : Prop where
  finite : x.IsFinite
  leading : x.mantissa = 0 ∨ 2 ^ 52 ≤ x.mantissa ∨ x.exponent = minExponent
  preferred : ∀ y : Binary64, y.IsFinite → Preferred q x.mantissa x.toRat y.toRat

theorem Preferred.neg {q chosen other : ℚ} {mantissa : Nat}
    (h : Preferred q mantissa chosen other) : Preferred (-q) mantissa (-chosen) (-other) := by
  have hdist : ∀ v, |-v - -q| = |v - q| := by
    intro v
    rw [← neg_add', abs_neg, sub_eq_add_neg]
  constructor
  · rw [hdist, hdist]
    exact h.le
  · rw [hdist, hdist]
    exact fun htie hne ↦ h.even htie fun heq ↦ hne (heq ▸ rfl)

/-! ## Units -/

theorem zpow_eq_div (e : Int) : (2 : ℚ) ^ e = 2 ^ e.toNat / 2 ^ (-e).toNat := by
  rcases le_total 0 e with h | h
  · obtain ⟨n, rfl⟩ := Int.eq_ofNat_of_zero_le h
    simp
  · obtain ⟨n, hn⟩ := Int.eq_ofNat_of_zero_le (neg_nonneg.mpr h)
    obtain rfl : e = -n := by omega
    simp

theorem unitDen_pos {den : Nat} (hden : den ≠ 0) (e : Int) : 0 < unitDen den e :=
  Nat.mul_pos (Nat.pos_of_ne_zero hden) (Nat.two_pow_pos _)

theorem unitNum_div_unitDen (num den : Nat) (e : Int) :
    (unitNum num e : ℚ) / unitDen den e = num / den / 2 ^ e := by
  rw [unitNum, unitDen, twoTo_eq_pow, twoTo_eq_pow, zpow_eq_div]
  push_cast
  field_simp

/-- The last bit lies within the limits, and above them the first one is the fifty-third. -/
theorem two_pow_mul_unitDen_le {num den : Nat} (hnum : num ≠ 0)
    (h : minExponent < lastBit num den) :
    2 ^ 52 * unitDen den (lastBit num den) ≤ unitNum num (lastBit num den) := by
  rw [lastBit, twoTo_eq_pow] at *
  generalize he : max minExponent ((num.log2 : Int) - den.log2 - 53) = e at *
  split_ifs at * with hfits
  · -- the exponent is not the least one, so it goes by the first bits of the two numbers
    obtain rfl : e = (num.log2 : Int) - den.log2 - 53 := by omega
    rw [unitNum, unitDen, twoTo_eq_pow, twoTo_eq_pow]
    generalize he' : (num.log2 : Int) - den.log2 - 53 = e at *
    calc 2 ^ 52 * (den * 2 ^ e.toNat)
        ≤ 2 ^ 52 * (2 ^ (den.log2 + 1) * 2 ^ e.toNat) :=
          Nat.mul_le_mul_left _ (Nat.mul_le_mul_right _ Nat.lt_log2_self.le)
      _ = 2 ^ num.log2 * 2 ^ (-e).toNat := by
          rw [← Nat.pow_add, ← Nat.pow_add, ← Nat.pow_add]
          congr 1
          omega
      _ ≤ num * 2 ^ (-e).toNat := Nat.mul_le_mul_right _ (Nat.log2_self_le hnum)
  · rw [not_lt, unitNum, unitDen, twoTo_eq_pow, twoTo_eq_pow] at hfits
    rw [unitNum, unitDen, twoTo_eq_pow, twoTo_eq_pow]
    rcases le_or_gt 0 e with hpos | hneg
    · rw [show (e + 1).toNat = e.toNat + 1 by omega, show (-(e + 1)).toNat = (-e).toNat by omega,
        Nat.pow_succ]
      calc 2 ^ 52 * (den * (2 ^ e.toNat * 2)) = 2 ^ 53 * (den * 2 ^ e.toNat) := by ring
        _ ≤ num * 2 ^ (-e).toNat := hfits
    · rw [show (-e).toNat = (-(e + 1)).toNat + 1 by omega, show e.toNat = (e + 1).toNat by omega,
        Nat.pow_succ] at hfits
      refine Nat.le_of_mul_le_mul_left ?_ (Nat.succ_pos 1)
      calc 2 * (2 ^ 52 * (den * 2 ^ (e + 1).toNat)) = 2 ^ 53 * (den * 2 ^ (e + 1).toNat) := by ring
        _ ≤ num * (2 ^ (-(e + 1)).toNat * 2) := hfits
        _ = 2 * (num * 2 ^ (-(e + 1)).toNat) := by ring

theorem minExponent_le_lastBit (num den : Nat) : minExponent ≤ lastBit num den := by
  rw [lastBit]
  split_ifs
  · exact le_max_left _ _
  · exact (le_max_left _ _).trans (Int.le_add_one le_rfl)

/-! ## Multiples of the last bit -/

theorem abs_mul_zpow_sub (num : Nat) {den : Nat} (hden : den ≠ 0) (e k : Int) :
    |(k : ℚ) * 2 ^ e - num / den|
      = ((k * unitDen den e - unitNum num e).natAbs : ℚ) * (2 ^ e / unitDen den e) := by
  have hunit : (unitDen den e : ℚ) ≠ 0 := Nat.cast_ne_zero.mpr (unitDen_pos hden e).ne'
  have hpow : (2 : ℚ) ^ e ≠ 0 := (zpow_pos two_pos e).ne'
  have hquotient : (num : ℚ) / den = unitNum num e / unitDen den e * 2 ^ e := by
    rw [unitNum_div_unitDen, div_mul_cancel₀ _ hpow]
  have hfactor : (k : ℚ) * 2 ^ e - num / den
      = (k * unitDen den e - unitNum num e : Int) * (2 ^ e / unitDen den e) := by
    rw [hquotient]
    push_cast
    field_simp
  have hscale : (0 : ℚ) < 2 ^ e / unitDen den e :=
    div_pos (zpow_pos two_pos e) (Nat.cast_pos.mpr (unitDen_pos hden e))
  rw [hfactor, abs_mul, abs_of_pos hscale, ← Int.cast_abs, Int.abs_eq_natAbs, Int.cast_natCast]

/-- Among the multiples of a unit, the rounded quotient is nearest. -/
theorem preferred_unit (num : Nat) {den : Nat} (hden : den ≠ 0) (e k : Int) :
    Preferred (num / den) (roundDiv (unitNum num e) (unitDen den e))
      (roundDiv (unitNum num e) (unitDen den e) * 2 ^ e) (k * 2 ^ e) := by
  obtain ⟨hle, heven⟩ := roundDiv_nearest (unitNum num e) (unitDen_pos hden e) k
  have hround := abs_mul_zpow_sub num hden e (roundDiv (unitNum num e) (unitDen den e) : Nat)
  have hscale : (0 : ℚ) < 2 ^ e / unitDen den e :=
    div_pos (zpow_pos two_pos e) (Nat.cast_pos.mpr (unitDen_pos hden e))
  rw [Int.cast_natCast] at hround
  constructor
  · rw [hround, abs_mul_zpow_sub num hden e k]
    exact mul_le_mul_of_nonneg_right (Nat.cast_le.mpr hle) hscale.le
  · rw [hround, abs_mul_zpow_sub num hden e k]
    intro htie hne
    refine heven (Nat.cast_inj.mp (mul_right_cancel₀ hscale.ne' htie)) fun hk ↦ hne ?_
    rw [hk, Int.cast_natCast]

/-- **Nearest.** Among the finite values, the rounded multiple of the last bit is nearest. -/
theorem preferred_lastBit {num den : Nat} (hnum : num ≠ 0) (hden : den ≠ 0) {k e : Int}
    (hk : k.natAbs < 2 ^ 53) (he : minExponent ≤ e) {unit : Int} (hunit : lastBit num den = unit) :
    Preferred (num / den) (roundDiv (unitNum num unit) (unitDen den unit))
      (roundDiv (unitNum num unit) (unitDen den unit) * 2 ^ unit) (k * 2 ^ e) := by
  rcases le_or_gt unit e with hle | hlt
  · -- a multiple of the last bit
    have hmultiple : (k : ℚ) * 2 ^ e = (k * 2 ^ (e - unit).toNat : Int) * 2 ^ unit := by
      have hpow : (2 : ℚ) ^ e = 2 ^ (e - unit).toNat * 2 ^ unit := by
        rw [← zpow_natCast, ← zpow_add₀ two_ne_zero]
        congr 1
        omega
      rw [hpow]
      push_cast
      ring
    rw [hmultiple]
    exact preferred_unit num hden unit _
  · -- a value with a bit behind the last one is below all that have 53 bits
    have hfirst : (2 : ℚ) ^ 52 * 2 ^ unit ≤ num / den := by
      have hbits := two_pow_mul_unitDen_le hnum (hunit ▸ he.trans_lt hlt)
      rw [hunit] at hbits
      rw [← div_le_div_iff_of_pos_right (zpow_pos (two_pos : (0 : ℚ) < 2) unit), mul_div_assoc,
        div_self (zpow_pos two_pos unit).ne', mul_one, ← unitNum_div_unitDen,
        le_div_iff₀ (Nat.cast_pos.mpr (unitDen_pos hden unit))]
      exact_mod_cast hbits
    have hbelow : (k : ℚ) * 2 ^ e < 2 ^ 52 * 2 ^ unit := by
      have hk' : (k : ℚ) < 2 ^ 53 := by exact_mod_cast (by omega : k < 2 ^ 53)
      calc (k : ℚ) * 2 ^ e < 2 ^ 53 * 2 ^ e := mul_lt_mul_of_pos_right hk' (zpow_pos two_pos e)
        _ ≤ 2 ^ 53 * 2 ^ (unit - 1) :=
          mul_le_mul_of_nonneg_left (zpow_le_zpow_right₀ one_le_two (by omega)) (by positivity)
        _ = 2 ^ 52 * 2 ^ unit := by
          rw [zpow_sub₀ two_ne_zero]
          ring
    have hstrict : |(roundDiv (unitNum num unit) (unitDen den unit) : ℚ) * 2 ^ unit - num / den|
        < |(k : ℚ) * 2 ^ e - num / den| := by
      calc |(roundDiv (unitNum num unit) (unitDen den unit) : ℚ) * 2 ^ unit - num / den|
          ≤ |((2 ^ 52 : Int) : ℚ) * 2 ^ unit - num / den| :=
            (preferred_unit num hden unit (2 ^ 52)).le
        _ = num / den - 2 ^ 52 * 2 ^ unit := by
            rw [abs_of_nonpos (by push_cast; linarith)]
            push_cast
            ring
        _ < num / den - k * 2 ^ e := by linarith
        _ = |(k : ℚ) * 2 ^ e - num / den| := by
            rw [abs_of_neg (by linarith)]
            ring
    exact ⟨hstrict.le, fun htie ↦ absurd htie hstrict.ne'⟩

/-! ## Rounded quotients -/

/-- A value that stands for a multiple of a unit. -/
structure Packs (negative : Bool) (mantissa : Nat) (unit : Int) (x : Binary64) : Prop where
  negative : x.negative = negative
  mantissa_lt : x.mantissa < 2 ^ 53
  le_exponent : unit ≤ x.exponent
  exponent_le : x.exponent ≤ maxExponent
  magnitude : (x.mantissa : ℚ) * 2 ^ x.exponent = mantissa * 2 ^ unit
  same : x.mantissa = 2 ^ 52 ∨ x.mantissa = mantissa ∧ x.exponent = unit

theorem packs_of_pack? {negative : Bool} {mantissa : Nat} {unit : Int} {x : Binary64}
    (h : pack? negative mantissa unit = some x) (hmantissa : mantissa ≤ 2 ^ 53) :
    Packs negative mantissa unit x := by
  rw [pack?, Option.ite_none_left_eq_some, not_lt, Option.some.injEq, twoTo_eq_pow,
    twoTo_eq_pow] at h
  obtain ⟨hmost, rfl⟩ := h
  by_cases hcarry : mantissa = 2 ^ 53
  · rw [if_pos hcarry] at *
    refine ⟨rfl, Nat.pow_lt_pow_right (by decide) (by decide), Int.le_add_one le_rfl, hmost, ?_,
      Or.inl rfl⟩
    rw [hcarry, zpow_add_one₀ two_ne_zero]
    push_cast
    ring
  · rw [if_neg hcarry] at *
    exact ⟨rfl, Nat.lt_of_le_of_ne hmantissa hcarry, le_rfl, hmost, rfl, Or.inr ⟨rfl, rfl⟩⟩

/-- What is computed for a quotient that is not zero. -/
theorem packs_of_nearest? {negative : Bool} {num den : Nat} {x : Binary64} (hnum : num ≠ 0)
    (hden : den ≠ 0) (h : nearest? negative num den = some x) {unit : Int}
    (hunit : lastBit num den = unit) :
    Packs negative (roundDiv (unitNum num unit) (unitDen den unit)) unit x := by
  rw [nearest?, if_neg hnum, hunit] at h
  exact packs_of_pack? h (roundDiv_le (unitDen_pos hden unit) (hunit ▸ unitNum_le hden))

theorem isFinite_of_nearest? {negative : Bool} {num den : Nat} {x : Binary64} (hnum : num ≠ 0)
    (hden : den ≠ 0) (h : nearest? negative num den = some x) : x.IsFinite := by
  have hpacks := packs_of_nearest? hnum hden h rfl
  exact ⟨hpacks.mantissa_lt, (minExponent_le_lastBit num den).trans hpacks.le_exponent,
    hpacks.exponent_le⟩

/-- The first bit is the fifty-third, unless the exponent is the least one. -/
theorem leading_of_nearest? {negative : Bool} {num den : Nat} {x : Binary64} (hnum : num ≠ 0)
    (hden : den ≠ 0) (h : nearest? negative num den = some x) :
    2 ^ 52 ≤ x.mantissa ∨ x.exponent = minExponent := by
  obtain hcarry | ⟨hsame, hexponent⟩ := (packs_of_nearest? hnum hden h rfl).same
  · exact Or.inl hcarry.ge
  · rcases (minExponent_le_lastBit num den).eq_or_lt with heq | hlt
    · exact Or.inr (hexponent.trans heq.symm)
    · rw [hsame]
      exact Or.inl (le_roundDiv (unitDen_pos hden _) (two_pow_mul_unitDen_le hnum hlt))

theorem preferred_of_nearest? {negative : Bool} {num den : Nat} {x : Binary64} (hnum : num ≠ 0)
    (hden : den ≠ 0) (h : nearest? negative num den = some x) {k e : Int}
    (hk : k.natAbs < 2 ^ 53) (he : minExponent ≤ e) :
    Preferred (num / den) x.mantissa (x.mantissa * 2 ^ x.exponent) (k * 2 ^ e) := by
  have hpacks := packs_of_nearest? hnum hden h rfl
  obtain ⟨hle, heven⟩ := preferred_lastBit hnum hden hk he rfl
  rw [← hpacks.magnitude] at hle heven
  refine ⟨hle, fun htie hne ↦ ?_⟩
  obtain hcarry | ⟨hsame, -⟩ := hpacks.same
  · rw [hcarry]
    rfl
  · rw [hsame]
    exact heven htie hne

theorem toRat_eq (x : Binary64) :
    x.toRat = if x.negative then -(x.mantissa * 2 ^ x.exponent : ℚ)
      else x.mantissa * 2 ^ x.exponent := by
  rw [toRat, significand]
  split_ifs
  · push_cast
    ring
  · rw [Int.cast_natCast]

theorem natAbs_significand (x : Binary64) : x.significand.natAbs = x.mantissa := by
  rw [significand]
  split_ifs <;> omega

/-- **Rounding.** The value that is computed for a quotient with a sign is the nearest one. -/
theorem isNearest_nearest? {negative : Bool} {num den : Nat} {x : Binary64} (hden : den ≠ 0)
    (h : nearest? negative num den = some x) :
    x.IsNearest (if negative then -(num / den : ℚ) else num / den) := by
  rcases eq_or_ne num 0 with rfl | hnum
  · -- zero is itself a value
    rw [nearest?, if_pos rfl] at h
    obtain rfl := Option.some.inj h
    have hzero : (zero negative).toRat = 0 := by simp [toRat, significand, zero]
    have hq : (if negative then -((0 : Nat) / den : ℚ) else (0 : Nat) / den) = 0 := by simp
    rw [hq]
    have hlimits : minExponent ≤ 0 ∧ 0 ≤ maxExponent := by decide
    refine ⟨⟨Nat.two_pow_pos 53, hlimits.1, hlimits.2⟩, Or.inl rfl,
      fun y _ ↦ ⟨?_, fun _ _ ↦ rfl⟩⟩
    rw [hzero, sub_self, abs_zero]
    exact abs_nonneg _
  · refine ⟨isFinite_of_nearest? hnum hden h, Or.inr (leading_of_nearest? hnum hden h),
      fun y hy ↦ ?_⟩
    have hsign := (packs_of_nearest? hnum hden h rfl).negative
    have hsignificand : y.significand.natAbs < 2 ^ 53 := y.natAbs_significand ▸ hy.mantissa_lt
    rw [toRat_eq x, hsign]
    cases negative with
    | false => exact preferred_of_nearest? hnum hden h hsignificand hy.le_exponent
    | true =>
      rw [← Int.natAbs_neg] at hsignificand
      have hflipped := (preferred_of_nearest? hnum hden h hsignificand hy.le_exponent).neg
      rw [Int.cast_neg, neg_mul, neg_neg] at hflipped
      exact hflipped

theorem isNearest_ofInt? {i : Int} {x : Binary64} (h : ofInt? i = some x) : x.IsNearest i := by
  have hnearest := isNearest_nearest? one_ne_zero h
  have hsigned : (if decide (i < 0) then -((i.natAbs : ℚ) / (1 : Nat)) else i.natAbs / (1 : Nat))
      = i := by
    rw [Nat.cast_one, div_one, Nat.cast_natAbs]
    rcases lt_or_ge i 0 with hneg | hpos
    · rw [if_pos (decide_eq_true hneg), abs_of_neg hneg, Int.cast_neg, neg_neg]
    · rw [if_neg (by simpa using hpos), abs_of_nonneg hpos]
  rwa [hsigned] at hnearest

/-! ## Cutting -/

/-- A number cut towards zero. -/
def truncate (q : ℚ) : Int := if q < 0 then ⌈q⌉ else ⌊q⌋

theorem wholePart_eq_floor (x : Binary64) :
    (x.wholePart : Int) = ⌊(x.mantissa * 2 ^ x.exponent : ℚ)⌋ := by
  have hfloor := Rat.floor_natCast_div_natCast (x.mantissa * 2 ^ x.exponent.toNat)
    (2 ^ (-x.exponent).toNat)
  rw [Nat.cast_mul, Nat.cast_pow, Nat.cast_pow, Nat.cast_ofNat, mul_div_assoc,
    ← zpow_eq_div] at hfloor
  exact hfloor.symm

theorem truncate_toRat (x : Binary64) :
    truncate x.toRat = if x.negative then -(x.wholePart : Int) else x.wholePart := by
  have hnonneg : (0 : ℚ) ≤ x.mantissa * 2 ^ x.exponent :=
    mul_nonneg (Nat.cast_nonneg _) (zpow_pos two_pos _).le
  rw [wholePart_eq_floor, toRat_eq, truncate]
  split_ifs with hneg hlow hlow
  · exact Int.ceil_neg
  · -- this is the negative zero
    rw [le_antisymm (by linarith) hnonneg]
    simp
  · exact absurd hlow hnonneg.not_gt
  · rfl

theorem toInt64_eq (x : Binary64) : x.toInt64 = Int64.ofIntClamp (truncate x.toRat) := by
  rw [toInt64, truncate_toRat]

theorem toUInt64_eq (x : Binary64) : x.toUInt64 = UInt64.ofNatClamp (truncate x.toRat).toNat := by
  rw [toUInt64, truncate_toRat]
  split_ifs
  · rw [Int.toNat_of_nonpos (by omega)]
    rfl
  · rw [Int.toNat_natCast]

end Binary64

end GameBridge
