import GameBridge.Number.Numeral
import GameBridge.Text.Decimal
import Mathlib.Algebra.Order.Ring.Nat
import Mathlib.Data.List.TakeWhile

/-!
# Whole numbers as stored texts

Counts and times are stored as decimal texts and read back as double precision values. The way back
goes through three readers, which are dealt with one after the other: trimming takes nothing off a
written integer, its numeral is the integer itself, and the nearest double precision value is the
one of `Binary64.ofInt?`.

That value has 53 significant bits, so an integer of a magnitude up to `2 ^ 53` is its own nearest
value.
-/

namespace GameBridge

/-! ## Powers -/

theorem twoTo_eq_pow (n : Nat) : twoTo n = 2 ^ n := rfl

theorem tenTo_eq_pow (n : Nat) : tenTo n = 10 ^ n := rfl

/-! ## Texts without blanks -/

private theorem dropWhile_isBlank {cs : List Char} (h : ∀ c ∈ cs, Text.isBlank c = false) :
    cs.dropWhile Text.isBlank = cs := by
  cases cs with
  | nil => rfl
  | cons c cs => rw [List.dropWhile_cons_of_neg (by simp [h c List.mem_cons_self])]

theorem Text.trimChars_eq_self {cs : List Char} (h : ∀ c ∈ cs, Text.isBlank c = false) :
    Text.trimChars cs = cs := by
  rw [trimChars, dropWhile_isBlank h, dropWhile_isBlank fun c hc ↦ h c (List.mem_reverse.mp hc),
    List.reverse_reverse]

theorem Text.isBlank_of_isDigit {c : Char} (h : c.isDigit = true) : Text.isBlank c = false := by
  have hc : 48 ≤ c.toNat ∧ c.toNat ≤ 57 := by
    rw [Char.isDigit, Bool.and_eq_true, decide_eq_true_iff, decide_eq_true_iff] at h
    exact h
  simp only [Text.isBlank, Bool.or_eq_false_iff, Bool.and_eq_false_iff, decide_eq_false_iff_not,
    beq_eq_false_iff_ne]
  omega

theorem Decimal.isBlank_of_mem_intChars {i : Int} {c : Char} (h : c ∈ Decimal.intChars i) :
    Text.isBlank c = false := by
  cases i with
  | ofNat n => exact Text.isBlank_of_isDigit (Decimal.isDigit_of_mem_natChars h)
  | negSucc n =>
    rcases List.mem_cons.mp h with rfl | h
    · decide
    · exact Text.isBlank_of_isDigit (Decimal.isDigit_of_mem_natChars h)

/-! ## The numeral of an integer -/

namespace Numeral

/-- A run of digits is its own numeral, whatever sign was taken off in front of it. -/
private theorem read?_of_splitSign {rule : PowerRule} {cs : List Char} {negative : Bool} {n : Nat}
    (h : splitSign cs = (negative, Decimal.natChars n)) :
    read? rule cs = some ⟨negative, n, 0⟩ := by
  have hdigits : ∀ c ∈ Decimal.natChars n, Char.isDigit c = true :=
    fun c hc ↦ Decimal.isDigit_of_mem_natChars hc
  have hlead : leadingDigits (Decimal.natChars n) = Decimal.natChars n :=
    List.takeWhile_eq_self_iff.mpr hdigits
  have hafter : afterDigits (Decimal.natChars n) = [] := List.dropWhile_eq_nil_iff.mpr hdigits
  have hvalue : Nat.ofDigitChars 10 (Decimal.natChars n) 0 = n := Nat.ofDigitChars_ten_toDigits
  rw [read?, h]
  simp only [hlead, hafter, splitFraction, List.append_nil, Decimal.natChars_ne_nil, if_false,
    readPower?, hvalue, Option.map_some, List.length_nil]
  rfl

private theorem splitSign_natChars (n : Nat) :
    splitSign (Decimal.natChars n) = (false, Decimal.natChars n) := by
  have hdigits : ∀ c ∈ Decimal.natChars n, Char.isDigit c = true :=
    fun c hc ↦ Decimal.isDigit_of_mem_natChars hc
  unfold splitSign
  split
  · rename_i hcs
    exact absurd (hdigits '-' (hcs ▸ List.mem_cons_self)) (by decide)
  · rename_i hcs
    exact absurd (hdigits '+' (hcs ▸ List.mem_cons_self)) (by decide)
  · rfl

theorem read?_intChars (rule : PowerRule) (i : Int) :
    read? rule (Decimal.intChars i) = some ⟨decide (i < 0), i.natAbs, 0⟩ := by
  cases i with
  | ofNat n =>
    rw [Decimal.intChars, read?_of_splitSign (splitSign_natChars n)]
    simp
  | negSucc n =>
    have hsign : splitSign ('-' :: Decimal.natChars (n + 1)) = (true, Decimal.natChars (n + 1)) :=
      rfl
    rw [Decimal.intChars, read?_of_splitSign hsign]
    simp [Int.negSucc_lt_zero]

end Numeral

/-- A written integer is read as the double precision value nearest to it. -/
theorem readFinite?_text (i : Int) : readFinite? (Decimal.text i) = Binary64.ofInt? i := by
  rw [readFinite?, Decimal.toList_text,
    Text.trimChars_eq_self fun c hc ↦ Decimal.isBlank_of_mem_intChars hc, Numeral.read?_intChars,
    Option.bind_some, Numeral.nearest?, Binary64.ofInt?]
  by_cases h : i.natAbs = 0
  · rw [if_pos h, Binary64.nearest?, if_pos h]
  · have hsmall : ¬(310 : Int) ≤ 0 := by decide
    rw [if_neg h, if_pos le_rfl, if_neg hsmall, Int.toNat_zero, tenTo_eq_pow, pow_zero, mul_one]

/-! ## Integers of at most 53 bits -/

theorem roundDiv_one (n : Nat) : roundDiv n 1 = n := by
  simp [roundDiv, Nat.mod_one]

namespace Binary64

/-- The last bit of the value nearest to a whole number stands 52 places below the first. -/
theorem lastBit_one {n : Nat} (hn : n ≠ 0) : lastBit n 1 = (n.log2 : Int) - 52 := by
  have hlog : Nat.log2 1 = 0 := by decide
  have hmax : max minExponent ((n.log2 : Int) - Nat.log2 1 - 53) = (n.log2 : Int) - 53 := by
    rw [hlog, minExponent]
    omega
  have hlarge : ¬unitNum n ((n.log2 : Int) - 53)
      < twoTo 53 * unitDen 1 ((n.log2 : Int) - 53) := by
    rw [unitNum, unitDen, not_lt, one_mul, twoTo_eq_pow, twoTo_eq_pow, twoTo_eq_pow, ← pow_add]
    calc 2 ^ (53 + ((n.log2 : Int) - 53).toNat)
        = 2 ^ (n.log2 + (-((n.log2 : Int) - 53)).toNat) := by congr 1; omega
      _ = 2 ^ n.log2 * 2 ^ (-((n.log2 : Int) - 53)).toNat := pow_add _ _ _
      _ ≤ n * 2 ^ (-((n.log2 : Int) - 53)).toNat := Nat.mul_le_mul_right _ (Nat.log2_self_le hn)
  simp only [lastBit, hmax, if_neg hlarge]
  omega

/-- A whole number of at most 53 bits is a double precision value. -/
private theorem nearest?_of_lt {n : Nat} (negative : Bool) (h0 : n ≠ 0) (h : n < 2 ^ 53) :
    nearest? negative n 1
      = some ⟨negative, n * 2 ^ (52 - n.log2), (n.log2 : Int) - 52⟩ := by
  have hlog : n.log2 < 53 := (Nat.log2_lt h0).mpr h
  have hnum : unitNum n ((n.log2 : Int) - 52) = n * 2 ^ (52 - n.log2) := by
    rw [unitNum, twoTo_eq_pow]
    congr 2
    omega
  have hden : unitDen 1 ((n.log2 : Int) - 52) = 1 := by
    rw [unitDen, Int.toNat_of_nonpos (by omega), twoTo_eq_pow, pow_zero, one_mul]
  have hmantissa : n * 2 ^ (52 - n.log2) ≠ 2 ^ 53 := by
    refine ne_of_lt ?_
    calc n * 2 ^ (52 - n.log2) < 2 ^ (n.log2 + 1) * 2 ^ (52 - n.log2) :=
          Nat.mul_lt_mul_of_pos_right Nat.lt_log2_self (Nat.two_pow_pos _)
      _ = 2 ^ 53 := by rw [← pow_add]; congr 1; omega
  have hexponent : ¬maxExponent < (n.log2 : Int) - 52 := by
    rw [maxExponent]
    omega
  simp only [nearest?, if_neg h0, lastBit_one h0, hnum, hden, roundDiv_one, pack?,
    twoTo_eq_pow, if_neg hmantissa, if_neg hexponent]

/-- **Exactness.** The value nearest to a whole number up to `2 ^ 53` is that number. -/
theorem exists_ofInt?_eq_some {i : Int} (h : i.natAbs ≤ 2 ^ 53) :
    ∃ x, ofInt? i = some x ∧ x.negative = decide (i < 0) ∧ x.wholePart = i.natAbs := by
  rw [ofInt?]
  by_cases h0 : i.natAbs = 0
  · refine ⟨zero (decide (i < 0)), by rw [nearest?, if_pos h0], rfl, ?_⟩
    rw [h0, zero, wholePart, unitDen, Nat.zero_mul, Nat.zero_div]
  rcases lt_or_eq_of_le h with hlt | heq
  · refine ⟨_, nearest?_of_lt _ h0 hlt, rfl, ?_⟩
    have hlog : i.natAbs.log2 < 53 := (Nat.log2_lt h0).mpr hlt
    have hback : (-((i.natAbs.log2 : Int) - 52)).toNat = 52 - i.natAbs.log2 := by omega
    rw [wholePart, unitDen, Int.toNat_of_nonpos (by omega : (i.natAbs.log2 : Int) - 52 ≤ 0),
      twoTo_eq_pow, twoTo_eq_pow, pow_zero, mul_one, hback,
      Nat.mul_div_cancel _ (Nat.two_pow_pos _)]
  · refine ⟨⟨decide (i < 0), 2 ^ 52, 1⟩, ?_, rfl, ?_⟩
    · rw [heq]
      cases decide (i < 0) <;> rfl
    · rw [heq]
      cases decide (i < 0) <;> decide

end Binary64

end GameBridge
