import GameBridge.Proofs.Number.ReadingBack

/-!
# Rounding and order

Rounding to the nearest value can make two numbers equal but never puts the greater one below the
smaller one. Within one power of two that is so for the quotient by the common unit; between two
powers of two it is so because each power is a value itself, which nothing is rounded past.

A number that was read is a value already. So it is a lower bound not only of the numbers above it
but also of what these become when they are stored and read back (`rereadUInt64_mono` together with
`rereadUInt64_toUInt64`), even where they are rounded down.
-/

namespace GameBridge

/-! ## Quotients -/

theorem div_le_roundDiv (num den : Nat) : num / den ≤ roundDiv num den := by
  rw [roundDiv]
  split_ifs <;> omega

theorem roundDiv_le_succ (num den : Nat) : roundDiv num den ≤ num / den + 1 := by
  rw [roundDiv]
  split_ifs <;> omega

/-- A greater numerator has no smaller rounded quotient. -/
theorem roundDiv_mono {a b : Nat} (h : a ≤ b) (den : Nat) : roundDiv a den ≤ roundDiv b den := by
  rcases (Nat.div_le_div_right h : a / den ≤ b / den).lt_or_eq with hlt | heq
  · calc roundDiv a den ≤ a / den + 1 := roundDiv_le_succ a den
      _ ≤ b / den := hlt
      _ ≤ roundDiv b den := div_le_roundDiv b den
  · -- the quotients are the same, so the remainders are in the order of the numerators
    have hrest : a % den ≤ b % den := by
      have ha := Nat.div_add_mod a den
      have hb := Nat.div_add_mod b den
      rw [heq] at ha
      omega
    rw [roundDiv, roundDiv, heq]
    split_ifs <;> omega

theorem roundDiv_mul_self {den : Nat} (hpos : 0 < den) (k : Nat) : roundDiv (k * den) den = k :=
  Nat.eq_of_mul_eq_mul_right hpos (roundDiv_mul_cancel hpos (Nat.dvd_mul_left den k))

theorem roundDiv_le {num den k : Nat} (hpos : 0 < den) (h : num ≤ k * den) :
    roundDiv num den ≤ k :=
  (roundDiv_mono h den).trans_eq (roundDiv_mul_self hpos k)

theorem le_roundDiv {num den k : Nat} (hpos : 0 < den) (h : k * den ≤ num) :
    k ≤ roundDiv num den :=
  (roundDiv_mul_self hpos k).symm.trans_le (roundDiv_mono h den)

namespace Binary64

/-! ## Rounded numbers -/

theorem unit_dvd_two_pow {n k : Nat} (h : n.log2 ≤ k) : unit n ∣ 2 ^ k :=
  Nat.pow_dvd_pow 2 (by omega)

theorem rounded_le_two_pow {n k : Nat} (h : n < 2 ^ k) : rounded n ≤ 2 ^ k := by
  rcases Nat.eq_zero_or_pos n with rfl | hpos
  · exact Nat.zero_le _
  obtain ⟨m, hm⟩ := unit_dvd_two_pow (n := n) ((Nat.log2_lt hpos.ne').mpr h).le
  rw [Nat.mul_comm] at hm
  rw [rounded, hm]
  exact Nat.mul_le_mul_right _ (roundDiv_le (unit_pos n) (hm ▸ h.le))

theorem two_pow_le_rounded {n : Nat} (h : n ≠ 0) : 2 ^ n.log2 ≤ rounded n := by
  obtain ⟨m, hm⟩ := unit_dvd_two_pow (n := n) le_rfl
  rw [Nat.mul_comm] at hm
  rw [rounded, hm]
  exact Nat.mul_le_mul_right _ (le_roundDiv (unit_pos n) (hm ▸ Nat.log2_self_le h))

/-- **Order.** Rounding keeps the order of numbers. -/
theorem rounded_mono {a b : Nat} (h : a ≤ b) : rounded a ≤ rounded b := by
  rcases Nat.eq_zero_or_pos a with rfl | hpos
  · exact Nat.zero_le _
  have hb : b ≠ 0 := by omega
  have hlog : a.log2 ≤ b.log2 := (Nat.le_log2 hb).mpr ((Nat.log2_self_le hpos.ne').trans h)
  rcases hlog.lt_or_eq with hlt | heq
  · calc rounded a ≤ 2 ^ b.log2 :=
          rounded_le_two_pow (Nat.lt_log2_self.trans_le (Nat.pow_le_pow_right (by decide) hlt))
      _ ≤ rounded b := two_pow_le_rounded hb
  · have hunit : unit a = unit b := by rw [unit, unit, heq]
    rw [rounded, rounded, hunit]
    exact Nat.mul_le_mul_right _ (roundDiv_mono h _)

/-! ## Numbers that were read -/

theorem holds_mul_two_pow {n : Nat} (h : Holds n) (k : Nat) : Holds (n * 2 ^ k) := by
  rcases Nat.eq_zero_or_pos n with rfl | hpos
  · rwa [Nat.zero_mul]
  have hlog : (n * 2 ^ k).log2 < n.log2 + k + 1 := by
    refine (Nat.log2_lt (Nat.mul_ne_zero hpos.ne' (Nat.two_pow_pos k).ne')).mpr ?_
    calc n * 2 ^ k < 2 ^ (n.log2 + 1) * 2 ^ k :=
          Nat.mul_lt_mul_of_pos_right Nat.lt_log2_self (Nat.two_pow_pos k)
      _ = 2 ^ (n.log2 + k + 1) := by rw [← Nat.pow_add]; congr 1; omega
  have hunit : unit (n * 2 ^ k) ∣ unit n * 2 ^ k := by
    rw [unit, unit, ← Nat.pow_add]
    exact Nat.pow_dvd_pow 2 (by omega)
  exact hunit.trans (Nat.mul_dvd_mul_right h _)

/-- The whole part of a value with 53 significant bits has no more of them. -/
theorem holds_wholePart {x : Binary64} (h : x.mantissa ≤ 2 ^ 53) : Holds x.wholePart := by
  rw [wholePart, unitDen, twoTo_eq_pow, twoTo_eq_pow]
  rcases le_total 0 x.exponent with hpos | hneg
  · rw [Int.toNat_of_nonpos (by omega : -x.exponent ≤ 0), Nat.pow_zero, Nat.div_one]
    exact holds_mul_two_pow (holds_of_le h) _
  · rw [Int.toNat_of_nonpos hneg, Nat.pow_zero, Nat.mul_one]
    exact holds_of_le ((Nat.div_le_self _ _).trans h)

/-- In units of its last bit, a quotient is at most `2 ^ 53`. -/
theorem unitNum_le {num den : Nat} (hden : den ≠ 0) :
    unitNum num (lastBit num den) ≤ 2 ^ 53 * unitDen den (lastBit num den) := by
  rw [lastBit, twoTo_eq_pow]
  split_ifs with hfits
  · exact hfits.le
  · -- the next exponent leaves one bit less, whatever the quotient is
    generalize he : max minExponent ((num.log2 : Int) - den.log2 - 53) = e
    have hleast : (num.log2 : Int) - den.log2 - 53 ≤ e := he ▸ le_max_right _ _
    rw [unitNum, unitDen, twoTo_eq_pow, twoTo_eq_pow]
    calc num * 2 ^ (-(e + 1)).toNat
        ≤ 2 ^ (num.log2 + 1) * 2 ^ (-(e + 1)).toNat :=
          Nat.mul_le_mul_right _ Nat.lt_log2_self.le
      _ = 2 ^ (num.log2 + 1 + (-(e + 1)).toNat) := (Nat.pow_add ..).symm
      _ ≤ 2 ^ (53 + (den.log2 + (e + 1).toNat)) := Nat.pow_le_pow_right (by decide) (by omega)
      _ = 2 ^ 53 * (2 ^ den.log2 * 2 ^ (e + 1).toNat) := by rw [Nat.pow_add, Nat.pow_add]
      _ ≤ 2 ^ 53 * (den * 2 ^ (e + 1).toNat) :=
          Nat.mul_le_mul_left _ (Nat.mul_le_mul_right _ (Nat.log2_self_le hden))

theorem mantissa_of_pack? {negative : Bool} {mantissa : Nat} {exponent : Int} {x : Binary64}
    (h : pack? negative mantissa exponent = some x) (hmantissa : mantissa ≤ 2 ^ 53) :
    x.mantissa ≤ 2 ^ 53 := by
  rw [pack?, Option.ite_none_left_eq_some] at h
  rw [← Option.some.inj h.2]
  split_ifs with hcarry
  · exact Nat.pow_le_pow_right (by decide) (by decide)
  · exact hmantissa

theorem mantissa_of_nearest? {negative : Bool} {num den : Nat} {x : Binary64} (hden : den ≠ 0)
    (h : nearest? negative num den = some x) : x.mantissa ≤ 2 ^ 53 := by
  rw [nearest?] at h
  split_ifs at h with hzero
  · rw [← Option.some.inj h]
    exact Nat.zero_le _
  · have hpos : 0 < unitDen den (lastBit num den) :=
      Nat.mul_pos (Nat.pos_of_ne_zero hden) (Nat.two_pow_pos _)
    exact mantissa_of_pack? h (roundDiv_le hpos (unitNum_le hden))

end Binary64

theorem Numeral.mantissa_of_nearest? {n : Numeral} {x : Binary64} (h : n.nearest? = some x) :
    x.mantissa ≤ 2 ^ 53 := by
  have hpower (k : Nat) : tenTo k ≠ 0 := (Nat.pow_pos (by decide)).ne'
  rw [Numeral.nearest?] at h
  split_ifs at h with hzero hpos hlarge hsmall
  · rw [← Option.some.inj h]
    exact Nat.zero_le _
  · exact Binary64.mantissa_of_nearest? one_ne_zero h
  · rw [← Option.some.inj h]
    exact Nat.zero_le _
  · exact Binary64.mantissa_of_nearest? (hpower _) h

/-- A number that was read has 53 significant bits, however many digits its text has. -/
theorem mantissa_of_readFinite? {s : String} {x : Binary64} (h : readFinite? s = some x) :
    x.mantissa ≤ 2 ^ 53 := by
  obtain ⟨n, -, hn⟩ := Option.bind_eq_some_iff.mp h
  exact Numeral.mantissa_of_nearest? hn

/-! ## Counts -/

theorem toNat_ofNatClamp (n : Nat) : (UInt64.ofNatClamp n).toNat = min n (2 ^ 64 - 1) := by
  have hsize : UInt64.size = 2 ^ 64 := rfl
  rcases Nat.lt_or_ge n UInt64.size with hlt | hge
  · rw [UInt64.toNat_ofNatClamp_of_lt hlt]
    omega
  · rw [UInt64.toNat_ofNatClamp_of_le hge]
    omega

namespace Decimal

/-- Of two counts, the greater one is not read back as the smaller one. -/
theorem rereadUInt64_mono {m n : UInt64} (h : m ≤ n) : rereadUInt64 m ≤ rereadUInt64 n := by
  have hrounded := Binary64.rounded_mono (UInt64.le_iff_toNat_le.mp h)
  rw [UInt64.le_iff_toNat_le, rereadUInt64, rereadUInt64, toNat_ofNatClamp, toNat_ofNatClamp]
  exact min_le_min_right _ hrounded

/-- **Read once, read for ever.** A count that was read comes back as it was. -/
theorem rereadUInt64_toUInt64 {x : Binary64} (h : x.mantissa ≤ 2 ^ 53) :
    rereadUInt64 x.toUInt64 = x.toUInt64 := by
  rw [rereadUInt64_eq_self_iff, Binary64.toUInt64]
  split_ifs with hneg
  · exact Or.inl (Binary64.holds_of_le (Nat.zero_le _))
  · rcases Nat.lt_or_ge x.wholePart UInt64.size with hlt | hge
    · rw [UInt64.toNat_ofNatClamp_of_lt hlt]
      exact Or.inl (Binary64.holds_wholePart h)
    · exact Or.inr (UInt64.toNat_ofNatClamp_of_le hge)

end Decimal

end GameBridge
