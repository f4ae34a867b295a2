import GameBridge.Proofs.Number.WholeNumbers

/-!
# Stored integers as they are read back

An integer of 64 bits that was stored as a decimal text is read back as the double precision value
nearest to it, cut to 64 bits. That is the integer rounded to its 53 highest bits. So it comes back
as it was just if the other bits are zero, which is what `Binary64.Holds` says, or if it is the
greatest integer of its kind: that one is rounded up, and then held within 64 bits. The bookkeeping
of the bridge relies on this for integers of a magnitude up to `2 ^ 53`, which have no other bits.
-/

namespace GameBridge

theorem roundDiv_mul_cancel {num den : Nat} (hpos : 0 < den) (h : den ∣ num) :
    roundDiv num den * den = num := by
  have hexact : 2 * (num % den) < den := by
    rw [Nat.mod_eq_zero_of_dvd h]
    exact hpos
  rw [roundDiv, if_pos hexact, Nat.div_mul_cancel h]

namespace Binary64

/-! ## The 53 highest bits -/

/-- What the last of the 53 highest bits of a natural number stands for. -/
def unit (n : Nat) : Nat := 2 ^ (n.log2 - 52)

/-- A natural number that is a double precision value, as it has at most 53 significant bits. -/
def Holds (n : Nat) : Prop := unit n ∣ n

instance (n : Nat) : Decidable (Holds n) := inferInstanceAs (Decidable (_ ∣ _))

/-- A natural number rounded to its 53 highest bits. -/
def rounded (n : Nat) : Nat := roundDiv n (unit n) * unit n

theorem unit_pos (n : Nat) : 0 < unit n := Nat.two_pow_pos _

theorem rounded_eq_self_iff {n : Nat} : rounded n = n ↔ Holds n := by
  constructor
  · exact fun h ↦ ⟨_, h.symm.trans (Nat.mul_comm _ _)⟩
  · exact roundDiv_mul_cancel (unit_pos n)

theorem holds_of_le {n : Nat} (h : n ≤ 2 ^ 53) : Holds n := by
  rcases Nat.lt_or_eq_of_le h with hlt | rfl
  · have hlog : n.log2 - 52 = 0 := by
      rcases Nat.eq_zero_or_pos n with rfl | hpos
      · decide
      · have hshort := (Nat.log2_lt hpos.ne').mpr hlt
        omega
    rw [Holds, unit, hlog]
    exact one_dvd n
  · decide

/-- A value whose last bit is not behind the point is a whole number. -/
theorem exists_pack? (negative : Bool) (mantissa : Nat) {places : Nat} (h : places ≤ 970) :
    ∃ x, pack? negative mantissa places = some x ∧ x.negative = negative
      ∧ x.wholePart = mantissa * 2 ^ places := by
  have hwhole : ∀ (m p : Nat), wholePart ⟨negative, m, p⟩ = m * 2 ^ p := by
    intro m p
    have hback : (-(p : Int)).toNat = 0 := by omega
    rw [wholePart, unitDen, hback, Int.toNat_natCast, twoTo_eq_pow, twoTo_eq_pow, pow_zero,
      Nat.div_one]
  rw [pack?, twoTo_eq_pow, twoTo_eq_pow]
  by_cases hcarry : mantissa = 2 ^ 53
  · have hfits : ¬maxExponent < ((places + 1 : Nat) : Int) := by
      rw [maxExponent]
      omega
    refine ⟨⟨negative, 2 ^ 52, (places + 1 : Nat)⟩, ?_, rfl, ?_⟩
    · rw [if_pos hcarry]
      exact if_neg hfits
    · rw [hwhole, hcarry, ← pow_add, ← pow_add]
      congr 1
      omega
  · have hfits : ¬maxExponent < (places : Int) := by
      rw [maxExponent]
      omega
    refine ⟨⟨negative, mantissa, places⟩, ?_, rfl, hwhole _ _⟩
    rw [if_neg hcarry]
    exact if_neg hfits

/-- The value nearest to an integer has its 53 highest bits. -/
theorem exists_ofInt?_rounded {i : Int} (h : i.natAbs < 2 ^ 64) :
    ∃ x, ofInt? i = some x ∧ x.negative = decide (i < 0) ∧ x.wholePart = rounded i.natAbs := by
  rcases Nat.lt_or_ge (2 ^ 53) i.natAbs with hlarge | hsmall
  · have h0 : i.natAbs ≠ 0 := by omega
    have hleast : 53 ≤ i.natAbs.log2 := (Nat.le_log2 h0).mpr hlarge.le
    have hmost : i.natAbs.log2 < 64 := (Nat.log2_lt h0).mpr h
    have hplaces : (i.natAbs.log2 : Int) - 52 = ((i.natAbs.log2 - 52 : Nat) : Int) := by omega
    have hback : (-((i.natAbs.log2 - 52 : Nat) : Int)).toNat = 0 := by omega
    have hnum : unitNum i.natAbs ((i.natAbs.log2 - 52 : Nat) : Int) = i.natAbs := by
      rw [unitNum, hback, twoTo_eq_pow, pow_zero, mul_one]
    have hden : unitDen 1 ((i.natAbs.log2 - 52 : Nat) : Int) = unit i.natAbs := by
      rw [unitDen, Int.toNat_natCast, twoTo_eq_pow, one_mul, unit]
    rw [ofInt?, nearest?, if_neg h0, lastBit_one h0, hplaces]
    dsimp only
    rw [hnum, hden, rounded]
    exact exists_pack? _ _ (by omega)
  · rw [rounded_eq_self_iff.mpr (holds_of_le hsmall)]
    exact exists_ofInt?_eq_some hsmall

end Binary64

/-! ## Integers of 64 bits -/

namespace Decimal

/-- An unsigned integer as it is read back from its decimal text. -/
def rereadUInt64 (n : UInt64) : UInt64 := UInt64.ofNatClamp (Binary64.rounded n.toNat)

/-- A signed integer as it is read back from its decimal text. -/
def rereadInt64 (n : Int64) : Int64 :=
  Int64.ofIntClamp (n.toInt.sign * Binary64.rounded n.toInt.natAbs)

theorem toUInt64_readFinite? (n : UInt64) :
    (readFinite? (ofUInt64 n)).map Binary64.toUInt64 = some (rereadUInt64 n) := by
  have hsize : (n.toNat : Int).natAbs < 2 ^ 64 := n.toNat_lt
  obtain ⟨x, hx, hneg, hwhole⟩ := Binary64.exists_ofInt?_rounded hsize
  have hpos : decide ((n.toNat : Int) < 0) = false := by simp
  rw [ofUInt64, readFinite?_text, hx, Option.map_some, Binary64.toUInt64, hneg, hpos,
    if_neg (by decide), hwhole, Int.natAbs_natCast, rereadUInt64]

theorem toInt64_readFinite? (n : Int64) :
    (readFinite? (ofInt64 n)).map Binary64.toInt64 = some (rereadInt64 n) := by
  have hsize : n.toInt.natAbs < 2 ^ 64 := by
    have hlower := n.le_toInt
    have hupper := n.toInt_lt
    omega
  obtain ⟨x, hx, hneg, hwhole⟩ := Binary64.exists_ofInt?_rounded hsize
  have hsign : (if decide (n.toInt < 0) = true then -(Binary64.rounded n.toInt.natAbs : Int)
      else Binary64.rounded n.toInt.natAbs) = n.toInt.sign * Binary64.rounded n.toInt.natAbs := by
    rcases lt_trichotomy n.toInt 0 with hlt | hzero | hgt
    · rw [if_pos (decide_eq_true hlt), Int.sign_eq_neg_one_of_neg hlt, Int.neg_one_mul]
    · rw [hzero]
      decide
    · rw [if_neg (by simpa using hgt.le), Int.sign_eq_one_of_pos hgt, one_mul]
  rw [ofInt64, readFinite?_text, hx, Option.map_some, Binary64.toInt64, hneg, hwhole, hsign,
    rereadInt64]

/-- **Counts.** A stored count comes back as it was just if it has at most 53 significant bits or is
the greatest one. -/
theorem rereadUInt64_eq_self_iff {n : UInt64} :
    rereadUInt64 n = n ↔ Binary64.Holds n.toNat ∨ n.toNat = UInt64.size - 1 := by
  constructor
  · intro h
    by_cases hsize : Binary64.rounded n.toNat < UInt64.size
    · have hvalue := UInt64.toNat_ofNatClamp_of_lt hsize
      rw [← rereadUInt64, h] at hvalue
      exact Or.inl (Binary64.rounded_eq_self_iff.mp hvalue.symm)
    · rw [rereadUInt64, UInt64.ofNatClamp, dif_neg hsize] at h
      exact Or.inr (h ▸ UInt64.toNat_ofNatLT)
  · rintro (hholds | hgreatest)
    · rw [rereadUInt64, Binary64.rounded_eq_self_iff.mpr hholds, UInt64.ofNatClamp_toNat]
    · rw [← UInt64.toNat_inj, rereadUInt64, hgreatest]
      decide

/-- **Times.** A stored time comes back as it was just if its distance from zero has at most 53
significant bits or if it is the greatest one. -/
theorem rereadInt64_eq_self_iff {n : Int64} :
    rereadInt64 n = n ↔ Binary64.Holds n.toInt.natAbs ∨ n = Int64.maxValue := by
  constructor
  · intro h
    rw [rereadInt64, Int64.ofIntClamp] at h
    split at h
    · split at h
      · refine Or.inl (Binary64.rounded_eq_self_iff.mp ?_)
        have hvalue := congrArg Int64.toInt h
        rw [Int64.toInt_ofIntLE] at hvalue
        rcases eq_or_ne n.toInt 0 with hzero | hne
        · rw [hzero]
          decide
        · have hdistance := congrArg Int.natAbs hvalue
          rwa [Int.natAbs_mul, Int.natAbs_natCast, Int.natAbs_sign_of_ne_zero hne, one_mul]
            at hdistance
      · exact Or.inr h.symm
    · rw [← h]
      exact Or.inl (by decide)
  · rintro (hholds | rfl)
    · rw [rereadInt64, Binary64.rounded_eq_self_iff.mpr hholds, Int.sign_mul_natAbs,
        Int64.ofIntClamp_toInt]
    · decide

theorem rereadUInt64_of_le {n : UInt64} (h : n.toNat ≤ 2 ^ 53) : rereadUInt64 n = n :=
  rereadUInt64_eq_self_iff.mpr (Or.inl (Binary64.holds_of_le h))

theorem rereadInt64_of_le {n : Int64} (h : n.toInt.natAbs ≤ 2 ^ 53) : rereadInt64 n = n :=
  rereadInt64_eq_self_iff.mpr (Or.inl (Binary64.holds_of_le h))

end Decimal

end GameBridge
