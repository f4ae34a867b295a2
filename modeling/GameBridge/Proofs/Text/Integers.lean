import GameBridge.Text.Decimal

/-!
# Texts that denote an integer

`Decimal.Denotes` says which texts denote an integer, and which one: digits, as many as one likes
but at least one, behind a sign that may be missing. Leading zeros are allowed, so a number has many
texts, and zero has some with a minus sign among them.

The reader accepts exactly these texts (`readInt?_eq_some_iff`), and a reader of 64-bit integers
exactly those of them whose integer is in range (`readInt64?_eq_some_iff`).
-/

namespace GameBridge.Decimal

/-- The texts that denote an integer. -/
inductive Denotes : List Char → Int → Prop
  /-- Digits without a sign. -/
  | plain {digits : List Char} (hne : digits ≠ []) (hdigits : ∀ c ∈ digits, c.isDigit = true) :
      Denotes digits (Nat.ofDigitChars 10 digits 0)
  /-- Digits behind a plus sign. -/
  | plus {digits : List Char} (hne : digits ≠ []) (hdigits : ∀ c ∈ digits, c.isDigit = true) :
      Denotes ('+' :: digits) (Nat.ofDigitChars 10 digits 0)
  /-- Digits behind a minus sign. -/
  | minus {digits : List Char} (hne : digits ≠ []) (hdigits : ∀ c ∈ digits, c.isDigit = true) :
      Denotes ('-' :: digits) (-(Nat.ofDigitChars 10 digits 0 : Nat))

theorem readNat?_eq_some_iff {cs : List Char} {n : Nat} :
    readNat? cs = some n ↔
      cs ≠ [] ∧ (∀ c ∈ cs, c.isDigit = true) ∧ Nat.ofDigitChars 10 cs 0 = n := by
  rw [readNat?, Option.ite_none_right_eq_some, List.all_eq_true, Option.some.injEq, and_assoc]

/-- **Integers** are read from the texts that denote them, and from no others. -/
theorem readInt?_eq_some_iff {cs : List Char} {i : Int} : readInt? cs = some i ↔ Denotes cs i := by
  constructor
  · intro h
    unfold readInt? at h
    split at h
    all_goals
      simp only [bind_pure_comp, Option.map_eq_map, Option.map_map] at h
      obtain ⟨n, hn, rfl⟩ := Option.map_eq_some_iff.mp h
      obtain ⟨hne, hdigits, rfl⟩ := readNat?_eq_some_iff.mp hn
    · exact .minus hne hdigits
    · exact .plus hne hdigits
    · exact .plain hne hdigits
  · rintro (⟨hne, hdigits⟩ | ⟨hne, hdigits⟩ | ⟨hne, hdigits⟩)
    · exact readInt?_of_readNat? (readNat?_eq_some_iff.mpr ⟨hne, hdigits, rfl⟩)
    · rw [readInt?, readNat?_eq_some_iff.mpr ⟨hne, hdigits, rfl⟩]
      rfl
    · rw [readInt?, readNat?_eq_some_iff.mpr ⟨hne, hdigits, rfl⟩]
      rfl

theorem readInt64?_eq_some_iff {s : String} {n : Int64} :
    readInt64? s = some n ↔ Denotes s.toList n.toInt := by
  rw [← readInt?_eq_some_iff, readInt64?, Option.bind_eq_some_iff]
  constructor
  · rintro ⟨i, hi, h⟩
    obtain ⟨⟨hlow, hhigh⟩, hn⟩ := Option.ite_none_right_eq_some.mp h
    rw [hi, ← Option.some.inj hn, Int64.toInt_ofInt_of_le hlow (Int.lt_of_le_sub_one hhigh)]
  · intro h
    exact ⟨n.toInt, h, by rw [if_pos ⟨n.minValue_le_toInt, n.toInt_le⟩, Int64.ofInt_toInt]⟩

/-- No 64-bit integer is read from a text just if it denotes none. -/
theorem readInt64?_eq_none_iff {s : String} :
    readInt64? s = none ↔ ∀ n : Int64, ¬Denotes s.toList n.toInt := by
  simp only [Option.eq_none_iff_forall_ne_some, ne_eq, readInt64?_eq_some_iff]

end GameBridge.Decimal
