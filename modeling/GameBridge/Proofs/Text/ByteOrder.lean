import GameBridge.Text.Encoding
import Mathlib.Tactic.SplitIfs

/-!
# The order of texts and of their bytes

Texts are compared code point by code point, and UTF-8 keeps this order: comparing the bytes of two
texts gives the same result. The reason is that it holds of two characters whatever follows them.
Of characters with equally many bytes, the bytes are the digits of the code point, the highest
first; of others, the first byte already tells how many there are.
-/

namespace GameBridge.Text

theorem toNat_lt (c : Char) : c.val.toNat < 1114112 := by
  rcases c.valid with h | ⟨-, h⟩
  · exact Nat.lt_of_lt_of_le h (by decide)
  · exact h

private theorem cons_ofNat_lt {m n : Nat} {as bs : List UInt8} (hm : m < 256) (hn : n < 256) :
    UInt8.ofNat m :: as < UInt8.ofNat n :: bs ↔ m < n ∨ m = n ∧ as < bs := by
  rw [List.cons_lt_cons_iff, UInt8.lt_iff_toNat_lt, ← UInt8.toNat_inj, UInt8.toNat_ofNat_of_lt' hm,
    UInt8.toNat_ofNat_of_lt' hn]

/-- Where the highest digits agree, the next ones decide. -/
private theorem digits_lt {m n : Nat} {p : Prop} (h : m < n) (hn : n < 1114112) :
    m / 262144 % 8 + 240 < n / 262144 % 8 + 240 ∨
      m / 262144 % 8 + 240 = n / 262144 % 8 + 240 ∧
        (m / 4096 % 64 + 128 < n / 4096 % 64 + 128 ∨
          m / 4096 % 64 + 128 = n / 4096 % 64 + 128 ∧
            (m / 64 % 64 + 128 < n / 64 % 64 + 128 ∨
              m / 64 % 64 + 128 = n / 64 % 64 + 128 ∧
                (m % 64 + 128 < n % 64 + 128 ∨ m % 64 + 128 = n % 64 + 128 ∧ p))) := by
  rcases Nat.lt_or_ge (m / 262144) (n / 262144) with h₁ | h₁
  · omega
  rcases Nat.lt_or_ge (m / 4096) (n / 4096) with h₂ | h₂
  · omega
  rcases Nat.lt_or_ge (m / 64) (n / 64) with h₃ | h₃
  · omega
  · omega

/-- The bytes of the lesser character come first, whatever follows. -/
theorem charBytes_append_lt {c d : Char} (h : c < d) (as bs : List UInt8) :
    charBytes c ++ as < charBytes d ++ bs := by
  have hlt : c.val.toNat < d.val.toNat := h
  have hd := toNat_lt d
  rw [charBytes, charBytes, String.utf8EncodeChar, String.utf8EncodeChar]
  generalize c.val.toNat = m at *
  generalize d.val.toNat = n at *
  split_ifs
  all_goals
    simp only [List.cons_append, List.nil_append]
    repeat rw [cons_ofNat_lt (by omega) (by omega)]
  -- one goal for each pair of lengths
  all_goals first
    | omega
    | exact digits_lt hlt hd

theorem flatMap_charBytes_lt {as bs : List Char} (h : as < bs) :
    as.flatMap charBytes < bs.flatMap charBytes := by
  induction h with
  | nil =>
    rename_i b bs
    rw [List.flatMap_nil, List.flatMap_cons]
    obtain ⟨head, tail, hcons⟩ := List.exists_cons_of_ne_nil (String.utf8EncodeChar_ne_nil (c := b))
    rw [charBytes, hcons]
    exact List.Lex.nil
  | rel h =>
    rw [List.flatMap_cons, List.flatMap_cons]
    exact charBytes_append_lt h _ _
  | cons h ih =>
    rw [List.flatMap_cons, List.flatMap_cons]
    exact List.append_left_lt ih

theorem bytes_eq_flatMap (s : String) : bytes s = s.toList.flatMap charBytes := by
  rw [← bytes_ofList, String.ofList_toList]

/-- **Byte order.** Texts and their bytes are in the same order. -/
theorem bytes_lt_bytes_iff {a b : String} : bytes a < bytes b ↔ a < b := by
  have hmono : ∀ {a b : String}, a < b → bytes a < bytes b := by
    intro a b h
    rw [bytes_eq_flatMap, bytes_eq_flatMap]
    exact flatMap_charBytes_lt (String.lt_iff.mp h)
  refine ⟨fun h ↦ ?_, hmono⟩
  rcases Decidable.em (a < b) with hlt | hnlt
  · exact hlt
  rcases Decidable.em (b < a) with hgt | hngt
  · exact absurd (hmono hgt) (List.lt_asymm h)
  · rw [String.le_antisymm (String.not_lt.mp hngt) (String.not_lt.mp hnlt)] at h
    exact absurd h (List.lt_irrefl _)

end GameBridge.Text
