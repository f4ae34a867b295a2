import GameBridge.GameId
import GameBridge.Proofs.Number.WholeNumbers
import GameBridge.Text.Encoding
import Mathlib.Data.Nat.Digits.Defs

/-!
# Canonical ids

The ids that hosts may use are short texts of letters, digits and two marks, and their canonical
forms are such texts again: where an id is a number, the canonical form is written with digits and
at most one minus sign, and a machine integer has few digits.

A link is made of a scheme, a separator and an id. The colon at the beginning of the separator does
not occur in a scheme, so a link tells which scheme and which id it is made of.
-/

namespace GameBridge

/-! ## Lengths -/

namespace Text

theorem length_le_length_flatMap (cs : List Char) : cs.length ≤ (cs.flatMap charBytes).length := by
  induction cs with
  | nil => exact Nat.le_refl 0
  | cons c rest ih =>
    rw [List.flatMap_cons, List.length_append, List.length_cons, charBytes,
      String.length_utf8EncodeChar, Nat.add_comm]
    exact Nat.add_le_add c.utf8Size_pos ih

theorem length_le_utf8ByteSize (s : String) : s.length ≤ s.utf8ByteSize := by
  have hsize : (bytes s).length = s.utf8ByteSize := rfl
  have hbytes : bytes s = s.toList.flatMap charBytes := by
    rw [← bytes_ofList, String.ofList_toList]
  rw [← hsize, hbytes, ← String.length_toList]
  exact length_le_length_flatMap s.toList

theorem length_trim_le (s : String) : (trim s).length ≤ s.length := by
  obtain ⟨front, back, hsplit, -, -⟩ := exists_eq_append_trimChars s.toList
  have hlength := congrArg List.length hsplit
  rw [List.length_append, List.length_append] at hlength
  rw [← String.length_toList, ← String.length_toList, toList_trim]
  omega

end Text

namespace Decimal

/-- A machine integer is written with at most nineteen digits and a minus sign. -/
theorem length_ofInt64_le (n : Int64) : (ofInt64 n).length ≤ 20 := by
  have hlow : -2 ^ 63 ≤ n.toInt := n.le_toInt
  have hhigh : n.toInt < 2 ^ 63 := n.toInt_lt
  rw [← String.length_toList, ofInt64, toList_text]
  rcases hint : n.toInt with m | m
  · rw [hint, Int.ofNat_eq_natCast] at hhigh
    rw [intChars, natChars]
    exact (Nat.toDigits_length 10 m 19 (by decide) (by omega)).trans (by decide)
  · rw [intChars, natChars, List.length_cons]
    exact Nat.succ_le_succ (Nat.toDigits_length 10 (m + 1) 19 (by decide) (by omega))

theorem ofInt64_ne_empty (n : Int64) : ofInt64 n ≠ "" := by
  intro hempty
  have hread : readInt64? "" = some n := hempty ▸ readInt64?_ofInt64 n
  have hnone : readInt64? "" = none := by decide
  exact absurd (hnone.symm.trans hread) (by simp)

end Decimal

/-! ## Characters -/

namespace GameId

theorem isIdChar_of_isDigit {c : Char} (h : c.isDigit = true) : isIdChar c = true := by
  rw [isIdChar, Char.isAlphanum, h, Bool.or_true, Bool.true_or, Bool.true_or]

theorem isIdChar_of_mem_intChars {i : Int} {c : Char} (h : c ∈ Decimal.intChars i) :
    isIdChar c = true := by
  cases i with
  | ofNat n => exact isIdChar_of_isDigit (Decimal.isDigit_of_mem_natChars h)
  | negSucc n =>
    rcases List.mem_cons.mp h with rfl | h
    · decide
    · exact isIdChar_of_isDigit (Decimal.isDigit_of_mem_natChars h)

private theorem visible_of_between {c low high : Char} (hlow : c.val ≥ low.val)
    (hhigh : c.val ≤ high.val) (hfirst : '!' ≤ low) (hlast : high ≤ '~') :
    0x21 ≤ c.toNat ∧ c.toNat ≤ 0x7e :=
  ⟨UInt32.le_iff_toNat_le.mp (UInt32.le_trans hfirst hlow),
    UInt32.le_iff_toNat_le.mp (UInt32.le_trans hhigh hlast)⟩

/-- Ids are made of characters that can be seen. -/
theorem visible_of_isIdChar {c : Char} (h : isIdChar c = true) :
    0x21 ≤ c.toNat ∧ c.toNat ≤ 0x7e := by
  rw [isIdChar, Bool.or_eq_true, Bool.or_eq_true, beq_iff_eq, beq_iff_eq] at h
  rcases h with (halphanum | rfl) | rfl
  · rcases (Bool.or_eq_true _ _).mp halphanum with hletter | hdigit
    · rcases (Bool.or_eq_true _ _).mp hletter with hupper | hlower
      · obtain ⟨hlow, hhigh⟩ := of_decide_eq_true hupper
        exact visible_of_between hlow hhigh (by decide) (by decide)
      · obtain ⟨hlow, hhigh⟩ := (Bool.and_eq_true _ _).mp hlower
        exact visible_of_between (of_decide_eq_true hlow) (of_decide_eq_true hhigh) (by decide)
          (by decide)
    · obtain ⟨hlow, hhigh⟩ := (Bool.and_eq_true _ _).mp hdigit
      exact visible_of_between (of_decide_eq_true hlow) (of_decide_eq_true hhigh) (by decide)
        (by decide)
  · decide
  · decide

theorem isBlank_of_isIdChar {c : Char} (h : isIdChar c = true) : Text.isBlank c = false := by
  have hvisible := visible_of_isIdChar h
  simp only [Text.isBlank, Bool.or_eq_false_iff, Bool.and_eq_false_iff, decide_eq_false_iff_not,
    beq_eq_false_iff_ne]
  omega

/-- An id of a kind that a host may use. -/
structure Plain (id : String) : Prop where
  ne_empty : id ≠ ""
  length_le : id.length ≤ 64
  chars : ∀ c ∈ id.toList, isIdChar c = true

theorem Plain.trim_eq {id : String} (h : Plain id) : Text.trim id = id := by
  rw [Text.trim, Text.trimChars_eq_self fun c hc ↦ isBlank_of_isIdChar (h.chars c hc),
    String.ofList_toList]

/-- The canonical form of a plain id is plain. -/
theorem Plain.canonical {id : String} (h : Plain id) : Plain (canonical id) := by
  rw [GameId.canonical, h.trim_eq]
  cases Decimal.readInt64? id with
  | none => exact h
  | some n =>
    dsimp only
    refine ⟨Decimal.ofInt64_ne_empty n, (Decimal.length_ofInt64_le n).trans (by decide), ?_⟩
    intro c hc
    rw [Decimal.ofInt64, Decimal.toList_text] at hc
    exact isIdChar_of_mem_intChars hc

/-! ## Links -/

theorem toList_uri (scheme id : String) :
    (uri scheme id).toList = scheme.toList ++ ':' :: ("//games/".toList ++ id.toList) := by
  rw [uri, String.toList_append, String.toList_append, List.append_assoc]
  rfl

/-- The scheme of a link ends with the first colon. -/
theorem takeWhile_uri {scheme : String} (h : ':' ∉ scheme.toList) (id : String) :
    (uri scheme id).toList.takeWhile (· ≠ ':') = scheme.toList := by
  rw [toList_uri, List.takeWhile_append_of_pos, List.takeWhile_cons_of_neg (by simp),
    List.append_nil]
  intro c hc
  exact decide_eq_true (ne_of_mem_of_not_mem hc h)

/-- **One way to read a link.** A link is made of one scheme and one id only. -/
theorem uri_inj {scheme scheme' id id' : String} (h : ':' ∉ scheme.toList)
    (h' : ':' ∉ scheme'.toList) (hsame : uri scheme id = uri scheme' id') :
    scheme = scheme' ∧ id = id' := by
  have hscheme : scheme = scheme' := by
    rw [← String.toList_inj, ← takeWhile_uri h id, hsame, takeWhile_uri h' id']
  subst hscheme
  have hlists := congrArg String.toList hsame
  rw [toList_uri, toList_uri] at hlists
  have hrest := List.tail_eq_of_cons_eq (List.append_cancel_left hlists)
  exact ⟨rfl, String.toList_inj.mp (List.append_cancel_left hrest)⟩

end GameId

end GameBridge
