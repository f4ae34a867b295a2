import GameBridge.Proofs.Json.Strings

/-!
# Written values on one line

Whatever is written as JSON stands on one line: no part of it holds a control character, and then
none of its bytes is that of a line break.
-/

namespace GameBridge.Json

/-! ## Texts without control characters -/

/-- A text without the control characters below the blank. -/
def Plain (cs : List Char) : Prop := ∀ c ∈ cs, ¬c.toNat < 0x20

-- decided along the list: search would find the instance that goes through all characters
instance (cs : List Char) : Decidable (Plain cs) :=
  List.decidableBAll (fun c : Char ↦ ¬c.toNat < 0x20) cs

namespace Plain

variable {cs ds : List Char}

theorem cons {c : Char} (hc : ¬c.toNat < 0x20) (h : Plain cs) : Plain (c :: cs) :=
  List.forall_mem_cons.mpr ⟨hc, h⟩

theorem append (hc : Plain cs) (hd : Plain ds) : Plain (cs ++ ds) := fun c hmem ↦
  (List.mem_append.mp hmem).elim (hc c) (hd c)

theorem mono (h : Plain cs) (hsub : ds ⊆ cs) : Plain ds := fun c hc ↦ h c (hsub hc)

/-- A text without control characters has no bytes of such. -/
theorem not_lt_of_mem (h : Plain cs) {b : UInt8} (hb : b ∈ cs.flatMap Text.charBytes) :
    ¬b < 0x20 := by
  obtain ⟨c, hc, hb⟩ := List.mem_flatMap.mp hb
  rcases Decidable.em (c = '"') with rfl | hquote
  · rw [List.mem_singleton.mp hb]
    decide
  rcases Decidable.em (c = '\\') with rfl | hbackslash
  · rw [List.mem_singleton.mp hb]
    decide
  exact (plain_of_mem_charBytes hquote hbackslash (h c hc) b hb).2.2

end Plain

theorem plain_digits (n : Nat) : Plain (Nat.toDigits 10 n) := by
  intro c hc hlow
  have hdigit := Nat.isDigit_of_mem_toDigits (by decide) (by decide) hc
  rw [Char.isDigit, Bool.and_eq_true, decide_eq_true_iff, decide_eq_true_iff] at hdigit
  have hhigh : 48 ≤ c.toNat := hdigit.1
  omega

theorem plain_replicate (n : Nat) : Plain (List.replicate n '0') := by
  intro c hc
  rw [(List.mem_replicate.mp hc).2]
  decide

theorem plain_intChars (i : Int) : Plain (Decimal.intChars i) := by
  rcases i with n | n
  · exact plain_digits n
  · exact (plain_digits (n + 1)).cons (by decide)

theorem plain_renderDigits {digits : List Char} (h : Plain digits) (point : Int) :
    Plain (Binary64.renderDigits digits point) := by
  have htake : ∀ n, Plain (digits.take n) := fun n ↦ h.mono (List.take_subset n digits)
  have hdrop : ∀ n, Plain (digits.drop n) := fun n ↦ h.mono (List.drop_subset n digits)
  rw [Binary64.renderDigits]
  split_ifs
  · exact (h.append (plain_replicate _)).append (by decide)
  · exact (htake _).append ((hdrop _).cons (by decide))
  · exact (((plain_replicate _).cons (by decide)).cons (by decide)).append h
  all_goals
    refine .append (.append (htake 1) ?_) (.cons (by decide) (.cons ?_ (plain_digits _)))
  · decide
  · split <;> decide
  · exact (hdrop 1).cons (by decide)
  · split <;> decide

theorem plain_floatChars (x : Binary64) : Plain x.chars := by
  have hsign : Plain (if x.negative then ['-'] else []) := by
    split <;> decide
  rw [Binary64.chars]
  split
  · exact hsign.append (by decide)
  · exact hsign.append (plain_renderDigits (plain_digits _) _)

/-- Whatever a string holds, it is written without control characters. -/
theorem plain_stringChars (s : String) : Plain (stringChars s) := by
  have hescape : ∀ c, Plain (escapeChar c) := by
    intro c
    obtain hnamed | ⟨-, hescape⟩ | ⟨-, -, hcontrol, hescape⟩ := escapeChar_cases c
    · simp only [named, List.mem_cons, List.not_mem_nil, or_false] at hnamed
      rcases hnamed with rfl | rfl | rfl | rfl | rfl | rfl | rfl <;> decide
    · have hhex : ∀ m < 16, ¬(Nat.digitChar m).toNat < 0x20 := by decide
      have hchar : ∀ n, ¬(hexChar n).toNat < 0x20 := fun n ↦ hhex _ (Nat.mod_lt n (by decide))
      have hstart : Plain ['\\', 'u', '0', '0'] := by decide
      rw [hescape]
      exact hstart.append (.cons (hchar _) (.cons (hchar _) (by decide)))
    · rw [hescape]
      exact .cons hcontrol (by decide)
  have hall : Plain (s.toList.flatMap escapeChar) := by
    intro c hc
    obtain ⟨d, -, hc⟩ := List.mem_flatMap.mp hc
    exact hescape d c hc
  exact (hall.cons (by decide)).append (by decide)

namespace Value

mutual

/-- A value is written without control characters, so on one line. -/
theorem plain_chars (v : Value) : Plain v.chars := by
  match v with
  | .null => decide
  | .bool true => decide
  | .bool false => decide
  | .int n => exact plain_intChars n.val
  | .float x => exact plain_floatChars x
  | .str s => exact plain_stringChars s
  | .arr [] => decide
  | .arr (item :: rest) =>
    rw [chars]
    exact ((plain_chars item).cons (by decide)).append (plain_moreItems rest)
  | .obj [] => decide
  | .obj ((name, value) :: rest) =>
    rw [chars]
    exact (((plain_stringChars name).cons (by decide)).append
      ((plain_chars value).cons (by decide))).append (plain_moreMembers rest)

theorem plain_moreItems (items : List Value) : Plain (moreItems items) := by
  match items with
  | [] => decide
  | item :: rest =>
    rw [moreItems]
    exact ((plain_chars item).cons (by decide)).append (plain_moreItems rest)

theorem plain_moreMembers (members : List (String × Value)) : Plain (moreMembers members) := by
  match members with
  | [] => decide
  | (name, value) :: rest =>
    rw [moreMembers]
    exact (((plain_stringChars name).cons (by decide)).append
      ((plain_chars value).cons (by decide))).append (plain_moreMembers rest)

end

end Value

end GameBridge.Json
