/-!
# Integers as decimal text

Integers are written with the digits `0` to `9`, no leading zero, and a minus sign when negative.
Reading is more lenient: any number of leading zeros and either sign are accepted. The two agree
in that every written integer is read back.

Machine integers are written through their value, and read with a check of their range.
-/

namespace GameBridge.Decimal

/-! ## Writing -/

/-- The decimal digits of a natural number. -/
def natChars (n : Nat) : List Char := Nat.toDigits 10 n

/-- The decimal digits of an integer, after a minus sign if it is negative. -/
def intChars : Int → List Char
  | .ofNat n => natChars n
  | .negSucc n => '-' :: natChars (n + 1)

/-- An integer as decimal text. -/
def text (i : Int) : String := String.ofList (intChars i)

/-- A 64-bit signed integer as decimal text. -/
def ofInt64 (n : Int64) : String := text n.toInt

/-- A 64-bit unsigned integer as decimal text. -/
def ofUInt64 (n : UInt64) : String := text n.toNat

@[simp] theorem toList_text (i : Int) : (text i).toList = intChars i := String.toList_ofList

/-! ## Reading -/

/-- The number that a non-empty run of digits denotes. -/
def readNat? (cs : List Char) : Option Nat :=
  if cs ≠ [] ∧ cs.all Char.isDigit then some (Nat.ofDigitChars 10 cs 0) else none

/-- The integer that digits after an optional sign denote. -/
def readInt? : List Char → Option Int
  | '-' :: cs => (readNat? cs).map fun n ↦ -(n : Int)
  | '+' :: cs => (readNat? cs).map fun n ↦ (n : Int)
  | cs => (readNat? cs).map fun n ↦ (n : Int)

/-- The 64-bit signed integer that a text denotes, if it denotes an integer in range. -/
def readInt64? (s : String) : Option Int64 :=
  (readInt? s.toList).bind fun i ↦
    if Int64.minValue.toInt ≤ i ∧ i ≤ Int64.maxValue.toInt then some (Int64.ofInt i) else none

/-! ## Reading what was written -/

theorem isDigit_of_mem_natChars {n : Nat} {c : Char} (h : c ∈ natChars n) : c.isDigit = true :=
  Nat.isDigit_of_mem_toDigits (by decide) (by decide) h

theorem natChars_ne_nil (n : Nat) : natChars n ≠ [] := Nat.toDigits_ne_nil

theorem readNat?_natChars (n : Nat) : readNat? (natChars n) = some n := by
  have hall : (natChars n).all Char.isDigit = true :=
    List.all_eq_true.mpr fun c h ↦ isDigit_of_mem_natChars h
  rw [readNat?, if_pos ⟨natChars_ne_nil n, hall⟩]
  exact congrArg some Nat.ofDigitChars_ten_toDigits

/-- A list of digits starts with no sign. -/
theorem readInt?_of_readNat? {cs : List Char} {n : Nat} (h : readNat? cs = some n) :
    readInt? cs = some (n : Int) := by
  cases cs with
  | nil => simp [readNat?] at h
  | cons c rest =>
    have hd : c.isDigit = true := by
      rw [readNat?] at h
      split at h
      · rename_i hcs
        exact List.all_eq_true.mp hcs.2 c List.mem_cons_self
      · exact absurd h (by simp)
    have hminus : c ≠ '-' := by rintro rfl; exact absurd hd (by decide)
    have hplus : c ≠ '+' := by rintro rfl; exact absurd hd (by decide)
    unfold readInt?
    split
    · rename_i heq
      exact absurd (List.cons.inj heq).1 hminus
    · rename_i heq
      exact absurd (List.cons.inj heq).1 hplus
    · rw [h]; rfl

/-- **Round trip.** Reading a written integer gives it back. -/
theorem readInt?_intChars (i : Int) : readInt? (intChars i) = some i := by
  cases i with
  | ofNat n => exact readInt?_of_readNat? (readNat?_natChars n)
  | negSucc n =>
    show (readNat? (natChars (n + 1))).map (fun m ↦ -(m : Int)) = some (Int.negSucc n)
    rw [readNat?_natChars]
    rfl

theorem readInt64?_ofInt64 (n : Int64) : readInt64? (ofInt64 n) = some n := by
  rw [readInt64?, ofInt64, toList_text, readInt?_intChars, Option.bind_some,
    if_pos ⟨Int64.minValue_le_toInt n, Int64.toInt_le n⟩, Int64.ofInt_toInt]

/-- Different integers are written differently. -/
theorem text_injective {i j : Int} (h : text i = text j) : i = j := by
  have hl : intChars i = intChars j := by rw [← toList_text, ← toList_text, h]
  have := readInt?_intChars i
  rw [hl, readInt?_intChars] at this
  exact (Option.some.inj this).symm

theorem ofInt64_injective {m n : Int64} (h : ofInt64 m = ofInt64 n) : m = n :=
  Int64.toInt_inj.mp (text_injective h)

end GameBridge.Decimal
