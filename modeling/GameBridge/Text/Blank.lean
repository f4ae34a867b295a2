/-!
# White space and trimming

Ids, titles and stored numbers are read after the white space around them is taken off. White
space here is the `White_Space` property of Unicode, which is wider than the blanks of ASCII:
no-break and ideographic spaces count, a zero-width space does not.
-/

namespace GameBridge.Text

/-- The characters with the property `White_Space`. -/
def isBlank (c : Char) : Bool :=
  let n := c.toNat
  (0x09 ≤ n && n ≤ 0x0d) || n == 0x20 || n == 0x85 || n == 0xa0 || n == 0x1680
    || (0x2000 ≤ n && n ≤ 0x200a) || n == 0x2028 || n == 0x2029 || n == 0x202f || n == 0x205f
    || n == 0x3000

/-- The characters without the blanks at either end. -/
def trimChars (cs : List Char) : List Char :=
  ((cs.dropWhile isBlank).reverse.dropWhile isBlank).reverse

/-- The text without the white space at either end. -/
def trim (s : String) : String := String.ofList (trimChars s.toList)

@[simp] theorem toList_trim (s : String) : (trim s).toList = trimChars s.toList :=
  String.toList_ofList

private theorem isBlank_of_mem_takeWhile {c : Char} {cs : List Char}
    (h : c ∈ cs.takeWhile isBlank) : isBlank c = true := by
  induction cs with
  | nil => simp at h
  | cons d rest ih =>
    rw [List.takeWhile_cons] at h
    split at h
    · rename_i hd
      rcases List.mem_cons.mp h with rfl | h
      · exact hd
      · exact ih h
    · simp at h

/-- Trimming takes blanks off the front and the back and leaves what lies between. -/
theorem exists_eq_append_trimChars (cs : List Char) :
    ∃ front back : List Char, cs = front ++ trimChars cs ++ back
      ∧ (∀ c ∈ front, isBlank c = true) ∧ ∀ c ∈ back, isBlank c = true := by
  refine ⟨cs.takeWhile isBlank, ((cs.dropWhile isBlank).reverse.takeWhile isBlank).reverse,
    ?_, fun c h ↦ isBlank_of_mem_takeWhile h, fun c h ↦ ?_⟩
  · have h := (cs.dropWhile isBlank).reverse.takeWhile_append_dropWhile (p := isBlank)
    have h' := congrArg List.reverse h
    rw [List.reverse_append, List.reverse_reverse] at h'
    rw [trimChars, List.append_assoc, h']
    exact List.takeWhile_append_dropWhile.symm
  · exact isBlank_of_mem_takeWhile (List.mem_reverse.mp h)

end GameBridge.Text
