import GameBridge.Proofs.Json.Grammar
import GameBridge.Toml.Item
import Mathlib.Algebra.Order.Ring.Nat

/-!
# The spellings of TOML

One key or value has many spellings: a string may stand between quotes, where each of its characters
may be escaped, or between apostrophes, and a key may be a string or stand for itself. The relations
here say which spellings there are, without a word on how they are read. Every string has one.

The readers find a key or a value in each of its spellings, given what may come after it: nothing,
or one of the few characters that belong to neither (`Ended`). This is where a number ends, and it
keeps an empty string from being taken for the beginning of one over several lines.

An integer may have any number of digits here. One that does not fit within 64 bits is not read.
-/

namespace GameBridge.Toml

/-! ## Blanks and ends -/

/-- Blanks within a line, or none. -/
def Blanks (cs : List Char) : Prop := ∀ c ∈ cs, isBlank c = true

theorem blanks_nil : Blanks [] := fun _ hc ↦ absurd hc List.not_mem_nil

/-- The characters that can end a key or a value. -/
def enders : List Char := [' ', '\t', '#', '\n', '\r', '=', ']']

/-- What may come after a key or a value. -/
def Ended (rest : List Char) : Prop := ∀ c ∈ rest.head?, c ∈ enders

theorem Ended.head {rest : List Char} (h : Ended rest) {p : Char → Prop}
    (henders : enders.Forall p) : ∀ c ∈ rest.head?, p c :=
  fun c hc ↦ List.forall_iff_forall_mem.mp henders c (h c hc)

section Runs

variable {p : Char → Bool} {cs rest : List Char}

theorem dropWhile_run (hcs : ∀ c ∈ cs, p c = true) (hrest : ∀ c ∈ rest.head?, p c = false) :
    (cs ++ rest).dropWhile p = rest := by
  rw [List.dropWhile_append_of_pos hcs]
  cases rest with
  | nil => rfl
  | cons c rest => rw [List.dropWhile_cons_of_neg (by simp [hrest c rfl])]

theorem takeWhile_run (hcs : ∀ c ∈ cs, p c = true) (hrest : ∀ c ∈ rest.head?, p c = false) :
    (cs ++ rest).takeWhile p = cs := by
  rw [List.takeWhile_append_of_pos hcs]
  cases rest with
  | nil => exact List.append_nil cs
  | cons c rest => rw [List.takeWhile_cons_of_neg (by simp [hrest c rfl]), List.append_nil]

end Runs

theorem head_append {p : Char → Prop} {cs rest : List Char} (hcs : ∀ c ∈ cs, p c)
    (hrest : ∀ c ∈ rest.head?, p c) : ∀ c ∈ (cs ++ rest).head?, p c := by
  cases cs with
  | nil => exact hrest
  | cons c cs =>
    rintro d ⟨⟩
    exact hcs c List.mem_cons_self

theorem Ended.append {cs rest : List Char} (hcs : Blanks cs) (h : Ended rest) :
    Ended (cs ++ rest) := by
  refine head_append (fun c hc ↦ ?_) h
  have hblank := hcs c hc
  rw [isBlank, Bool.or_eq_true, beq_iff_eq, beq_iff_eq] at hblank
  rcases hblank with rfl | rfl <;> decide

theorem skipBlanks_append {cs rest : List Char} (hcs : Blanks cs)
    (hrest : ∀ c ∈ rest.head?, isBlank c = false) : skipBlanks (cs ++ rest) = rest :=
  dropWhile_run hcs hrest

/-! ## Strings -/

/-- A number as digits to base sixteen. -/
inductive CodeSpelling : Nat → List Char → Prop
  | nil : CodeSpelling 0 []
  | snoc {n : Nat} {cs : List Char} {d : Fin 16} {c : Char} (hcs : CodeSpelling n cs)
      (hc : Json.IsHexDigit d c) : CodeSpelling (n * 16 + d.val) (cs ++ [c])

/-- The letters of the escapes, and the characters that they stand for. -/
def escapes : List (Char × Char) :=
  [('"', '"'), ('\\', '\\'), ('b', '\x08'), ('t', '\t'), ('n', '\n'), ('f', '\x0c'), ('r', '\r')]

/-- How a character is written between quotes. -/
inductive CharSpelling : Char → List Char → Prop
  /-- As it is. -/
  | plain {c : Char} (hquote : c ≠ '"') (hbackslash : c ≠ '\\') (hprint : isPrintable c = true) :
      CharSpelling c [c]
  /-- By a letter. -/
  | named {letter c : Char} (h : (letter, c) ∈ escapes) : CharSpelling c ['\\', letter]
  /-- By four digits of its code. -/
  | short {c : Char} {hex : List Char} (h : CodeSpelling c.toNat hex) (hlength : hex.length = 4) :
      CharSpelling c ('\\' :: 'u' :: hex)
  /-- By eight digits of its code. -/
  | long {c : Char} {hex : List Char} (h : CodeSpelling c.toNat hex) (hlength : hex.length = 8) :
      CharSpelling c ('\\' :: 'U' :: hex)

/-- How the content of a string is written between quotes. -/
inductive ContentSpelling : List Char → List Char → Prop
  | nil : ContentSpelling [] []
  | cons {c : Char} {content cs rest : List Char} (hhead : CharSpelling c cs)
      (hrest : ContentSpelling content rest) : ContentSpelling (c :: content) (cs ++ rest)

/-- How a string is written. -/
inductive StringSpelling : String → List Char → Prop
  /-- Between quotes. -/
  | quoted {s : String} {cs : List Char} (h : ContentSpelling s.toList cs) :
      StringSpelling s ('"' :: cs ++ ['"'])
  /-- Between apostrophes, as it is. -/
  | literal {s : String} (h : ∀ c ∈ s.toList, c ≠ '\'' ∧ isPrintable c = true) :
      StringSpelling s ('\'' :: s.toList ++ ['\''])

/-- How a key is written. -/
inductive KeySpelling : String → List Char → Prop
  /-- As it is. -/
  | bare {key : String} (hne : key.toList ≠ []) (h : ∀ c ∈ key.toList, isKeyChar c = true) :
      KeySpelling key key.toList
  /-- As a string. -/
  | string {key : String} {cs : List Char} (h : StringSpelling key cs) : KeySpelling key cs

/-- A text without special characters can be written as it is. -/
theorem ContentSpelling.plain {cs : List Char}
    (h : ∀ c ∈ cs, c ≠ '"' ∧ c ≠ '\\' ∧ isPrintable c = true) : ContentSpelling cs cs := by
  induction cs with
  | nil => exact .nil
  | cons c rest ih =>
    obtain ⟨⟨hquote, hbackslash, hprint⟩, hrest⟩ := List.forall_mem_cons.mp h
    exact .cons (.plain hquote hbackslash hprint) (ih hrest)

theorem exists_codeSpelling {n k : Nat} (h : n < 16 ^ k) :
    ∃ cs, CodeSpelling n cs ∧ cs.length = k := by
  induction k generalizing n with
  | zero =>
    obtain rfl : n = 0 := Nat.lt_one_iff.mp h
    exact ⟨[], .nil, rfl⟩
  | succ k ih =>
    rw [Nat.pow_succ] at h
    obtain ⟨cs, hcs, hlength⟩ := ih (Nat.div_lt_of_lt_mul (Nat.mul_comm _ _ ▸ h))
    have hlast := CodeSpelling.snoc hcs (Or.inl rfl : Json.IsHexDigit (Fin.ofNat 16 n) _)
    rw [Fin.val_ofNat, Nat.div_add_mod'] at hlast
    exact ⟨_, hlast, by rw [List.length_append, hlength, List.length_singleton]⟩

/-- The code of a character fits into eight digits. -/
theorem exists_charSpelling (c : Char) : ∃ cs, CharSpelling c cs := by
  have hcode : c.toNat < 16 ^ 8 := (Text.toNat_lt c).trans (by decide)
  obtain ⟨hex, hhex, hlength⟩ := exists_codeSpelling hcode
  exact ⟨_, .long hhex hlength⟩

theorem exists_stringSpelling (s : String) : ∃ cs, StringSpelling s cs := by
  have hcontent : ∀ content : List Char, ∃ cs, ContentSpelling content cs := by
    intro content
    induction content with
    | nil => exact ⟨[], .nil⟩
    | cons c content ih =>
      obtain ⟨⟨cs, hcs⟩, ⟨rest, hrest⟩⟩ := And.intro (exists_charSpelling c) ih
      exact ⟨_, .cons hcs hrest⟩
  obtain ⟨cs, hcs⟩ := hcontent s.toList
  exact ⟨_, .quoted hcs⟩

/-! ## Reading strings -/

theorem hexNumber?_of_spelling {n : Nat} {cs : List Char} (h : CodeSpelling n cs) :
    hexNumber? cs = some n := by
  induction h with
  | nil => rfl
  | @snoc n cs d c hcs hc ih =>
    have hdigit : hexValue? c = some d.val := by
      rcases hc with rfl | rfl <;> revert d <;> decide
    rw [hexNumber?] at ih
    rw [hexNumber?, List.foldlM_append, ih]
    simp [hdigit]

/-- The code of a character stands for it. -/
theorem numberedChar?_of_spelling {c : Char} {hex : List Char} (h : CodeSpelling c.toNat hex) :
    numberedChar? hex = some c := by
  have hcode : c.toNat < 0xd800 ∨ (0xe000 ≤ c.toNat ∧ c.toNat < 0x110000) := by
    have hvalid := c.valid
    simp only [UInt32.isValidChar, Nat.isValidChar] at hvalid
    have hnat : c.toNat = c.val.toNat := rfl
    omega
  rw [numberedChar?, hexNumber?_of_spelling h, Option.bind_some, if_pos hcode, Char.ofNat_toNat]

theorem namedChar?_of_mem {letter c : Char} (h : (letter, c) ∈ escapes) :
    namedChar? letter = some c ∧ letter ≠ 'u' ∧ letter ≠ 'U' := by
  have hall : ∀ entry ∈ escapes,
      namedChar? entry.1 = some entry.2 ∧ entry.1 ≠ 'u' ∧ entry.1 ≠ 'U' := by decide
  exact hall _ h

/-- **A character** between quotes is read from each of its spellings. -/
theorem quoted?_of_charSpelling {c : Char} {cs : List Char} (h : CharSpelling c cs)
    (rest : List Char) :
    quoted? (cs ++ rest) = (quoted? rest).map fun (more, rest) ↦ (c :: more, rest) := by
  cases h with
  | plain hquote hbackslash hprint =>
    rw [List.singleton_append, quoted?]
    · rw [if_pos hprint]
      cases quoted? rest <;> rfl
    all_goals simp_all
  | @named letter _ hletter =>
    obtain ⟨hnamed, hshort, hlong⟩ := namedChar?_of_mem hletter
    rw [List.cons_append, List.singleton_append, quoted?]
    · rw [hnamed]
      cases quoted? rest <;> rfl
    all_goals simp_all
  | @short _ hex hcode hlength =>
    have hchar := numberedChar?_of_spelling hcode
    match hex, hlength with
    | [d₁, d₂, d₃, d₄], _ =>
      simp only [List.cons_append, List.nil_append, quoted?, hchar]
      cases quoted? rest <;> rfl
  | @long _ hex hcode hlength =>
    have hchar := numberedChar?_of_spelling hcode
    match hex, hlength with
    | [d₁, d₂, d₃, d₄, d₅, d₆, d₇, d₈], _ =>
      simp only [List.cons_append, List.nil_append, quoted?, hchar]
      cases quoted? rest <;> rfl

/-- The content of a string between quotes is read from each of its spellings. -/
theorem quoted?_of_contentSpelling {content cs : List Char} (h : ContentSpelling content cs)
    (rest : List Char) : quoted? (cs ++ '"' :: rest) = some (content, rest) := by
  induction h with
  | nil => rw [List.nil_append, quoted?]
  | @cons c content cs more hhead hrest ih =>
    rw [List.append_assoc, quoted?_of_charSpelling hhead, ih]
    rfl

theorem literal?_of_plain {cs : List Char} (h : ∀ c ∈ cs, c ≠ '\'' ∧ isPrintable c = true)
    (rest : List Char) : literal? (cs ++ '\'' :: rest) = some (cs, rest) := by
  induction cs with
  | nil => rw [List.nil_append, literal?]
  | cons c cs ih =>
    obtain ⟨⟨hmark, hprint⟩, hcs⟩ := List.forall_mem_cons.mp h
    rw [List.cons_append, literal?]
    · rw [if_pos hprint, ih hcs]
      rfl
    · exact hmark

/-- No spelling of the content of a string starts with a quote. -/
theorem ContentSpelling.head {content cs : List Char} (h : ContentSpelling content cs) :
    ∀ c ∈ cs.head?, c ≠ '"' := by
  cases h with
  | nil => simp
  | cons hhead hrest =>
    cases hhead with
    | plain hquote hbackslash hprint =>
      rintro d ⟨⟩
      exact hquote
    | named hletter =>
      rintro d ⟨⟩
      decide
    | short hcode hlength =>
      rintro d ⟨⟩
      decide
    | long hcode hlength =>
      rintro d ⟨⟩
      decide

/-- A string on one line does not begin with three marks, whether it is empty or not. -/
theorem ne_marks {mark : Char} {cs rest : List Char} (hcs : ∀ c ∈ cs.head?, c ≠ mark)
    (hrest : ∀ c ∈ rest.head?, c ≠ mark) (more : List Char) :
    cs ++ mark :: rest ≠ mark :: mark :: more := by
  intro heq
  cases cs with
  | nil => exact hrest mark (by rw [(List.cons.inj heq).2]; rfl) rfl
  | cons c cs => exact hcs c rfl (List.cons.inj heq).1

/-- **Strings** are read from each of their spellings. -/
theorem string?_of_spelling {s : String} {cs rest : List Char} (h : StringSpelling s cs)
    (hrest : Ended rest) : string? (cs ++ rest) = some (s, rest) := by
  cases h with
  | quoted hcontent =>
    have hmarks := ne_marks hcontent.head
      (hrest.head (by decide : enders.Forall (· ≠ '"')))
    rw [List.append_assoc, List.singleton_append, List.cons_append, string?]
    · rw [quoted?_of_contentSpelling hcontent, Option.map_some]
      simp only [String.ofList_toList]
    · exact hmarks
  | literal hplain =>
    have hhead : ∀ c ∈ s.toList.head?, c ≠ '\'' :=
      fun c hc ↦ (hplain c (List.mem_of_mem_head? hc)).1
    have hmarks := ne_marks hhead (hrest.head (by decide : enders.Forall (· ≠ '\'')))
    rw [List.append_assoc, List.singleton_append, List.cons_append, string?]
    · rw [literal?_of_plain hplain, Option.map_some]
      simp only [String.ofList_toList]
    · exact hmarks

/-! ## Reading keys -/

/-- How a spelling of a key begins. -/
def isKeyStart (c : Char) : Bool := isKeyChar c || c == '"' || c == '\''

theorem isBlank_of_isKeyStart {c : Char} (h : isKeyStart c = true) : isBlank c = false := by
  by_contra hblank
  rw [Bool.not_eq_false, isBlank, Bool.or_eq_true, beq_iff_eq, beq_iff_eq] at hblank
  rcases hblank with rfl | rfl <;> exact absurd h (by decide)

theorem KeySpelling.exists_cons {key : String} {cs : List Char} (h : KeySpelling key cs) :
    ∃ c rest, cs = c :: rest ∧ isKeyStart c = true := by
  cases h with
  | bare hne hchars =>
    obtain ⟨c, rest, heq⟩ := List.exists_cons_of_ne_nil hne
    exact ⟨c, rest, heq, by simp [isKeyStart, hchars c (heq ▸ List.mem_cons_self)]⟩
  | string hstring =>
    cases hstring with
    | quoted hcontent => exact ⟨_, _, rfl, by decide⟩
    | literal hplain => exact ⟨_, _, rfl, by decide⟩

theorem keyPart?_of_spelling {key : String} {cs rest : List Char} (h : KeySpelling key cs)
    (hrest : Ended rest) : keyPart? (cs ++ rest) = some (key, rest) := by
  cases h with
  | bare hne hchars =>
    have hend := hrest.head (by decide : enders.Forall (isKeyChar · = false))
    have hhead : ∀ c ∈ (key.toList ++ rest).head?, isKeyChar c = true := by
      intro c hc
      rw [List.head?_append_of_ne_nil _ hne] at hc
      exact hchars c (List.mem_of_mem_head? hc)
    rw [keyPart?]
    · rw [takeWhile_run hchars hend, dropWhile_run hchars hend, if_neg hne, String.ofList_toList]
    · intro more heq
      exact absurd (hhead '"' (by rw [heq]; rfl)) (by decide)
    · intro more heq
      exact absurd (hhead '\'' (by rw [heq]; rfl)) (by decide)
  | string hstring =>
    cases hstring with
    | quoted hcontent =>
      rw [List.append_assoc, List.singleton_append, List.cons_append, keyPart?,
        quoted?_of_contentSpelling hcontent, Option.map_some]
      simp only [String.ofList_toList]
    | literal hplain =>
      rw [List.append_assoc, List.singleton_append, List.cons_append, keyPart?,
        literal?_of_plain hplain, Option.map_some]
      simp only [String.ofList_toList]

/-- **Keys** are read from each of their spellings, with the blanks around them. -/
theorem key?_of_spelling {key : String} {front cs back rest : List Char} (hfront : Blanks front)
    (h : KeySpelling key cs) (hback : Blanks back) (hrest : Ended rest)
    (hblank : ∀ c ∈ rest.head?, isBlank c = false) :
    key? (front ++ (cs ++ (back ++ rest))) = some ([key], rest) := by
  have hstart : ∀ c ∈ (cs ++ (back ++ rest)).head?, isBlank c = false := by
    obtain ⟨c, more, rfl, hstart⟩ := h.exists_cons
    rintro d ⟨⟩
    exact isBlank_of_isKeyStart hstart
  have hdot := hrest.head (by decide : enders.Forall (· ≠ '.'))
  rw [key?, maxDepth, keyParts?, skipBlanks_append hfront hstart,
    keyPart?_of_spelling h (hrest.append hback), Option.bind_eq_bind, Option.bind_some]
  simp only [skipBlanks_append hback hblank]
  split
  · exact absurd rfl (hdot '.' rfl)
  · rfl

/-! ## Reading integers -/

theorem moreDigits?_run {p : Char → Bool} {ds rest : List Char} (hds : ∀ c ∈ ds, p c = true)
    (hmark : p '_' = false) (hrest : ∀ c ∈ rest.head?, p c = false ∧ c ≠ '_') :
    moreDigits? p (ds ++ rest) = some (ds, rest) := by
  induction ds with
  | nil =>
    rw [List.nil_append]
    cases rest with
    | nil => rw [moreDigits?]
    | cons c rest =>
      obtain ⟨hdigit, hne⟩ := hrest c rfl
      rw [moreDigits?]
      · simp [hdigit]
      all_goals simp_all
  | cons d ds ih =>
    obtain ⟨hd, hds⟩ := List.forall_mem_cons.mp hds
    have hne : d ≠ '_' := by
      rintro rfl
      exact absurd hd (by simp [hmark])
    rw [List.cons_append, moreDigits?]
    · rw [if_pos hd, ih hds]
      rfl
    all_goals simp_all

theorem digits?_run {p : Char → Bool} {ds rest : List Char} (hne : ds ≠ [])
    (hds : ∀ c ∈ ds, p c = true) (hmark : p '_' = false)
    (hrest : ∀ c ∈ rest.head?, p c = false ∧ c ≠ '_') :
    digits? p (ds ++ rest) = some (ds, rest) := by
  cases ds with
  | nil => exact absurd rfl hne
  | cons d ds =>
    obtain ⟨hd, hds⟩ := List.forall_mem_cons.mp hds
    rw [List.cons_append, digits?, if_pos hd, moreDigits?_run hds hmark hrest]
    rfl

theorem ofDigits_ten {ds : List Char} (h : ∀ c ∈ ds, c.isDigit = true) :
    ofDigits 10 ds = Nat.ofDigitChars 10 ds 0 := by
  rw [ofDigits, Nat.ofDigitChars]
  refine List.foldl_ext _ _ 0 fun n c hc ↦ ?_
  rw [if_pos (h c hc), Nat.mul_comm]
  rfl

theorem natChars_cases (n : Nat) :
    Decimal.natChars n = ['0'] ∨ ∃ c cs, Decimal.natChars n = c :: cs ∧ c ≠ '0' := by
  rw [Json.natChars_eq_digitChars]
  obtain ⟨-, hzero⟩ | ⟨d, rest, hd, hdigits⟩ := Json.digits_cases n
  · rw [hzero]
    exact Or.inl rfl
  · have hchar : ∀ d : Json.Digit, d ≠ 0 → Nat.digitChar d.val ≠ '0' := by decide
    rw [hdigits]
    exact Or.inr ⟨_, _, rfl, hchar d hd⟩

section Integers

variable {rest : List Char}

theorem Ended.digits (h : Ended rest) :
    ∀ c ∈ rest.head?, c.isDigit = false ∧ c ≠ '_' :=
  h.head (by decide)

theorem digits?_natChars (n : Nat) (h : Ended rest) :
    digits? Char.isDigit (Decimal.natChars n ++ rest) = some (Decimal.natChars n, rest) :=
  digits?_run (Decimal.natChars_ne_nil n) (fun _ ↦ Decimal.isDigit_of_mem_natChars) (by decide)
    h.digits

theorem whole?_natChars (n : Nat) (h : Ended rest) :
    whole? (Decimal.natChars n ++ rest) = some (Decimal.natChars n, rest) := by
  obtain hzero | ⟨c, cs, hcons, hc⟩ := natChars_cases n
  · rw [hzero]
    rfl
  · have hdigits := digits?_natChars n h
    rw [hcons, List.cons_append] at hdigits ⊢
    rw [whole?]
    · exact hdigits
    · exact fun _ heq ↦ hc (List.cons.inj heq).1

theorem fraction?_of_ended (h : Ended rest) : fraction? rest = some ([], rest) := by
  rw [fraction?]
  intro more heq
  exact h.head (by decide : enders.Forall (· ≠ '.')) '.' (by rw [heq]; rfl) rfl

theorem power?_of_ended (h : Ended rest) : power? rest = some ([], rest) := by
  cases rest with
  | nil => rfl
  | cons c rest =>
    have hmark := h.head (by decide : enders.Forall fun c ↦ ¬(c = 'e' ∨ c = 'E')) c rfl
    simp only [power?, if_neg hmark]

/-- What starts with a digit does not start with a character that is none. -/
theorem natChars_append_ne (n : Nat) {c : Char} (hc : c.isDigit = false) (more : List Char) :
    Decimal.natChars n ++ rest ≠ c :: more := by
  intro heq
  obtain ⟨d, ds, hcons⟩ := List.exists_cons_of_ne_nil (Decimal.natChars_ne_nil n)
  rw [hcons, List.cons_append] at heq
  have hdigit :=
    Decimal.isDigit_of_mem_natChars (hcons ▸ List.mem_cons_self : d ∈ Decimal.natChars n)
  rw [(List.cons.inj heq).1, hc] at hdigit
  exact absurd hdigit (by decide)

theorem unsigned?_natChars (negative : Bool) (n : Nat) (h : Ended rest) :
    unsigned? negative (Decimal.natChars n ++ rest)
      = (int64? (if negative then -(n : Int) else n)).map fun i ↦ (.int i, rest) := by
  have hvalue : ofDigits 10 (Decimal.natChars n) = n :=
    (ofDigits_ten fun c hc ↦ Decimal.isDigit_of_mem_natChars hc).trans Nat.ofDigitChars_ten_toDigits
  rw [unsigned?]
  · simp only [whole?_natChars n h, fraction?_of_ended h, power?_of_ended h, hvalue,
      Option.bind_eq_bind, Option.bind_some, and_self, if_true]
    cases int64? (if negative = true then -(n : Int) else n) <;> rfl
  · exact fun _ ↦ natChars_append_ne n (by decide) _
  · exact fun _ ↦ natChars_append_ne n (by decide) _

theorem number?_natChars (n : Nat) (h : Ended rest) :
    number? (Decimal.natChars n ++ rest) = unsigned? false (Decimal.natChars n ++ rest) := by
  have hbase : ∀ c ∈ ['x', 'o', 'b'], ∀ more, Decimal.natChars n ++ rest ≠ '0' :: c :: more := by
    intro c hc more heq
    obtain hzero | ⟨d, ds, hcons, hd⟩ := natChars_cases n
    · rw [hzero] at heq
      have hrest : rest = c :: more := (List.cons.inj heq).2
      exact h.head (by decide : enders.Forall (· ∉ ['x', 'o', 'b'])) c (by rw [hrest]; rfl) hc
    · rw [hcons] at heq
      exact hd (List.cons.inj heq).1
  rw [number?]
  · exact hbase 'x' (by decide)
  · exact hbase 'o' (by decide)
  · exact hbase 'b' (by decide)
  · exact natChars_append_ne n (by decide)
  · exact natChars_append_ne n (by decide)

/-- **Integers** are read from their digits if they have 64 bits. -/
theorem number?_intChars (i : Int) (h : Ended rest) :
    number? (Decimal.intChars i ++ rest) = (int64? i).map fun i ↦ (.int i, rest) := by
  cases i with
  | ofNat n =>
    rw [Decimal.intChars, number?_natChars n h, unsigned?_natChars false n h]
    rfl
  | negSucc n =>
    rw [Decimal.intChars, List.cons_append, number?, unsigned?_natChars true (n + 1) h]
    rfl

/-! ## Integers are no dates and no times -/

theorem expect?_eq_none {c : Char} {cs : List Char} (h : ∀ d ∈ cs.head?, d ≠ c) :
    expect? c cs = none := by
  cases cs with
  | nil => rfl
  | cons d cs => rw [expect?, if_neg (h d rfl)]

/-- After some of the digits in front there is another one, or what follows them. -/
theorem expect?_of_fixed? {count : Nat} {ds cs : List Char} {n : Nat}
    (hds : ∀ c ∈ ds, c.isDigit = true) (h : Ended rest)
    (hfixed : fixed? count (ds ++ rest) = some (n, cs)) {c : Char} (hc : c ∈ ['-', ':']) :
    expect? c cs = none := by
  obtain ⟨⟨hlength, hall⟩, hcs⟩ := Option.ite_none_right_eq_some.mp hfixed
  obtain ⟨-, rfl⟩ := Prod.mk.inj (Option.some.inj hcs)
  have hcount : count ≤ ds.length := by
    by_contra hlt
    rw [not_le] at hlt
    cases rest with
    | nil =>
      rw [List.length_take, List.append_nil] at hlength
      omega
    | cons r rest =>
      have hmem : r ∈ (ds ++ r :: rest).take count := by
        rw [List.take_append, List.take_cons (by omega)]
        exact List.mem_append_right _ List.mem_cons_self
      exact absurd (List.all_eq_true.mp hall r hmem) (by simp [(h.digits r rfl).1])
  apply expect?_eq_none
  rw [List.drop_append_of_le_length hcount]
  intro d hd
  cases hdrop : ds.drop count with
  | nil =>
    rw [hdrop] at hd
    rintro rfl
    exact h.head (by decide : enders.Forall (· ∉ ['-', ':'])) d hd hc
  | cons e es =>
    rw [hdrop] at hd
    obtain rfl := Option.some.inj hd
    have hdigit := hds e (List.mem_of_mem_drop (hdrop ▸ List.mem_cons_self))
    have hnone : ∀ c ∈ ['-', ':'], c.isDigit = false :=
      List.forall_iff_forall_mem.mp (by decide)
    intro heq
    rw [heq, hnone c hc] at hdigit
    exact absurd hdigit (by decide)

/-- Dates and times begin with digits and a mark after them. -/
theorem moment?_eq_none {cs : List Char} (h : ∀ count n rest, count ≠ 0 →
      fixed? count cs = some (n, rest) → ∀ c ∈ ['-', ':'], expect? c rest = none) :
    moment? cs = none := by
  have hdate : date? cs = none := by
    rw [date?]
    cases hfixed : fixed? 4 cs with
    | none => rfl
    | some read =>
      have hmark := h 4 read.1 read.2 (by decide) hfixed '-' (by decide)
      simp only [Option.bind_eq_bind, Option.bind_some, hmark, Option.bind_none]
  have htime : time? cs = none := by
    rw [time?]
    cases hfixed : fixed? 2 cs with
    | none => rfl
    | some read =>
      have hmark := h 2 read.1 read.2 (by decide) hfixed ':' (by decide)
      simp only [Option.bind_eq_bind, Option.bind_some, hmark, Option.bind_none]
  rw [moment?, hdate, htime]

theorem moment?_intChars (i : Int) (h : Ended rest) :
    moment? (Decimal.intChars i ++ rest) = none := by
  apply moment?_eq_none
  intro count n read hcount hfixed c hc
  cases i with
  | ofNat m => exact expect?_of_fixed? (fun _ ↦ Decimal.isDigit_of_mem_natChars) h hfixed hc
  | negSucc m =>
    -- there is no digit in front
    obtain ⟨k, rfl⟩ := Nat.exists_eq_succ_of_ne_zero hcount
    obtain ⟨⟨-, hall⟩, -⟩ := Option.ite_none_right_eq_some.mp hfixed
    exact absurd (List.all_eq_true.mp hall '-' List.mem_cons_self) (by decide)

end Integers

/-! ## Values -/

/-- A value that holds no others. The integers are all there are. -/
inductive Scalar where
  | text (value : String)
  | int (value : Int)
  | bool (value : Bool)
deriving DecidableEq, Repr

/-- How a value is written. -/
inductive Scalar.Spelling : Scalar → List Char → Prop
  | text {s : String} {cs : List Char} (h : StringSpelling s cs) : Spelling (.text s) cs
  | int (i : Int) : Spelling (.int i) (Decimal.intChars i)
  | true : Spelling (.bool true) ['t', 'r', 'u', 'e']
  | false : Spelling (.bool false) ['f', 'a', 'l', 's', 'e']

/-- What is read of a value: an integer needs to have 64 bits. -/
def Scalar.item? : Scalar → Option Item
  | text s => some (.text s)
  | int i => (int64? i).map .int
  | bool b => some (.bool b)

/-- What is read of a value is of the same kind. -/
theorem Scalar.cases_of_item? {value : Scalar} {item : Item} (h : value.item? = some item) :
    (∃ s, value = .text s ∧ item = .text s) ∨ (∃ i n, value = .int i ∧ item = .int n)
      ∨ ∃ b, value = .bool b ∧ item = .bool b := by
  cases value with
  | text s => exact Or.inl ⟨s, rfl, (Option.some.inj h).symm⟩
  | int i =>
    obtain ⟨n, -, rfl⟩ := Option.map_eq_some_iff.mp h
    exact Or.inr (Or.inl ⟨i, n, rfl, rfl⟩)
  | bool b => exact Or.inr (Or.inr ⟨b, rfl, (Option.some.inj h).symm⟩)

theorem scalar?_intChars (i : Int) {rest : List Char} (h : Ended rest) :
    scalar? (Decimal.intChars i ++ rest) = (int64? i).map fun n ↦ (.int n, rest) := by
  have hhead : ∀ c more, c.isDigit = false → c ≠ '-' →
      Decimal.intChars i ++ rest ≠ c :: more := by
    intro c more hdigit hminus
    cases i with
    | ofNat n => exact natChars_append_ne n hdigit more
    | negSucc n => exact fun heq ↦ hminus (List.cons.inj heq).1.symm
  rw [scalar?]
  · rw [moment?_intChars i h, number?_intChars i h]
    cases int64? i <;> rfl
  all_goals exact fun _ ↦ hhead _ _ (by decide) (by decide)

/-- A spelling of a value that holds no others begins with no blank and with no bracket. -/
theorem Scalar.exists_cons_of_spelling {scalar : Scalar} {cs : List Char}
    (h : scalar.Spelling cs) :
    ∃ c rest, cs = c :: rest ∧ isBlank c = false ∧ c ≠ '[' ∧ c ≠ '{' := by
  cases h with
  | text hstring =>
    cases hstring with
    | quoted hcontent => exact ⟨_, _, rfl, by decide⟩
    | literal hplain => exact ⟨_, _, rfl, by decide⟩
  | int i =>
    cases i with
    | ofNat n =>
      obtain ⟨d, ds, hcons⟩ := List.exists_cons_of_ne_nil (Decimal.natChars_ne_nil n)
      have hdigit : d.isDigit = true :=
        Decimal.isDigit_of_mem_natChars (hcons ▸ List.mem_cons_self : d ∈ Decimal.natChars n)
      have hnone : ∀ c ∈ [' ', '\t', '[', '{'], c.isDigit = false :=
        List.forall_iff_forall_mem.mp (by decide)
      have hne : ∀ c ∈ [' ', '\t', '[', '{'], d ≠ c := by
        rintro c hc rfl
        exact absurd (hnone d hc) (by simp [hdigit])
      refine ⟨d, ds, hcons, ?_, hne _ (by decide), hne _ (by decide)⟩
      rw [isBlank, beq_eq_false_iff_ne.mpr (hne ' ' (by decide)),
        beq_eq_false_iff_ne.mpr (hne '\t' (by decide))]
      rfl
    | negSucc n => exact ⟨_, _, rfl, by decide⟩
  | true => exact ⟨_, _, rfl, by decide⟩
  | false => exact ⟨_, _, rfl, by decide⟩

theorem scalar?_of_spelling {scalar : Scalar} {cs rest : List Char} (h : scalar.Spelling cs)
    (hrest : Ended rest) :
    scalar? (cs ++ rest) = scalar.item?.map fun item ↦ (item, rest) := by
  cases h with
  | text hstring =>
    have hread := string?_of_spelling hstring hrest
    cases hstring with
    | quoted hcontent =>
      rw [List.cons_append, List.cons_append] at hread ⊢
      rw [scalar?, hread]
      rfl
    | literal hplain =>
      rw [List.cons_append, List.cons_append] at hread ⊢
      rw [scalar?, hread]
      rfl
  | int i =>
    rw [scalar?_intChars i hrest, Scalar.item?, Option.map_map]
    rfl
  | true => rfl
  | false => rfl

theorem value?_eq_scalar? (fuel depth : Nat) {c : Char} (rest : List Char) (hbracket : c ≠ '[')
    (hbrace : c ≠ '{') : value? fuel depth (c :: rest) = scalar? (c :: rest) := by
  cases depth with
  | zero =>
    rw [value?]
    all_goals simp_all
  | succ depth =>
    rw [value?]
    all_goals simp_all

/-- **Values** are read from each of their spellings. -/
theorem value?_of_spelling {scalar : Scalar} {cs rest : List Char} (h : scalar.Spelling cs)
    (hrest : Ended rest) (fuel : Nat) :
    value? fuel maxDepth (cs ++ rest) = scalar.item?.map fun item ↦ (item, rest) := by
  rw [← scalar?_of_spelling h hrest]
  obtain ⟨c, more, rfl, -, hbracket, hbrace⟩ := Scalar.exists_cons_of_spelling h
  exact value?_eq_scalar? fuel maxDepth (more ++ rest) hbracket hbrace

end GameBridge.Toml
