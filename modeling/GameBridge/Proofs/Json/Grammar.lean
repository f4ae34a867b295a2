import GameBridge.Proofs.Json.Values
import Mathlib.Data.List.Chain

/-!
# The texts of a document

One document has many texts. There may be white space between its tokens, the characters of a string
may be escaped in several ways, and the power of a number begins with a small or a large letter.
`Document.Writes` says which texts these are, from the tokens of the document down to the single
characters and without a word on how a text is read. As a surrogate can only be written as one half
of a pair, every string in it has a text.

The reader finds the document in each of its texts (`Document.read?_of_writes`). It takes one byte
at a time and never looks ahead, and a number is the only token of which it cannot tell that it is
complete before it has seen the next byte. So the lexer need not be between two tokens where one of
them ends, but it takes what comes next as if it was: white space, a comma or the end of an array or
an object, and in a document nothing else comes after a number (`Document.apart_tokens`).
-/

namespace GameBridge.Json

/-! ## Numbers -/

/-- The digits after the point, with the point. -/
def Literal.fractionChars : List Digit → List Char
  | [] => []
  | d :: rest => '.' :: digitChars (d :: rest)

/-- How the power of ten of a number is written. -/
inductive PowerSpelling : Option (Bool × List Digit) → List Char → Prop
  /-- There is none. -/
  | none : PowerSpelling none []
  /-- Digits without a sign. -/
  | plain {mark : Char} {ds : List Digit} (hmark : mark ∈ ['e', 'E']) (hds : ds ≠ []) :
      PowerSpelling (some (false, ds)) (mark :: Literal.digitChars ds)
  /-- Digits after a plus sign. -/
  | plus {mark : Char} {ds : List Digit} (hmark : mark ∈ ['e', 'E']) (hds : ds ≠ []) :
      PowerSpelling (some (false, ds)) (mark :: '+' :: Literal.digitChars ds)
  /-- Digits after a minus sign. -/
  | minus {mark : Char} {ds : List Digit} (hmark : mark ∈ ['e', 'E']) (hds : ds ≠ []) :
      PowerSpelling (some (true, ds)) (mark :: '-' :: Literal.digitChars ds)

/-- How a number is written: its sign, the digits before the point and after it, and the power. -/
inductive Literal.Spelling : Literal → List Char → Prop
  | mk {l : Literal} {power : List Char} (hwhole : Leads l.whole)
      (hpower : PowerSpelling l.power power) :
      Spelling l ((if l.negative then ['-'] else []) ++ digitChars l.whole
        ++ fractionChars l.fraction ++ power)

/-! ## Strings -/

/-- A digit to base sixteen, in small or in large letters. -/
def IsHexDigit (d : Fin 16) (c : Char) : Prop :=
  c = Nat.digitChar d.val ∨ c = (Nat.digitChar d.val).toUpper

/-- A code unit as four digits to base sixteen. -/
inductive CodeSpelling : Nat → List Char → Prop
  | mk {d₁ d₂ d₃ d₄ : Fin 16} {c₁ c₂ c₃ c₄ : Char} (h₁ : IsHexDigit d₁ c₁)
      (h₂ : IsHexDigit d₂ c₂) (h₃ : IsHexDigit d₃ c₃) (h₄ : IsHexDigit d₄ c₄) :
      CodeSpelling (((d₁.val * 16 + d₂.val) * 16 + d₃.val) * 16 + d₄.val) [c₁, c₂, c₃, c₄]

/-- The letters of the short escapes, and the characters that they stand for. -/
def shortEscapes : List (Char × Char) :=
  [('"', '"'), ('\\', '\\'), ('/', '/'), ('b', '\x08'), ('f', '\x0c'), ('n', '\n'), ('r', '\r'),
    ('t', '\t')]

/-- How a character is written inside a string. -/
inductive CharSpelling : Char → List Char → Prop
  /-- As it is. -/
  | plain {c : Char} (hquote : c ≠ '"') (hbackslash : c ≠ '\\') (hcontrol : ¬c.toNat < 0x20) :
      CharSpelling c [c]
  /-- By a letter. -/
  | short {letter c : Char} (h : (letter, c) ∈ shortEscapes) : CharSpelling c ['\\', letter]
  /-- By its code. -/
  | code {c : Char} {hex : List Char} (h : CodeSpelling c.toNat hex) :
      CharSpelling c ('\\' :: 'u' :: hex)
  /-- By the two surrogates into which its code is split. -/
  | pair {c : Char} {first second : List Char} (hlarge : 0x10000 ≤ c.toNat)
      (hfirst : CodeSpelling (0xd800 + (c.toNat - 0x10000) / 0x400) first)
      (hsecond : CodeSpelling (0xdc00 + (c.toNat - 0x10000) % 0x400) second) :
      CharSpelling c ('\\' :: 'u' :: first ++ '\\' :: 'u' :: second)

/-- How the content of a string is written. -/
inductive ContentSpelling : List Char → List Char → Prop
  | nil : ContentSpelling [] []
  | cons {c : Char} {content cs rest : List Char} (hhead : CharSpelling c cs)
      (hrest : ContentSpelling content rest) : ContentSpelling (c :: content) (cs ++ rest)

theorem ContentSpelling.plain {cs : List Char}
    (h : ∀ c ∈ cs, c ≠ '"' ∧ c ≠ '\\' ∧ ¬c.toNat < 0x20) : ContentSpelling cs cs := by
  induction cs with
  | nil => exact .nil
  | cons c rest ih =>
    obtain ⟨⟨hquote, hbackslash, hcontrol⟩, hrest⟩ := List.forall_mem_cons.mp h
    exact .cons (.plain hquote hbackslash hcontrol) (ih hrest)

/-- Whether no character of a text is special. -/
def isPlain (cs : List Char) : Bool :=
  cs.all fun c ↦ decide (c ≠ '"' ∧ c ≠ '\\' ∧ ¬c.toNat < 0x20)

theorem ContentSpelling.of_isPlain {cs : List Char} (h : isPlain cs) : ContentSpelling cs cs :=
  .plain fun c hc ↦ of_decide_eq_true (List.all_eq_true.mp h c hc)

theorem CodeSpelling.small (d₁ d₂ d₃ d₄ : Fin 16) :
    CodeSpelling (((d₁.val * 16 + d₂.val) * 16 + d₃.val) * 16 + d₄.val)
      [Nat.digitChar d₁.val, Nat.digitChar d₂.val, Nat.digitChar d₃.val, Nat.digitChar d₄.val] :=
  .mk (Or.inl rfl) (Or.inl rfl) (Or.inl rfl) (Or.inl rfl)

/-! ## Tokens -/

/-- How a token is written. -/
inductive Token.Spelling : Token → List Char → Prop
  | openArray : Spelling .openArray ['[']
  | closeArray : Spelling .closeArray [']']
  | openObject : Spelling .openObject ['\x7b']
  | closeObject : Spelling .closeObject ['\x7d']
  | comma : Spelling .comma [',']
  | colon : Spelling .colon [':']
  | null : Spelling .null ['n', 'u', 'l', 'l']
  | true : Spelling (.bool true) ['t', 'r', 'u', 'e']
  | false : Spelling (.bool false) ['f', 'a', 'l', 's', 'e']
  | num {l : Literal} {cs : List Char} (h : l.Spelling cs) : Spelling (.num l) cs
  | str {s : String} {cs : List Char} (h : ContentSpelling s.toList cs) :
      Spelling (.str (some s)) ('"' :: cs ++ ['"'])

theorem Token.Spelling.plain (s : String) (h : isPlain s.toList) :
    Token.Spelling (.str (some s)) ('"' :: s.toList ++ ['"']) :=
  .str (.of_isPlain h)

/-- The characters that may stand between tokens. -/
def spaces : List Char := [' ', '\t', '\n', '\r']

/-- How tokens are written one after the other, with any white space around them. -/
inductive TokensSpelling : List Token → List Char → Prop
  | nil : TokensSpelling [] []
  | space {c : Char} {tokens : List Token} {rest : List Char} (hspace : c ∈ spaces)
      (hrest : TokensSpelling tokens rest) : TokensSpelling tokens (c :: rest)
  | cons {token : Token} {tokens : List Token} {cs rest : List Char} (hhead : token.Spelling cs)
      (hrest : TokensSpelling tokens rest) : TokensSpelling (token :: tokens) (cs ++ rest)

/-- The texts of a document. -/
def Document.Writes (d : Document) (text : List Char) : Prop := TokensSpelling d.tokens text

theorem TokensSpelling.str_none_notMem {tokens : List Token} {text : List Char}
    (h : TokensSpelling tokens text) : Token.str none ∉ tokens := by
  induction h with
  | nil => exact List.not_mem_nil
  | space _ _ ih => exact ih
  | cons hhead hrest ih =>
    rintro (_ | ⟨_, hmem⟩)
    · cases hhead
    · exact ih hmem

/-! ## What comes after a number -/

/-- The tokens that may come after a value. -/
def enders : List Token := [.comma, .closeArray, .closeObject]

/-- Every number is followed by the end of a value. -/
def Apart (tokens : List Token) : Prop :=
  tokens.IsChain fun token next ↦ (∃ l, token = .num l) → next ∈ enders

namespace Document

theorem apart_cons {token : Token} {tokens : List Token} (htoken : ∀ l, token ≠ .num l)
    (h : Apart tokens) : Apart (token :: tokens) := by
  cases tokens with
  | nil => exact .singleton _
  | cons next rest => exact .cons_cons (fun ⟨l, hl⟩ ↦ absurd hl (htoken l)) h

mutual

/-- **Numbers** in a document are followed by the end of a value. -/
theorem apart_tokens (d : Document) {rest : List Token} (hrest : Apart rest)
    (hhead : ∀ token ∈ rest.head?, token ∈ enders) : Apart (d.tokens ++ rest) := by
  match d with
  | .null => exact apart_cons (by simp) hrest
  | .bool _ => exact apart_cons (by simp) hrest
  | .str _ => exact apart_cons (by simp) hrest
  | .num l =>
    cases rest with
    | nil => exact .singleton _
    | cons next rest => exact .cons_cons (fun _ ↦ hhead next rfl) hrest
  | .arr [] => exact apart_cons (by simp) (apart_cons (by simp) hrest)
  | .arr (item :: items) =>
    rw [tokens, List.cons_append, List.append_assoc]
    obtain ⟨hmore, hnext⟩ := apart_moreItems items hrest
    exact apart_cons (by simp) (apart_tokens item hmore hnext)
  | .obj [] => exact apart_cons (by simp) (apart_cons (by simp) hrest)
  | .obj ((name, value) :: members) =>
    rw [tokens, List.cons_append, List.cons_append, List.cons_append, List.append_assoc]
    obtain ⟨hmore, hnext⟩ := apart_moreMembers members hrest
    exact apart_cons (by simp) (apart_cons (by simp) (apart_cons (by simp)
      (apart_tokens value hmore hnext)))

theorem apart_moreItems (items : List Document) {rest : List Token} (hrest : Apart rest) :
    Apart (moreItems items ++ rest)
      ∧ ∀ token ∈ (moreItems items ++ rest).head?, token ∈ enders := by
  match items with
  | [] => exact ⟨apart_cons (by simp) hrest, by simp [moreItems, enders]⟩
  | item :: items =>
    refine ⟨?_, by simp [moreItems, enders]⟩
    rw [moreItems, List.cons_append, List.append_assoc]
    obtain ⟨hmore, hnext⟩ := apart_moreItems items hrest
    exact apart_cons (by simp) (apart_tokens item hmore hnext)

theorem apart_moreMembers (members : Members) {rest : List Token} (hrest : Apart rest) :
    Apart (moreMembers members ++ rest)
      ∧ ∀ token ∈ (moreMembers members ++ rest).head?, token ∈ enders := by
  match members with
  | [] => exact ⟨apart_cons (by simp) hrest, by simp [moreMembers, enders]⟩
  | (name, value) :: members =>
    refine ⟨?_, by simp [moreMembers, enders]⟩
    rw [moreMembers, List.cons_append, List.cons_append, List.cons_append, List.append_assoc]
    obtain ⟨hmore, hnext⟩ := apart_moreMembers members hrest
    exact apart_cons (by simp) (apart_cons (by simp) (apart_cons (by simp)
      (apart_tokens value hmore hnext)))

end

end Document

/-! ## Reading tokens -/

namespace Lexer

/-- The lexer has read tokens, the last of which may be a number that is still open. -/
inductive Holds : Lexer → List Token → Prop
  | between {tokens : List Token} : Holds ⟨.between, tokens⟩ tokens
  | number {part : NumberPart} {draft : Literal} {tokens : List Token}
      (hpart : part.isComplete = true) :
      Holds ⟨.number part draft, tokens⟩ (.num draft.finish :: tokens)

theorem Holds.finish {lexer : Lexer} {tokens : List Token} (h : lexer.Holds tokens) :
    lexer.finish? = some tokens.reverse := by
  cases h with
  | between => rfl
  | number hpart => exact if_pos hpart

/-- The characters that can end a number. -/
def stops : List Char := [' ', '\t', '\n', '\r', ',', ']', '\x7d']

theorem Holds.feed_stop {lexer : Lexer} {tokens : List Token} (h : lexer.Holds tokens) {c : Char}
    (hc : c ∈ stops) (rest : List UInt8) :
    lexer.feed (Text.charBytes c ++ rest) = feed ⟨.between, tokens⟩ (Text.charBytes c ++ rest) := by
  cases h with
  | between => rfl
  | @number part draft tokens hpart =>
    have hstops : (stops.all fun c ↦
        decide (Text.charBytes c = [ascii c] ∧ part.next? (ascii c) = none)) = true := by
      cases part with
      | zero | whole | fraction | power => decide
      | minus | point | mark | sign => exact absurd hpart (by decide)
    have hend := of_decide_eq_true (List.all_eq_true.mp hstops c hc)
    rw [hend.1, List.singleton_append, feed_cons, feed_cons, step]
    simp only [hend.2, if_pos hpart]
    rfl

theorem Holds.feed_space {lexer : Lexer} {tokens : List Token} (h : lexer.Holds tokens) {c : Char}
    (hc : c ∈ spaces) : lexer.feed (Text.charBytes c) = some ⟨.between, tokens⟩ := by
  have hfeed := h.feed_stop (List.mem_append_left [',', ']', '\x7d'] hc) []
  rw [List.append_nil] at hfeed
  rw [hfeed]
  simp only [spaces, List.mem_cons, List.not_mem_nil, or_false] at hc
  rcases hc with rfl | rfl | rfl | rfl <;> rfl

/-! ## Numbers -/

private theorem feed_fraction {part : NumberPart} (hpart : part = .zero ∨ part = .whole)
    (negative : Bool) (whole ds : List Digit) (tokens : List Token) :
    ∃ next, (next = .zero ∨ next = .whole ∨ next = .fraction)
      ∧ feed ⟨.number part ⟨negative, whole, [], none⟩, tokens⟩
          ((Literal.fractionChars ds).flatMap Text.charBytes)
        = some ⟨.number next ⟨negative, whole, ds.reverse, none⟩, tokens⟩ := by
  cases ds with
  | nil => exact ⟨part, by tauto, rfl⟩
  | cons d rest =>
    have hpoint : feed ⟨.number part ⟨negative, whole, [], none⟩, tokens⟩ (Text.charBytes '.')
        = some ⟨.number .point ⟨negative, whole, [], none⟩, tokens⟩ := by
      rcases hpart with rfl | rfl <;> rfl
    have hfirst : feed ⟨.number .point ⟨negative, whole, [], none⟩, tokens⟩
        (Text.charBytes (Nat.digitChar d.val))
        = some ⟨.number .fraction ⟨negative, whole, [d], none⟩, tokens⟩ := by
      fin_cases d <;> rfl
    have hrest := feed_digits (Or.inr (Or.inl rfl)) rest ⟨negative, whole, [d], none⟩ tokens
    refine ⟨.fraction, by tauto, ?_⟩
    rw [List.reverse_cons]
    exact feed_trans hpoint (feed_trans hfirst hrest)

private theorem feed_powerDigits {part : NumberPart} (hpart : part = .mark ∨ part = .sign)
    {draft : Literal} {sign : Bool} (hdraft : draft.power = some (sign, [])) {ds : List Digit}
    (hds : ds ≠ []) (tokens : List Token) :
    feed ⟨.number part draft, tokens⟩ ((Literal.digitChars ds).flatMap Text.charBytes)
      = some ⟨.number .power { draft with power := some (sign, ds.reverse) }, tokens⟩ := by
  obtain ⟨d, rest, rfl⟩ := List.exists_cons_of_ne_nil hds
  obtain ⟨negative, whole, fraction, power⟩ := draft
  obtain rfl : power = some (sign, []) := hdraft
  have hfirst : feed ⟨.number part ⟨negative, whole, fraction, some (sign, [])⟩, tokens⟩
      (Text.charBytes (Nat.digitChar d.val))
      = some ⟨.number .power ⟨negative, whole, fraction, some (sign, [d])⟩, tokens⟩ := by
    rcases hpart with rfl | rfl <;> fin_cases d <;> rfl
  have hrest := feed_digits (Or.inr (Or.inr rfl)) rest
    ⟨negative, whole, fraction, some (sign, [d])⟩ tokens
  rw [List.reverse_cons]
  exact feed_trans hfirst hrest

/-- The power is read up to its last digit. -/
private theorem feed_power {part : NumberPart}
    (hpart : part = .zero ∨ part = .whole ∨ part = .fraction) {draft : Literal}
    (hdraft : draft.power = none) {power : Option (Bool × List Digit)} {cs : List Char}
    (h : PowerSpelling power cs) (tokens : List Token) :
    ∃ next, next.isComplete = true
      ∧ feed ⟨.number part draft, tokens⟩ (cs.flatMap Text.charBytes)
        = some ⟨.number next
            { draft with power := power.map fun (s, ds) ↦ (s, ds.reverse) }, tokens⟩ := by
  obtain ⟨negative, whole, fraction, before⟩ := draft
  obtain rfl : before = none := hdraft
  have hmark : ∀ {mark : Char}, mark ∈ ['e', 'E'] →
      feed ⟨.number part ⟨negative, whole, fraction, none⟩, tokens⟩ (Text.charBytes mark)
        = some ⟨.number .mark ⟨negative, whole, fraction, some (false, [])⟩, tokens⟩ := by
    intro mark hmark
    simp only [List.mem_cons, List.not_mem_nil, or_false] at hmark
    rcases hpart with rfl | rfl | rfl <;> rcases hmark with rfl | rfl <;> rfl
  have hsign : ∀ c ∈ ['+', '-'],
      feed ⟨.number .mark ⟨negative, whole, fraction, some (false, [])⟩, tokens⟩ (Text.charBytes c)
        = some ⟨.number .sign ⟨negative, whole, fraction, some (c == '-', [])⟩, tokens⟩ := by
    intro c hc
    simp only [List.mem_cons, List.not_mem_nil, or_false] at hc
    rcases hc with rfl | rfl <;> rfl
  cases h with
  | none => exact ⟨part, by rcases hpart with rfl | rfl | rfl <;> rfl, rfl⟩
  | plain hm hds =>
    exact ⟨.power, rfl, feed_trans (hmark hm) (feed_powerDigits (Or.inl rfl) rfl hds tokens)⟩
  | plus hm hds =>
    exact ⟨.power, rfl, feed_trans (hmark hm) (feed_trans (hsign '+' (by decide))
      (feed_powerDigits (Or.inr rfl) rfl hds tokens))⟩
  | minus hm hds =>
    exact ⟨.power, rfl, feed_trans (hmark hm) (feed_trans (hsign '-' (by decide))
      (feed_powerDigits (Or.inr rfl) rfl hds tokens))⟩

/-- **A number** is read from each of its spellings. -/
theorem feed_number {l : Literal} {cs : List Char} (h : l.Spelling cs) (tokens : List Token) :
    ∃ next, feed ⟨.between, tokens⟩ (cs.flatMap Text.charBytes) = some next
      ∧ next.Holds (.num l :: tokens) := by
  obtain ⟨hwhole, hpower⟩ := h
  obtain ⟨part, hpart, hfeedWhole⟩ := feed_whole hwhole l.negative tokens
  obtain ⟨part, hpart, hfeedFraction⟩ :=
    feed_fraction hpart l.negative l.whole.reverse l.fraction tokens
  have hnone : Literal.power ⟨l.negative, l.whole.reverse, l.fraction.reverse, none⟩ = none := rfl
  obtain ⟨part, hpart, hfeedPower⟩ := feed_power hpart hnone hpower tokens
  have hsigned : feed ⟨.between, tokens⟩
      (((if l.negative then ['-'] else []) ++ Literal.digitChars l.whole).flatMap Text.charBytes)
      = feed ⟨.number .minus (.start l.negative), tokens⟩
          ((Literal.digitChars l.whole).flatMap Text.charBytes) := by
    cases l.negative with
    | false => exact feed_unsigned hwhole tokens
    | true => rfl
  have hall := feed_trans (feed_trans (hsigned.trans hfeedWhole) hfeedFraction) hfeedPower
  have hfinish : Literal.finish ⟨l.negative, l.whole.reverse, l.fraction.reverse,
      l.power.map fun (s, ds) ↦ (s, ds.reverse)⟩ = l := by
    obtain ⟨negative, whole, fraction, - | ⟨sign, ds⟩⟩ := l <;> simp [Literal.finish]
  have hholds : Holds ⟨.number part ⟨l.negative, l.whole.reverse, l.fraction.reverse,
      l.power.map fun (s, ds) ↦ (s, ds.reverse)⟩, tokens⟩ (.num (Literal.finish _) :: tokens) :=
    .number hpart
  rw [hfinish] at hholds
  refine ⟨_, ?_, hholds⟩
  rw [List.flatMap_append, List.flatMap_append]
  exact hall

/-! ## Strings -/

private theorem feed_code {n : Nat} {hex : List Char} (h : CodeSpelling n hex)
    (pieces : List Piece) (tokens : List Token) :
    feed ⟨.text pieces, tokens⟩ (('\\' :: 'u' :: hex).flatMap Text.charBytes)
      = some ⟨.text (.unit n :: pieces), tokens⟩ := by
  have hdigit : ∀ {d : Fin 16} {c : Char}, IsHexDigit d c →
      Text.charBytes c = [ascii c] ∧ hexDigit? (ascii c) = some d.val := by
    rintro d c (rfl | rfl) <;> revert d <;> decide
  obtain ⟨h₁, h₂, h₃, h₄⟩ := h
  rename_i d₁ d₂ d₃ d₄ c₁ c₂ c₃ c₄
  have hopen : feed ⟨.text pieces, tokens⟩ (['\\', 'u'].flatMap Text.charBytes)
      = some ⟨.code pieces 3 0, tokens⟩ := rfl
  have hhex : feed ⟨.code pieces 3 0, tokens⟩ ([c₁, c₂, c₃, c₄].flatMap Text.charBytes)
      = some ⟨.text (.unit (((d₁.val * 16 + d₂.val) * 16 + d₃.val) * 16 + d₄.val) :: pieces),
          tokens⟩ := by
    simp [(hdigit h₁).1, (hdigit h₂).1, (hdigit h₃).1, (hdigit h₄).1, feed_cons, step,
      (hdigit h₁).2, (hdigit h₂).2, (hdigit h₃).2, (hdigit h₄).2]
  rw [show '\\' :: 'u' :: [c₁, c₂, c₃, c₄] = ['\\', 'u'] ++ [c₁, c₂, c₃, c₄] from rfl,
    List.flatMap_append]
  exact feed_trans hopen hhex

/-- **A character** is read from each of its spellings as pieces that stand for it. -/
private theorem feed_char {c : Char} {cs : List Char} (h : CharSpelling c cs)
    (tokens : List Token) :
    ∃ found : List Piece,
      (∀ pieces, feed ⟨.text pieces, tokens⟩ (cs.flatMap Text.charBytes)
        = some ⟨.text (found.reverse ++ pieces), tokens⟩)
      ∧ ∀ rest, Piece.bytes? (found ++ rest)
        = (Piece.bytes? rest).map (Text.charBytes c ++ ·) := by
  cases h with
  | plain hquote hbackslash hcontrol =>
    refine ⟨(Text.charBytes c).map .byte, fun pieces ↦ ?_, Piece.bytes?_map_byte _⟩
    rw [List.flatMap_singleton]
    exact feed_plain (plain_of_mem_charBytes hquote hbackslash hcontrol) pieces tokens
  | short hletter =>
    refine ⟨(Text.charBytes c).map .byte, fun pieces ↦ ?_, Piece.bytes?_map_byte _⟩
    simp only [shortEscapes, List.mem_cons, Prod.mk.injEq, List.not_mem_nil, or_false] at hletter
    rcases hletter with ⟨rfl, rfl⟩ | ⟨rfl, rfl⟩ | ⟨rfl, rfl⟩ | ⟨rfl, rfl⟩ | ⟨rfl, rfl⟩ | ⟨rfl, rfl⟩
      | ⟨rfl, rfl⟩ | ⟨rfl, rfl⟩ <;> rfl
  | code hcode =>
    exact ⟨[.unit c.toNat], fun pieces ↦ feed_code hcode pieces tokens, Piece.bytes?_unit c⟩
  | pair hlarge hfirst hsecond =>
    refine ⟨[.unit (0xd800 + (c.toNat - 0x10000) / 0x400),
      .unit (0xdc00 + (c.toNat - 0x10000) % 0x400)], fun pieces ↦ ?_, Piece.bytes?_pair hlarge⟩
    rw [List.flatMap_append]
    exact feed_trans (feed_code hfirst pieces tokens) (feed_code hsecond _ tokens)

private theorem feed_content {content cs : List Char} (h : ContentSpelling content cs)
    (tokens : List Token) :
    ∃ found : List Piece,
      (∀ pieces, feed ⟨.text pieces, tokens⟩ (cs.flatMap Text.charBytes)
        = some ⟨.text (found.reverse ++ pieces), tokens⟩)
      ∧ Piece.bytes? found = some (content.flatMap Text.charBytes) := by
  induction h with
  | nil => exact ⟨[], fun _ ↦ rfl, rfl⟩
  | cons hhead hrest ih =>
    obtain ⟨first, hfirst, hstands⟩ := feed_char hhead tokens
    obtain ⟨more, hmore, hbytes⟩ := ih
    refine ⟨first ++ more, fun pieces ↦ ?_, ?_⟩
    · rw [List.flatMap_append, List.reverse_append, List.append_assoc]
      exact feed_trans (hfirst pieces) (hmore _)
    · rw [hstands, hbytes, List.flatMap_cons]
      rfl

/-- **A string** is read from each of its spellings. -/
theorem feed_string {s : String} {cs : List Char} (h : ContentSpelling s.toList cs)
    (tokens : List Token) :
    feed ⟨.between, tokens⟩ (('"' :: cs ++ ['"']).flatMap Text.charBytes)
      = some ⟨.between, .str (some s) :: tokens⟩ := by
  obtain ⟨found, hfeed, hbytes⟩ := feed_content h tokens
  have htext : Piece.text? found = some s := by
    rw [Piece.text?, hbytes, ← Text.bytes_eq_flatMap, Option.bind_some, Text.ofBytes?_bytes]
  have hopen : feed ⟨.between, tokens⟩ (Text.charBytes '"') = some ⟨.text [], tokens⟩ := rfl
  have hclose : ∀ pieces, feed ⟨.text pieces, tokens⟩ (Text.charBytes '"')
      = some ⟨.between, .str (Piece.text? pieces.reverse) :: tokens⟩ := fun _ ↦ rfl
  have hall := feed_trans hopen (feed_trans (hfeed []) (hclose _))
  rw [List.append_nil, List.reverse_reverse, htext] at hall
  rw [List.cons_append, List.flatMap_cons, List.flatMap_append]
  exact hall

/-! ## Tokens -/

/-- **A token** is read from each of its spellings. -/
theorem feed_token {token : Token} {cs : List Char} (h : token.Spelling cs) (tokens : List Token) :
    ∃ next, feed ⟨.between, tokens⟩ (cs.flatMap Text.charBytes) = some next
      ∧ next.Holds (token :: tokens) := by
  cases h with
  | num hnum => exact feed_number hnum tokens
  | str hstr => exact ⟨_, feed_string hstr tokens, .between⟩
  | _ => exact ⟨_, rfl, .between⟩

theorem Holds.feed_ender {lexer : Lexer} {tokens : List Token} (h : lexer.Holds tokens)
    {token : Token} (htoken : token ∈ enders) {cs : List Char} (hcs : token.Spelling cs) :
    ∃ next, lexer.feed (cs.flatMap Text.charBytes) = some next ∧ next.Holds (token :: tokens) := by
  obtain ⟨c, hc, rfl⟩ : ∃ c ∈ stops, cs = [c] := by
    simp only [enders, List.mem_cons, List.not_mem_nil, or_false] at htoken
    rcases htoken with rfl | rfl | rfl <;> cases hcs <;> exact ⟨_, by decide, rfl⟩
  have hfeed := h.feed_stop hc []
  rw [List.append_nil, ← List.flatMap_singleton Text.charBytes] at hfeed
  rw [hfeed]
  exact feed_token hcs tokens

/-- **Tokens** are read from each of their spellings, if the number that may be open before them is
followed by the end of a value, and so are those among them. -/
theorem Holds.feed_tokens {tokens : List Token} {text : List Char}
    (h : TokensSpelling tokens text) {lexer : Lexer} {before : List Token}
    (hlexer : lexer.Holds before) (hapart : Apart (before.head?.toList ++ tokens)) :
    ∃ next, lexer.feed (text.flatMap Text.charBytes) = some next
      ∧ next.Holds (tokens.reverse ++ before) := by
  induction h generalizing lexer before with
  | nil => exact ⟨lexer, rfl, hlexer⟩
  | space hspace _ ih =>
    obtain ⟨last, hlast, hfinal⟩ := ih .between hapart
    refine ⟨last, ?_, hfinal⟩
    rw [List.flatMap_cons]
    exact feed_trans (hlexer.feed_space hspace) hlast
  | @cons token tokens cs rest hhead _ ih =>
    obtain ⟨next, hnext, hread⟩ : ∃ next, lexer.feed (cs.flatMap Text.charBytes) = some next
        ∧ next.Holds (token :: before) := by
      cases hlexer with
      | between => exact feed_token hhead before
      | number hpart =>
        have hender := (List.isChain_cons_cons.mp hapart).1 ⟨_, rfl⟩
        exact (Holds.number hpart).feed_ender hender hhead
    have hmore : Apart (token :: tokens) := hapart.right_of_append
    obtain ⟨last, hlast, hfinal⟩ := ih hread hmore
    refine ⟨last, ?_, ?_⟩
    · rw [List.flatMap_append]
      exact feed_trans hnext hlast
    · rw [List.reverse_cons, List.append_assoc]
      exact hfinal

end Lexer

/-! ## Reading documents -/

/-- **A document** is read from each of its texts. -/
theorem Document.read?_of_writes {d : Document} {text : List Char} (h : d.Writes text) :
    read? (text.flatMap Text.charBytes) = some d := by
  have hapart : Apart d.tokens := by
    have happend := apart_tokens d .nil (by simp)
    rwa [List.append_nil] at happend
  have hstart : Lexer.Holds .start [] := .between
  obtain ⟨next, hnext, hholds⟩ := hstart.feed_tokens h hapart
  have hscan : Token.scan? (text.flatMap Text.charBytes) = some d.tokens := by
    rw [Lexer.feed] at hnext
    rw [Token.scan?, hnext, Option.bind_some, hholds.finish, List.append_nil, List.reverse_reverse]
  rw [read?, hscan, Option.bind_some, ofTokens?_tokens]

end GameBridge.Json
