import GameBridge.Json.Printer
import GameBridge.Proofs.Text.ByteOrder

/-!
# Reading written strings

A text that is written as a JSON string is read back. The lexer sees the bytes of one character
after the other, and `Lexer.feed_escapeChar` says what it has of a character then: the bytes of the
character, or its code where it was written as one. In both cases the pieces stand for the bytes of
the character, whatever follows them, and this carries over to texts.
-/

namespace GameBridge.Json

/-! ## Feeding the lexer -/

namespace Lexer

/-- The lexer after more bytes. -/
def feed (lexer : Lexer) (bytes : List UInt8) : Option Lexer := bytes.foldlM step lexer

@[simp] theorem feed_nil (lexer : Lexer) : lexer.feed [] = some lexer := rfl

theorem feed_cons (lexer : Lexer) (b : UInt8) (rest : List UInt8) :
    lexer.feed (b :: rest) = (lexer.step b).bind (·.feed rest) := rfl

theorem feed_append (lexer : Lexer) (a b : List UInt8) :
    lexer.feed (a ++ b) = (lexer.feed a).bind (·.feed b) := List.foldlM_append

theorem feed_trans {first middle last : Lexer} {a b : List UInt8} (ha : first.feed a = some middle)
    (hb : middle.feed b = some last) : first.feed (a ++ b) = some last := by
  rw [feed_append, ha]
  exact hb

/-- Inside a string, bytes that are not special stand for themselves. -/
theorem feed_plain {bytes : List UInt8}
    (h : ∀ b ∈ bytes, b ≠ ascii '"' ∧ b ≠ ascii '\\' ∧ ¬b < 0x20)
    (pieces : List Piece) (tokens : List Token) :
    feed ⟨.text pieces, tokens⟩ bytes
      = some ⟨.text ((bytes.map Piece.byte).reverse ++ pieces), tokens⟩ := by
  induction bytes generalizing pieces with
  | nil => rfl
  | cons b rest ih =>
    obtain ⟨hquote, hbackslash, hcontrol⟩ := h b List.mem_cons_self
    have hrest := ih (fun c hc ↦ h c (List.mem_cons_of_mem _ hc)) (.byte b :: pieces)
    rw [feed_cons, step]
    simp only [if_neg hquote, if_neg hbackslash, if_neg hcontrol, Option.bind_some]
    rw [hrest, List.map_cons, List.reverse_cons, List.append_assoc, List.singleton_append]

end Lexer

/-! ## Pieces of a character -/

/-- The characters for which there is a short escape. -/
def named : List Char := ['"', '\\', '\x08', '\x0c', '\n', '\r', '\t']

/-- The three ways in which a character is written: by its name, by its code, or as it is. -/
theorem escapeChar_cases (c : Char) :
    c ∈ named ∨
      (c.toNat < 0x20
        ∧ escapeChar c = ['\\', 'u', '0', '0', hexChar (c.toNat / 16), hexChar c.toNat]) ∨
      (c ≠ '"' ∧ c ≠ '\\' ∧ ¬c.toNat < 0x20 ∧ escapeChar c = [c]) := by
  rw [escapeChar]
  split_ifs with h1 h2 h3 h4 h5 h6 h7 h8
  · exact Or.inl (h1 ▸ by decide)
  · exact Or.inl (h2 ▸ by decide)
  · exact Or.inl (h3 ▸ by decide)
  · exact Or.inl (h4 ▸ by decide)
  · exact Or.inl (h5 ▸ by decide)
  · exact Or.inl (h6 ▸ by decide)
  · exact Or.inl (h7 ▸ by decide)
  · exact Or.inr (Or.inl ⟨h8, rfl⟩)
  · exact Or.inr (Or.inr ⟨h1, h2, h8, rfl⟩)

/-- What the lexer has of a written character. -/
def piecesOf (c : Char) : List Piece :=
  if c.toNat < 0x20 ∧ c ∉ named then [.unit c.toNat] else (Text.charBytes c).map .byte

private theorem ofNat_ne_ascii {n : Nat} {c : Char} (hn : n < 256) (hc : c.toNat < 256)
    (h : n ≠ c.toNat) : UInt8.ofNat n ≠ ascii c := by
  intro heq
  apply h
  have hnat := congrArg UInt8.toNat heq
  rw [UInt8.toNat_ofNat_of_lt' hn, ascii, Char.toUInt8, UInt32.toNat_toUInt8] at hnat
  exact hnat.trans (Nat.mod_eq_of_lt hc)

theorem plain_of_mem_charBytes {c : Char} (hquote : c ≠ '"') (hbackslash : c ≠ '\\')
    (hcontrol : ¬c.toNat < 0x20) :
    ∀ b ∈ Text.charBytes c, b ≠ ascii '"' ∧ b ≠ ascii '\\' ∧ ¬b < 0x20 := by
  have hplain : ∀ n < 256, 0x20 ≤ n → n ≠ 34 → n ≠ 92 →
      UInt8.ofNat n ≠ ascii '"' ∧ UInt8.ofNat n ≠ ascii '\\' ∧ ¬UInt8.ofNat n < 0x20 := by
    intro n hn hlow hne hne'
    refine ⟨ofNat_ne_ascii hn (by decide) hne, ofNat_ne_ascii hn (by decide) hne', ?_⟩
    rw [UInt8.lt_iff_toNat_lt, UInt8.toNat_ofNat_of_lt' hn]
    exact Nat.not_lt.mpr hlow
  have hquote' : c.val.toNat ≠ 34 := fun h ↦ hquote (Char.toNat_inj.mp h)
  have hbackslash' : c.val.toNat ≠ 92 := fun h ↦ hbackslash (Char.toNat_inj.mp h)
  have hcontrol' : 0x20 ≤ c.val.toNat := Nat.not_lt.mp hcontrol
  have hlt := Text.toNat_lt c
  intro b hb
  rw [Text.charBytes, String.utf8EncodeChar] at hb
  generalize c.val.toNat = n at *
  -- beyond ASCII all bytes are at least 128
  split_ifs at hb
  · rw [List.mem_singleton.mp hb]
    exact hplain n (by omega) hcontrol' hquote' hbackslash'
  all_goals simp only [List.mem_cons, List.not_mem_nil, or_false] at hb
  · rcases hb with rfl | rfl <;>
      exact hplain _ (by omega) (by omega) (by omega) (by omega)
  · rcases hb with rfl | rfl | rfl <;>
      exact hplain _ (by omega) (by omega) (by omega) (by omega)
  · rcases hb with rfl | rfl | rfl | rfl <;>
      exact hplain _ (by omega) (by omega) (by omega) (by omega)

/-- A hexadecimal digit that was written is read back. -/
private theorem feed_hexChar (n : Nat) (pieces : List Piece) (left value : Nat)
    (tokens : List Token) :
    Lexer.feed ⟨.code pieces (left + 1) value, tokens⟩ (Text.charBytes (hexChar n))
        = some ⟨.code pieces left (value * 16 + n % 16), tokens⟩
      ∧ Lexer.feed ⟨.code pieces 0 value, tokens⟩ (Text.charBytes (hexChar n))
        = some ⟨.text (.unit (value * 16 + n % 16) :: pieces), tokens⟩ := by
  have hdigit : ∀ m < 16, Text.charBytes (Nat.digitChar m) = [ascii (Nat.digitChar m)]
      ∧ hexDigit? (ascii (Nat.digitChar m)) = some m := by decide
  obtain ⟨hbytes, hb⟩ := hdigit (n % 16) (Nat.mod_lt _ (by decide))
  rw [hexChar, hbytes]
  simp only [Lexer.feed_cons, Lexer.step, hb, Option.map_some, Option.bind_some, Lexer.feed_nil,
    and_self]

private theorem feed_named {c : Char} (h : c ∈ named) (pieces : List Piece) (tokens : List Token) :
    Lexer.feed ⟨.text pieces, tokens⟩ ((escapeChar c).flatMap Text.charBytes)
      = some ⟨.text (((Text.charBytes c).map Piece.byte).reverse ++ pieces), tokens⟩ := by
  simp only [named, List.mem_cons, List.not_mem_nil, or_false] at h
  rcases h with rfl | rfl | rfl | rfl | rfl | rfl | rfl <;> rfl

/-- **A written character** is read as its pieces. -/
theorem Lexer.feed_escapeChar (c : Char) (pieces : List Piece) (tokens : List Token) :
    feed ⟨.text pieces, tokens⟩ ((escapeChar c).flatMap Text.charBytes)
      = some ⟨.text ((piecesOf c).reverse ++ pieces), tokens⟩ := by
  by_cases hnamed : c ∈ named
  · rw [feed_named hnamed, piecesOf, if_neg fun h ↦ h.2 hnamed]
  obtain h | ⟨hcontrol, hescape⟩ | ⟨hquote, hbackslash, hcontrol, hescape⟩ := escapeChar_cases c
  · exact absurd h hnamed
  · -- the code has two digits that can be other than zero
    have hstart : feed ⟨.text pieces, tokens⟩ (['\\', 'u', '0', '0'].flatMap Text.charBytes)
        = some ⟨.code pieces 1 0, tokens⟩ := rfl
    have hhigh := (feed_hexChar (c.toNat / 16) pieces 0 0 tokens).1
    have hlow := (feed_hexChar c.toNat pieces 0 (0 * 16 + c.toNat / 16 % 16) tokens).2
    have hvalue : (0 * 16 + c.toNat / 16 % 16) * 16 + c.toNat % 16 = c.toNat := by omega
    rw [hvalue] at hlow
    have hfed := feed_trans hstart (feed_trans hhigh hlow)
    rw [hescape, piecesOf, if_pos ⟨hcontrol, hnamed⟩]
    simpa using hfed
  · rw [hescape, piecesOf, if_neg fun h ↦ hcontrol h.1, List.flatMap_singleton]
    exact feed_plain (plain_of_mem_charBytes hquote hbackslash hcontrol) pieces tokens

/-! ## The text of the pieces -/

theorem Piece.bytes?_map_byte (bytes : List UInt8) (rest : List Piece) :
    bytes? (bytes.map .byte ++ rest) = (bytes? rest).map (bytes ++ ·) := by
  induction bytes with
  | nil => simp
  | cons b tail ih =>
    rw [List.map_cons, List.cons_append, bytes?, ih, Option.map_map]
    rfl

theorem Piece.not_surrogate (c : Char) :
    isLeading c.toNat = false ∧ isTrailing c.toNat = false := by
  have hvalid : c.toNat < 0xd800 ∨ 0xdfff < c.toNat ∧ c.toNat < 0x110000 := c.valid
  simp only [isLeading, isTrailing, Bool.and_eq_false_iff, decide_eq_false_iff_not]
  omega

theorem Piece.bytes?_unit (c : Char) (rest : List Piece) :
    bytes? (.unit c.toNat :: rest) = (bytes? rest).map (Text.charBytes c ++ ·) := by
  obtain ⟨hleading, htrailing⟩ := not_surrogate c
  cases rest with
  | nil => simp [bytes?, hleading, htrailing]
  | cons piece rest => cases piece <;> simp [bytes?, hleading, htrailing]

theorem Piece.bytes?_pair {c : Char} (hlarge : 0x10000 ≤ c.toNat) (rest : List Piece) :
    bytes? (.unit (0xd800 + (c.toNat - 0x10000) / 0x400)
        :: .unit (0xdc00 + (c.toNat - 0x10000) % 0x400) :: rest)
      = (bytes? rest).map (Text.charBytes c ++ ·) := by
  have hsmall : c.toNat < 0x110000 := Text.toNat_lt c
  have hleading : isLeading (0xd800 + (c.toNat - 0x10000) / 0x400) = true := by
    simp only [isLeading, Bool.and_eq_true, decide_eq_true_eq]
    omega
  have htrailing : isTrailing (0xdc00 + (c.toNat - 0x10000) % 0x400) = true := by
    simp only [isTrailing, Bool.and_eq_true, decide_eq_true_eq]
    omega
  have hpair : pair (0xd800 + (c.toNat - 0x10000) / 0x400)
      (0xdc00 + (c.toNat - 0x10000) % 0x400) = c := by
    rw [pair, show 0x10000 + (0xd800 + (c.toNat - 0x10000) / 0x400 - 0xd800) * 0x400
      + (0xdc00 + (c.toNat - 0x10000) % 0x400 - 0xdc00) = c.toNat by omega, Char.ofNat_toNat]
  rw [bytes?, if_pos hleading, if_pos htrailing, hpair]

theorem Piece.bytes?_piecesOf (c : Char) (rest : List Piece) :
    bytes? (piecesOf c ++ rest) = (bytes? rest).map (Text.charBytes c ++ ·) := by
  rw [piecesOf]
  split
  · exact bytes?_unit c rest
  · exact bytes?_map_byte _ rest

/-- **Written texts** are read back. -/
theorem Piece.text?_flatMap_piecesOf (s : String) : text? (s.toList.flatMap piecesOf) = some s := by
  have hbytes : ∀ cs : List Char,
      bytes? (cs.flatMap piecesOf) = some (cs.flatMap Text.charBytes) := by
    intro cs
    induction cs with
    | nil => rfl
    | cons c rest ih =>
      rw [List.flatMap_cons, bytes?_piecesOf, ih, List.flatMap_cons]
      rfl
  rw [text?, hbytes, ← Text.bytes_eq_flatMap, Option.bind_some, Text.ofBytes?_bytes]

theorem Lexer.feed_escaped (cs : List Char) (pieces : List Piece) (tokens : List Token) :
    feed ⟨.text pieces, tokens⟩ ((cs.flatMap escapeChar).flatMap Text.charBytes)
      = some ⟨.text ((cs.flatMap piecesOf).reverse ++ pieces), tokens⟩ := by
  induction cs generalizing pieces with
  | nil => rfl
  | cons c rest ih =>
    rw [List.flatMap_cons, List.flatMap_append]
    have h := feed_trans (feed_escapeChar c pieces tokens) (ih _)
    rw [h, List.flatMap_cons, List.reverse_append, List.append_assoc]

/-- **A written string** is one token. -/
theorem Lexer.feed_stringChars (s : String) (tokens : List Token) :
    feed ⟨.between, tokens⟩ ((stringChars s).flatMap Text.charBytes)
      = some ⟨.between, .str (some s) :: tokens⟩ := by
  have hopen : feed ⟨.between, tokens⟩ (Text.charBytes '"') = some ⟨.text [], tokens⟩ := rfl
  have hclose : ∀ pieces, feed ⟨.text pieces, tokens⟩ (Text.charBytes '"')
      = some ⟨.between, .str (Piece.text? pieces.reverse) :: tokens⟩ := fun _ ↦ rfl
  have hfed := feed_trans hopen (feed_trans (feed_escaped s.toList [] tokens) (hclose _))
  rw [List.append_nil, List.reverse_reverse, Piece.text?_flatMap_piecesOf] at hfed
  rw [stringChars, List.cons_append, List.flatMap_cons, List.flatMap_append]
  simpa using hfed

end GameBridge.Json
