import GameBridge.Json.Literal
import GameBridge.Text.Encoding

/-!
# JSON tokens

The lexer takes one byte at a time: `Lexer.step` says what a byte does after the bytes before it,
and `Token.scan?` folds it over a text. There is no looking ahead. A number ends at the first byte
that does not continue it, and that byte is then taken as the first of whatever follows.

The content of a string is decoded when the string closes. Escapes of lone surrogates and bytes
that are not UTF-8 leave it without a text, which is no error of the lexer: whether such a string
is acceptable depends on who reads it.
-/

namespace GameBridge.Json

/-- The byte of an ASCII character. -/
abbrev ascii (c : Char) : UInt8 := c.toUInt8

/-- A token of JSON. -/
inductive Token where
  /-- The bracket `[`. -/
  | openArray
  /-- The bracket `]`. -/
  | closeArray
  /-- The opening brace. -/
  | openObject
  /-- The closing brace. -/
  | closeObject
  /-- A comma. -/
  | comma
  /-- A colon. -/
  | colon
  /-- The word `null`. -/
  | null
  /-- One of the words `true` and `false`. -/
  | bool (value : Bool)
  /-- A number. -/
  | num (literal : Literal)
  /-- A string with its text, if its content is one. -/
  | str (text : Option String)
deriving DecidableEq, Repr

/-! ## The content of a string -/

/-- A piece of the content of a string. -/
inductive Piece where
  /-- A byte that stands for itself, or is named by a short escape. -/
  | byte (b : UInt8)
  /-- A UTF-16 code unit written as four hexadecimal digits. -/
  | unit (n : Nat)
deriving DecidableEq, Repr

namespace Piece

/-- Whether a code unit is the first of a surrogate pair. -/
def isLeading (n : Nat) : Bool := 0xd800 ≤ n && n < 0xdc00

/-- Whether a code unit is the second of a surrogate pair. -/
def isTrailing (n : Nat) : Bool := 0xdc00 ≤ n && n < 0xe000

/-- The character that a surrogate pair encodes. -/
def pair (leading trailing : Nat) : Char :=
  Char.ofNat (0x10000 + (leading - 0xd800) * 0x400 + (trailing - 0xdc00))

/-- The bytes that the pieces stand for; nothing if a surrogate is not part of a pair. -/
def bytes? : List Piece → Option (List UInt8)
  | [] => some []
  | .byte b :: rest => (bytes? rest).map (b :: ·)
  | .unit m :: .unit n :: rest =>
    if isLeading m then
      if isTrailing n then (bytes? rest).map (Text.charBytes (pair m n) ++ ·) else none
    else if isTrailing m then none
    else (bytes? (.unit n :: rest)).map (Text.charBytes (Char.ofNat m) ++ ·)
  | .unit m :: rest =>
    if isLeading m || isTrailing m then none
    else (bytes? rest).map (Text.charBytes (Char.ofNat m) ++ ·)

/-- The text that the pieces stand for. -/
def text? (pieces : List Piece) : Option String := (bytes? pieces).bind Text.ofBytes?

end Piece

/-! ## The parts of a number -/

/-- How far a number has been read. -/
inductive NumberPart where
  /-- A minus sign. -/
  | minus
  /-- A zero before the point. -/
  | zero
  /-- Digits before the point, the first not a zero. -/
  | whole
  /-- The point. -/
  | point
  /-- Digits after the point. -/
  | fraction
  /-- The letter in front of the power. -/
  | mark
  /-- The sign of the power. -/
  | sign
  /-- Digits of the power. -/
  | power
deriving DecidableEq, Repr

/-- The digit that a byte shows. -/
def digit? (b : UInt8) : Option Digit :=
  if h : 48 ≤ b.toNat ∧ b.toNat < 58 then some ⟨b.toNat - 48, by omega⟩ else none

/-- Whether a byte is the letter in front of a power. -/
def isMark (b : UInt8) : Bool := b == ascii 'e' || b == ascii 'E'

namespace NumberPart

/-- Whether a number may end after this part. -/
def isComplete : NumberPart → Bool
  | zero | whole | fraction | power => true
  | minus | point | mark | sign => false

/-- The part that a byte leads to, if it continues the number. -/
def next? (part : NumberPart) (b : UInt8) : Option NumberPart :=
  match part with
  | minus => (digit? b).map fun d ↦ if d.val = 0 then zero else whole
  | zero => if b = ascii '.' then some point else if isMark b then some mark else none
  | whole =>
    if b = ascii '.' then some point else if isMark b then some mark
    else (digit? b).map fun _ ↦ whole
  | point => (digit? b).map fun _ ↦ fraction
  | fraction => if isMark b then some mark else (digit? b).map fun _ ↦ fraction
  | mark =>
    if b = ascii '+' ∨ b = ascii '-' then some sign else (digit? b).map fun _ ↦ power
  | sign => (digit? b).map fun _ ↦ power
  | power => (digit? b).map fun _ ↦ power

end NumberPart

namespace Literal

/-- A literal with no digits yet. -/
def start (negative : Bool) : Literal := ⟨negative, [], [], none⟩

/-- Takes a byte into a literal; `part` is the part of the number that the byte belongs to. While
a literal is being read its digits are kept last first. -/
def push (l : Literal) (part : NumberPart) (b : UInt8) : Literal :=
  match part with
  | .minus => { l with negative := true }
  | .zero | .whole => { l with whole := (digit? b).toList ++ l.whole }
  | .point => l
  | .fraction => { l with fraction := (digit? b).toList ++ l.fraction }
  | .mark => { l with power := some (false, []) }
  | .sign => { l with power := some (b == ascii '-', []) }
  | .power => { l with power := l.power.map fun (s, ds) ↦ (s, (digit? b).toList ++ ds) }

/-- The literal with its digits in reading order. -/
def finish (l : Literal) : Literal :=
  ⟨l.negative, l.whole.reverse, l.fraction.reverse, l.power.map fun (s, ds) ↦ (s, ds.reverse)⟩

end Literal

/-! ## The lexer -/

/-- Where the lexer stands. -/
inductive Mode where
  /-- Between two tokens. -/
  | between
  /-- Inside a word, with the letters still to come. -/
  | word (rest : List UInt8) (token : Token)
  /-- Inside a number. -/
  | number (part : NumberPart) (draft : Literal)
  /-- Inside a string, with its pieces last first. -/
  | text (pieces : List Piece)
  /-- After a backslash in a string. -/
  | escape (pieces : List Piece)
  /-- Inside the hexadecimal digits of an escape, with those still to come counted. -/
  | code (pieces : List Piece) (missing : Nat) (value : Nat)
deriving DecidableEq, Repr

/-- The lexer after some bytes. -/
structure Lexer where
  /-- Where it stands. -/
  mode : Mode
  /-- The tokens that are complete, last first. -/
  tokens : List Token
deriving DecidableEq, Repr

/-- Whether a byte is white space between tokens. -/
def isSpace (b : UInt8) : Bool :=
  b == ascii ' ' || b == ascii '\t' || b == ascii '\n' || b == ascii '\r'

/-- The value of a hexadecimal digit. -/
def hexDigit? (b : UInt8) : Option Nat :=
  let n := b.toNat
  if 48 ≤ n ∧ n < 58 then some (n - 48)
  else if 65 ≤ n ∧ n < 71 then some (n - 55)
  else if 97 ≤ n ∧ n < 103 then some (n - 87)
  else none

/-- The byte that a short escape names. -/
def shortEscape? (b : UInt8) : Option UInt8 :=
  if b = ascii '"' ∨ b = ascii '\\' ∨ b = ascii '/' then some b
  else if b = ascii 'b' then some 0x08
  else if b = ascii 'f' then some 0x0c
  else if b = ascii 'n' then some 0x0a
  else if b = ascii 'r' then some 0x0d
  else if b = ascii 't' then some 0x09
  else none

namespace Lexer

/-- The lexer before the first byte. -/
def start : Lexer := ⟨.between, []⟩

/-- Takes a byte between two tokens. -/
def begin? (tokens : List Token) (b : UInt8) : Option Lexer :=
  if isSpace b then some ⟨.between, tokens⟩
  else if b = ascii '[' then some ⟨.between, .openArray :: tokens⟩
  else if b = ascii ']' then some ⟨.between, .closeArray :: tokens⟩
  else if b = ascii '{' then some ⟨.between, .openObject :: tokens⟩
  else if b = ascii '}' then some ⟨.between, .closeObject :: tokens⟩
  else if b = ascii ',' then some ⟨.between, .comma :: tokens⟩
  else if b = ascii ':' then some ⟨.between, .colon :: tokens⟩
  else if b = ascii '"' then some ⟨.text [], tokens⟩
  else if b = ascii 'n' then some ⟨.word (['u', 'l', 'l'].map ascii) .null, tokens⟩
  else if b = ascii 't' then some ⟨.word (['r', 'u', 'e'].map ascii) (.bool true), tokens⟩
  else if b = ascii 'f' then some ⟨.word (['a', 'l', 's', 'e'].map ascii) (.bool false), tokens⟩
  else if b = ascii '-' then some ⟨.number .minus (.start true), tokens⟩
  else
    -- a number without a sign starts like one after its sign
    (NumberPart.minus.next? b).map fun part ↦
      ⟨.number part ((Literal.start false).push part b), tokens⟩

/-- Takes one byte. -/
def step (lexer : Lexer) (b : UInt8) : Option Lexer :=
  match lexer.mode with
  | .between => begin? lexer.tokens b
  | .word [] token => begin? (token :: lexer.tokens) b
  | .word [last] token => if b = last then some ⟨.between, token :: lexer.tokens⟩ else none
  | .word (letter :: rest) token =>
    if b = letter then some ⟨.word rest token, lexer.tokens⟩ else none
  | .number part draft =>
    match part.next? b with
    | some next => some ⟨.number next (draft.push next b), lexer.tokens⟩
    -- the byte ends the number and is the first of what follows
    | none => if part.isComplete then begin? (.num draft.finish :: lexer.tokens) b else none
  | .text pieces =>
    if b = ascii '"' then some ⟨.between, .str (Piece.text? pieces.reverse) :: lexer.tokens⟩
    else if b = ascii '\\' then some ⟨.escape pieces, lexer.tokens⟩
    else if b < 0x20 then none
    else some ⟨.text (.byte b :: pieces), lexer.tokens⟩
  | .escape pieces =>
    if b = ascii 'u' then some ⟨.code pieces 3 0, lexer.tokens⟩
    else (shortEscape? b).map fun named ↦ ⟨.text (.byte named :: pieces), lexer.tokens⟩
  | .code pieces missing value =>
    (hexDigit? b).map fun d ↦
      match missing with
      | 0 => ⟨.text (.unit (value * 16 + d) :: pieces), lexer.tokens⟩
      | left + 1 => ⟨.code pieces left (value * 16 + d), lexer.tokens⟩

/-- The tokens in reading order, if no token is left open. -/
def finish? (lexer : Lexer) : Option (List Token) :=
  match lexer.mode with
  | .between => some lexer.tokens.reverse
  | .number part draft =>
    if part.isComplete then some (.num draft.finish :: lexer.tokens).reverse else none
  | _ => none

end Lexer

/-- The tokens of a text. -/
def Token.scan? (bytes : List UInt8) : Option (List Token) :=
  (bytes.foldlM Lexer.step Lexer.start).bind Lexer.finish?

end GameBridge.Json
