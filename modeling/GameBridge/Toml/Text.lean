import GameBridge.Toml.Line

/-!
# Strings of TOML

There are four kinds of strings: with escapes between quotes and without them between apostrophes,
each on one line or, between three marks on either side, over several lines. A string over several
lines may hold one or two of its marks in a row, also right before its end, and a line break right
at its start does not count. Line breaks inside are read as line feeds.
-/

namespace GameBridge.Toml

/-! ## Escapes -/

/-- The value of a hexadecimal digit. -/
def hexValue? (c : Char) : Option Nat :=
  if '0' ≤ c ∧ c ≤ '9' then some (c.toNat - 48)
  else if 'A' ≤ c ∧ c ≤ 'F' then some (c.toNat - 55)
  else if 'a' ≤ c ∧ c ≤ 'f' then some (c.toNat - 87)
  else none

/-- The number that hexadecimal digits denote. -/
def hexNumber? (cs : List Char) : Option Nat :=
  cs.foldlM (fun n c ↦ (hexValue? c).map (n * 16 + ·)) 0

/-- The character with the number that hexadecimal digits denote. -/
def numberedChar? (cs : List Char) : Option Char :=
  (hexNumber? cs).bind fun n ↦
    if n < 0xd800 ∨ (0xe000 ≤ n ∧ n < 0x110000) then some (Char.ofNat n) else none

/-- The character that a letter names after a backslash. -/
def namedChar? (c : Char) : Option Char :=
  if c = '"' ∨ c = '\\' then some c
  else if c = 'b' then some '\x08'
  else if c = 't' then some '\t'
  else if c = 'n' then some '\n'
  else if c = 'f' then some '\x0c'
  else if c = 'r' then some '\r'
  else none

/-! ## On one line -/

/-- Reads a string with escapes after its first quote. -/
def quoted? : List Char → Option (List Char × List Char)
  | [] => none
  | '"' :: rest => some ([], rest)
  | '\\' :: 'u' :: a :: b :: c :: d :: rest => do
    let char ← numberedChar? [a, b, c, d]
    let (more, rest) ← quoted? rest
    return (char :: more, rest)
  | '\\' :: 'U' :: a :: b :: c :: d :: e :: f :: g :: h :: rest => do
    let char ← numberedChar? [a, b, c, d, e, f, g, h]
    let (more, rest) ← quoted? rest
    return (char :: more, rest)
  | '\\' :: letter :: rest => do
    let char ← namedChar? letter
    let (more, rest) ← quoted? rest
    return (char :: more, rest)
  | c :: rest =>
    if isPrintable c then do
      let (more, rest) ← quoted? rest
      return (c :: more, rest)
    else none

/-- Reads a string without escapes after its first apostrophe. -/
def literal? : List Char → Option (List Char × List Char)
  | [] => none
  | '\'' :: rest => some ([], rest)
  | c :: rest =>
    if isPrintable c then do
      let (more, rest) ← literal? rest
      return (c :: more, rest)
    else none

/-! ## Over several lines -/

/-- Leaves out a line break right at the start of a string. -/
def dropFirstBreak (cs : List Char) : List Char := (lineBreak? cs).getD cs

/-- Reads a string with escapes over several lines. The flag says whether white space is being
left out after a backslash at the end of a line. -/
def longQuoted? : Bool → List Char → Option (List Char × List Char)
  | _, [] => none
  | _, '"' :: '"' :: '"' :: '"' :: '"' :: rest => some (['"', '"'], rest)
  | _, '"' :: '"' :: '"' :: '"' :: rest => some (['"'], rest)
  | _, '"' :: '"' :: '"' :: rest => some ([], rest)
  | skipping, '\n' :: rest =>
    if skipping then longQuoted? true rest else do
      let (more, rest) ← longQuoted? false rest
      return ('\n' :: more, rest)
  | skipping, '\r' :: '\n' :: rest =>
    if skipping then longQuoted? true rest else do
      let (more, rest) ← longQuoted? false rest
      return ('\n' :: more, rest)
  | _, '\\' :: 'u' :: a :: b :: c :: d :: rest => do
    let char ← numberedChar? [a, b, c, d]
    let (more, rest) ← longQuoted? false rest
    return (char :: more, rest)
  | _, '\\' :: 'U' :: a :: b :: c :: d :: e :: f :: g :: h :: rest => do
    let char ← numberedChar? [a, b, c, d, e, f, g, h]
    let (more, rest) ← longQuoted? false rest
    return (char :: more, rest)
  | _, '\\' :: c :: rest =>
    -- a backslash at the end of a line hides the white space up to the next character
    if (lineBreak? (skipBlanks (c :: rest))).isSome then longQuoted? true (c :: rest)
    else do
      let char ← namedChar? c
      let (more, rest) ← longQuoted? false rest
      return (char :: more, rest)
  | skipping, c :: rest =>
    if skipping && isBlank c then longQuoted? true rest
    else if isPrintable c then do
      let (more, rest) ← longQuoted? false rest
      return (c :: more, rest)
    else none

/-- Reads a string without escapes over several lines. -/
def longLiteral? : List Char → Option (List Char × List Char)
  | [] => none
  | '\'' :: '\'' :: '\'' :: '\'' :: '\'' :: rest => some (['\'', '\''], rest)
  | '\'' :: '\'' :: '\'' :: '\'' :: rest => some (['\''], rest)
  | '\'' :: '\'' :: '\'' :: rest => some ([], rest)
  | '\r' :: '\n' :: rest => do
    let (more, rest) ← longLiteral? rest
    return ('\n' :: more, rest)
  | c :: rest =>
    if isPrintable c || c == '\n' then do
      let (more, rest) ← longLiteral? rest
      return (c :: more, rest)
    else none

/-! ## All kinds -/

/-- Reads a string of any kind. -/
def string? : List Char → Option (String × List Char)
  | '"' :: '"' :: '"' :: rest =>
    (longQuoted? false (dropFirstBreak rest)).map fun (cs, rest) ↦ (String.ofList cs, rest)
  | '"' :: rest => (quoted? rest).map fun (cs, rest) ↦ (String.ofList cs, rest)
  | '\'' :: '\'' :: '\'' :: rest =>
    (longLiteral? (dropFirstBreak rest)).map fun (cs, rest) ↦ (String.ofList cs, rest)
  | '\'' :: rest => (literal? rest).map fun (cs, rest) ↦ (String.ofList cs, rest)
  | _ => none

/-! ## Keys -/

/-- Whether a character may stand in a key without quotes. -/
def isKeyChar (c : Char) : Bool := c.isAlphanum || c == '_' || c == '-'

/-- Reads one part of a key. -/
def keyPart? : List Char → Option (String × List Char)
  | '"' :: rest => (quoted? rest).map fun (cs, rest) ↦ (String.ofList cs, rest)
  | '\'' :: rest => (literal? rest).map fun (cs, rest) ↦ (String.ofList cs, rest)
  | cs =>
    let name := cs.takeWhile isKeyChar
    if name = [] then none else some (String.ofList name, cs.dropWhile isKeyChar)

/-- Reads at most `fuel` parts of a key, with dots between them. -/
def keyParts? : Nat → List Char → Option (List String × List Char)
  | 0, _ => none
  | fuel + 1, cs => do
    let (part, cs) ← keyPart? (skipBlanks cs)
    match skipBlanks cs with
    | '.' :: rest =>
      let (more, rest) ← keyParts? fuel rest
      return (part :: more, rest)
    | rest => return ([part], rest)

/-- How many levels a key or a value may be deep. -/
def maxDepth : Nat := 79

/-- Reads a key: the names on the way, and the name at its end. -/
def key? (cs : List Char) : Option (List String × List Char) := keyParts? maxDepth cs

end GameBridge.Toml
