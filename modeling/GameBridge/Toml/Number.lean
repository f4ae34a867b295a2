import GameBridge.Number.Numeral

/-!
# Numbers, dates and times of TOML

Integers have 64 bits and may be written to the bases ten, two, eight and sixteen, with single
underscores between digits. Floating-point numbers, dates and times are only recognised: there is
nothing to be read from them here, but a text in which one is not well-formed is no TOML.
-/

namespace GameBridge.Toml

/-- What a number is read as. -/
inductive Number where
  /-- An integer. -/
  | int (value : Int64)
  /-- A floating-point number. -/
  | float
deriving DecidableEq, Repr

/-! ## Digits -/

/-- Reads further digits, each of which may follow an underscore. -/
def moreDigits? (isDigit : Char → Bool) : List Char → Option (List Char × List Char)
  | [] => some ([], [])
  | '_' :: [] => none
  | '_' :: c :: rest =>
    if isDigit c then do
      let (more, rest) ← moreDigits? isDigit rest
      return (c :: more, rest)
    else none
  | c :: rest =>
    if isDigit c then do
      let (more, rest) ← moreDigits? isDigit rest
      return (c :: more, rest)
    else some ([], c :: rest)

/-- Reads digits. -/
def digits? (isDigit : Char → Bool) : List Char → Option (List Char × List Char)
  | [] => none
  | c :: rest =>
    if isDigit c then do
      let (more, rest) ← moreDigits? isDigit rest
      return (c :: more, rest)
    else none

/-- The number that digits denote to a base. -/
def ofDigits (base : Nat) (cs : List Char) : Nat :=
  cs.foldl (fun n c ↦ n * base + (if c.isDigit then c.toNat - 48
    else if c.isUpper then c.toNat - 55 else c.toNat - 87)) 0

/-- Whether a character is a digit to base two. -/
def isBinaryDigit (c : Char) : Bool := c == '0' || c == '1'

/-- Whether a character is a digit to base eight. -/
def isOctalDigit (c : Char) : Bool := '0' ≤ c && c ≤ '7'

/-- Whether a character is a digit to base sixteen. -/
def isHexDigit (c : Char) : Bool :=
  c.isDigit || ('a' ≤ c && c ≤ 'f') || ('A' ≤ c && c ≤ 'F')

/-! ## Numbers -/

/-- An integer, if it has 64 bits. -/
def int64? (i : Int) : Option Int64 :=
  if Int64.minValue.toInt ≤ i ∧ i ≤ Int64.maxValue.toInt then some (Int64.ofInt i) else none

/-- Reads the digits of an integer to a base that is not ten. -/
def based? (base : Nat) (isDigit : Char → Bool) (cs : List Char) :
    Option (Number × List Char) := do
  let (digits, rest) ← digits? isDigit cs
  let n ← int64? (ofDigits base digits)
  return (.int n, rest)

/-- Reads the digits before the point: one, or several of which the first is not a zero. -/
def whole? : List Char → Option (List Char × List Char)
  | '0' :: rest => some (['0'], rest)
  | cs => digits? Char.isDigit cs

/-- Reads a power of ten, if there is one. -/
def power? : List Char → Option (List Char × List Char)
  | c :: rest =>
    if c = 'e' ∨ c = 'E' then do
      let (sign, unsigned) :=
        match rest with
        | '-' :: unsigned => (['-'], unsigned)
        | '+' :: unsigned => ([], unsigned)
        | unsigned => ([], unsigned)
      let (digits, rest) ← digits? Char.isDigit unsigned
      return ('e' :: sign ++ digits, rest)
    else some ([], c :: rest)
  | [] => some ([], [])

/-- Reads a fraction, if there is one. -/
def fraction? : List Char → Option (List Char × List Char)
  | '.' :: rest => do
    let (digits, rest) ← digits? Char.isDigit rest
    return ('.' :: digits, rest)
  | cs => some ([], cs)

/-- A number with a fraction or a power; a positive one must not be too large. -/
def float? (negative : Bool) (cs : List Char) : Option Number := do
  let numeral ← Numeral.read? Numeral.addPowerDigit cs
  if negative ∨ numeral.nearest?.isSome then some .float else none

/-- Reads a number after its sign. -/
def unsigned? (negative : Bool) : List Char → Option (Number × List Char)
  | 'i' :: 'n' :: 'f' :: rest => some (.float, rest)
  | 'n' :: 'a' :: 'n' :: rest => some (.float, rest)
  | cs => do
    let (whole, rest) ← whole? cs
    let (fraction, rest) ← fraction? rest
    let (power, rest) ← power? rest
    if fraction = [] ∧ power = [] then
      let n : Int := ofDigits 10 whole
      let n ← int64? (if negative then -n else n)
      return (.int n, rest)
    else
      let number ← float? negative (whole ++ fraction ++ power)
      return (number, rest)

/-- Reads a number. Only integers to base ten may have a sign. -/
def number? : List Char → Option (Number × List Char)
  | '0' :: 'x' :: rest => based? 16 isHexDigit rest
  | '0' :: 'o' :: rest => based? 8 isOctalDigit rest
  | '0' :: 'b' :: rest => based? 2 isBinaryDigit rest
  | '-' :: rest => unsigned? true rest
  | '+' :: rest => unsigned? false rest
  | cs => unsigned? false cs

/-! ## Dates and times -/

/-- Reads a number of exactly `count` digits. -/
def fixed? (count : Nat) (cs : List Char) : Option (Nat × List Char) :=
  let digits := cs.take count
  if digits.length = count ∧ digits.all Char.isDigit then
    some (ofDigits 10 digits, cs.drop count)
  else none

/-- Reads a character that has to be there. -/
def expect? (c : Char) : List Char → Option (List Char)
  | d :: rest => if d = c then some rest else none
  | [] => none

/-- The number of days of a month. -/
def daysIn (year month : Nat) : Nat :=
  if month = 2 then
    if year % 4 = 0 ∧ (year % 100 ≠ 0 ∨ year % 400 = 0) then 29 else 28
  else if month = 4 ∨ month = 6 ∨ month = 9 ∨ month = 11 then 30
  else 31

/-- Reads a date. -/
def date? (cs : List Char) : Option (List Char) := do
  let (year, cs) ← fixed? 4 cs
  let (month, cs) ← fixed? 2 (← expect? '-' cs)
  let (day, cs) ← fixed? 2 (← expect? '-' cs)
  if 1 ≤ month ∧ month ≤ 12 ∧ 1 ≤ day ∧ day ≤ daysIn year month then some cs else none

/-- Leaves out the fraction of a second. -/
def skipSecondFraction : List Char → List Char
  | '.' :: c :: rest => if c.isDigit then rest.dropWhile Char.isDigit else '.' :: c :: rest
  | cs => cs

/-- Reads a time of day. -/
def time? (cs : List Char) : Option (List Char) := do
  let (hour, cs) ← fixed? 2 cs
  let (minute, cs) ← fixed? 2 (← expect? ':' cs)
  let (second, cs) ← fixed? 2 (← expect? ':' cs)
  if hour ≤ 23 ∧ minute ≤ 59 ∧ second ≤ 60 then some (skipSecondFraction cs) else none

/-- Reads a distance from universal time. -/
def offset? : List Char → Option (List Char)
  | c :: rest =>
    if c = 'Z' ∨ c = 'z' then some rest
    else if c = '+' ∨ c = '-' then do
      let (hour, cs) ← fixed? 2 rest
      let (minute, cs) ← fixed? 2 (← expect? ':' cs)
      if hour ≤ 23 ∧ minute ≤ 59 then some cs else none
    else none
  | [] => none

/-- Reads the time of day that may follow a date. -/
def timeAfterDate? : List Char → Option (List Char)
  | c :: rest =>
    if c = 'T' ∨ c = 't' ∨ c = ' ' then (time? rest).map fun cs ↦ (offset? cs).getD cs else none
  | [] => none

/-- Reads a date, a time, or both. -/
def moment? (cs : List Char) : Option (List Char) :=
  match date? cs with
  | some rest => some ((timeAfterDate? rest).getD rest)
  | none => time? cs

end GameBridge.Toml
