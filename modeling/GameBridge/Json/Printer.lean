import GameBridge.Json.Value
import GameBridge.Number.Shortest
import GameBridge.Text.Decimal

/-!
# Writing JSON

Values are written without white space, on one line. In strings the quote, the backslash and the
control characters below the blank are escaped, so that a written value holds no line break; all
other characters stand for themselves.

An index of texts also has a form for files, with one indented member on each line.
-/

namespace GameBridge.Json

/-! ## Strings -/

/-- A digit to base sixteen, in lower case. -/
def hexChar (n : Nat) : Char := Nat.digitChar (n % 16)

/-- One character as it is written inside a string. -/
def escapeChar (c : Char) : List Char :=
  if c = '"' then ['\\', '"']
  else if c = '\\' then ['\\', '\\']
  else if c = '\x08' then ['\\', 'b']
  else if c = '\x0c' then ['\\', 'f']
  else if c = '\n' then ['\\', 'n']
  else if c = '\r' then ['\\', 'r']
  else if c = '\t' then ['\\', 't']
  else if c.toNat < 0x20 then ['\\', 'u', '0', '0', hexChar (c.toNat / 16), hexChar c.toNat]
  else [c]

/-- A text as a JSON string. -/
def stringChars (s : String) : List Char := '"' :: s.toList.flatMap escapeChar ++ ['"']

/-! ## Values -/

namespace Value

mutual

/-- A value as JSON text. -/
def chars : Value → List Char
  | .null => ['n', 'u', 'l', 'l']
  | .bool true => ['t', 'r', 'u', 'e']
  | .bool false => ['f', 'a', 'l', 's', 'e']
  | .int n => Decimal.intChars n.val
  | .float x => x.chars
  | .str s => stringChars s
  | .arr [] => ['[', ']']
  | .arr (item :: rest) => '[' :: chars item ++ moreItems rest
  | .obj [] => ['{', '}']
  | .obj ((name, value) :: rest) =>
    '{' :: stringChars name ++ ':' :: chars value ++ moreMembers rest

/-- The further items of an array, and its end. -/
def moreItems : List Value → List Char
  | [] => [']']
  | item :: rest => ',' :: chars item ++ moreItems rest

/-- The further members of an object, and its end. -/
def moreMembers : List (String × Value) → List Char
  | [] => ['}']
  | (name, value) :: rest => ',' :: stringChars name ++ ':' :: chars value ++ moreMembers rest

end

/-- A value as JSON text. -/
def text (value : Value) : String := String.ofList value.chars

end Value

/-! ## Records -/

/-- An object whose members are written in the order given. -/
def recordChars (members : List (String × Value)) : List Char := (Value.obj members).chars

/-! ## Files -/

/-- The further lines of an index of texts, and its end. -/
def moreLines : List (String × String) → List Char
  | [] => ['\n', '}']
  | (key, value) :: rest =>
    [',', '\n', ' ', ' '] ++ stringChars key ++ [':', ' '] ++ stringChars value ++ moreLines rest

/-- An index of texts as an object with one member on each line. -/
def indexChars (index : Index String) : List Char :=
  match index.entries with
  | [] => ['{', '}']
  | (key, value) :: rest =>
    ['{', '\n', ' ', ' '] ++ stringChars key ++ [':', ' '] ++ stringChars value ++ moreLines rest

/-- The content of the file that holds an index of texts. -/
def indexBytes (index : Index String) : List UInt8 := (indexChars index).flatMap Text.charBytes

end GameBridge.Json
