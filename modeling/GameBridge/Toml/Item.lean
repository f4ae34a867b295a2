import GameBridge.Index
import GameBridge.Toml.Number
import GameBridge.Toml.Text

/-!
# Values of TOML

An item is anything that a key can lead to. Tables remember how they came to be, since that decides
what may still be added to them: a table with a header or in braces is complete once it is written,
while one that only exists because a longer key leads through it can be entered again.
-/

namespace GameBridge.Toml

/-- How a table came to be. -/
inductive Origin where
  /-- It has a header of its own. -/
  | header
  /-- A header leads through it. -/
  | implied
  /-- A key with dots leads through it. -/
  | dotted
  /-- It is written in braces. -/
  | braced
  /-- A key with dots leads through it within braces. -/
  | dottedBraced
deriving DecidableEq, Repr

/-- What a key leads to. -/
inductive Item where
  /-- A text. -/
  | text (value : String)
  /-- An integer. -/
  | int (value : Int64)
  /-- A truth value. -/
  | bool (value : Bool)
  /-- A floating-point number. -/
  | float
  /-- A date or a time. -/
  | moment
  /-- A list of values. -/
  | array (items : List Item)
  /-- A table. -/
  | table (origin : Origin) (entries : List (String × Item))
  /-- A list of tables with headers, the last one first. -/
  | tables (list : List (List (String × Item)))
deriving Repr

/-- The entries of a table. -/
abbrev Entries := List (String × Item)

/-! ## Tables in braces -/

/-- Adds a value to a table in braces, at the end of a path. -/
def addBraced? (value : Item) (entries : Entries) : List String → Option Entries
  | [] => none
  | [key] =>
    match findEntry key entries with
    | none => some (insertEntry key value entries)
    | some _ => none
  | key :: next :: path =>
    match findEntry key entries with
    | none =>
      (addBraced? value [] (next :: path)).map fun child ↦
        insertEntry key (.table .dottedBraced child) entries
    | some (.table .dottedBraced child) =>
      (addBraced? value child (next :: path)).map fun child ↦
        insertEntry key (.table .dottedBraced child) entries
    | some _ => none

/-! ## Reading values -/

/-- What reads a value. -/
abbrev ValueReader := List Char → Option (Item × List Char)

/-- Reads at most `fuel` items of an array, and its end. -/
def items? (value : ValueReader) : Nat → List Char → Option (List Item × List Char)
  | 0, _ => none
  | fuel + 1, cs => do
    let cs ← skipLines? false cs
    match cs with
    | ']' :: rest => return ([], rest)
    | cs =>
      let (item, cs) ← value cs
      match ← skipLines? false cs with
      | ',' :: rest =>
        let (more, rest) ← items? value fuel rest
        return (item :: more, rest)
      | ']' :: rest => return ([item], rest)
      | _ => none

/-- Reads a key and its value. -/
def pair? (value : ValueReader) (cs : List Char) : Option ((List String × Item) × List Char) := do
  let (path, cs) ← key? cs
  let (item, cs) ← value (skipBlanks (← expect? '=' cs))
  return ((path, item), cs)

/-- Reads at most `fuel` entries of a table in braces into those before, and its end. -/
def braced? (value : ValueReader) (before : Entries) :
    Nat → List Char → Option (Entries × List Char)
  | 0, _ => none
  | fuel + 1, cs => do
    let ((path, item), cs) ← pair? value cs
    let entries ← addBraced? item before path
    match skipBlanks cs with
    | ',' :: rest => braced? value entries fuel rest
    | '}' :: rest => return (entries, rest)
    | _ => none

/-- Reads a value that holds no others. -/
def scalar? : ValueReader
  | '"' :: rest => (string? ('"' :: rest)).map fun (s, rest) ↦ (.text s, rest)
  | '\'' :: rest => (string? ('\'' :: rest)).map fun (s, rest) ↦ (.text s, rest)
  | 't' :: 'r' :: 'u' :: 'e' :: rest => some (.bool true, rest)
  | 'f' :: 'a' :: 'l' :: 's' :: 'e' :: rest => some (.bool false, rest)
  | cs =>
    match moment? cs with
    | some rest => some (.moment, rest)
    | none =>
      match number? cs with
      | some (.int n, rest) => some (.int n, rest)
      | some (.float, rest) => some (.float, rest)
      | none => none

/-- Reads a value with at most `depth` levels of arrays and tables, none of which has more than
`fuel` items. -/
def value? (fuel : Nat) : Nat → ValueReader
  | 0, '[' :: _ => none
  | 0, '{' :: _ => none
  | depth + 1, '[' :: rest =>
    (items? (value? fuel depth) fuel rest).map fun (items, rest) ↦ (.array items, rest)
  | depth + 1, '{' :: rest =>
    match skipBlanks rest with
    | '}' :: rest => some (.table .braced [], rest)
    | cs =>
      (braced? (value? fuel depth) [] fuel cs).map fun (entries, rest) ↦
        (.table .braced entries, rest)
  | _, cs => scalar? cs

end GameBridge.Toml
