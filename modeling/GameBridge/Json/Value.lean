import GameBridge.Index
import GameBridge.Json.Document

/-!
# JSON values

A value is a document read for its meaning: numbers are numbers, every string has a text, and the
members of an object are filed under their names in ascending order, the last of several members
with one name counting.

Values are not nested without limit. `Value.ofDocument?` takes the number of arrays and objects
that may still be opened.
-/

namespace GameBridge.Json

/-- A JSON value. -/
inductive Value where
  /-- No value. -/
  | null
  /-- A truth value. -/
  | bool (value : Bool)
  /-- An integer. -/
  | int (value : Integer)
  /-- A floating-point number. -/
  | float (value : Binary64)
  /-- A text. -/
  | str (text : String)
  /-- A list of values. -/
  | arr (items : List Value)
  /-- Values under names, in ascending order of the name. -/
  | obj (members : List (String × Value))
deriving Repr, Inhabited

/-- How many arrays and objects may be open at once in a text that is read for its values. -/
def maxDepth : Nat := 127

namespace Value

/-- The value of a number. -/
def ofNumber : Number → Value
  | .int n => .int n
  | .float x => .float x

mutual

/-- The value that a document stands for, with at most `depth` levels of nesting. -/
def ofDocument? (depth : Nat) : Document → Option Value
  | .null => some .null
  | .bool b => some (.bool b)
  | .num l => l.number?.map ofNumber
  | .str s => s.map .str
  | .arr items =>
    match depth with
    | 0 => none
    | depth + 1 => (ofItems? depth items).map .arr
  | .obj members =>
    match depth with
    | 0 => none
    | depth + 1 => (ofMembers? depth [] members).map .obj

/-- The values of the items of an array. -/
def ofItems? (depth : Nat) : List Document → Option (List Value)
  | [] => some []
  | item :: rest =>
    match ofDocument? depth item with
    | some value => (ofItems? depth rest).map (value :: ·)
    | none => none

/-- Files the members of an object among those read before. -/
def ofMembers? (depth : Nat) (before : List (String × Value)) :
    List (Option String × Document) → Option (List (String × Value))
  | [] => some before
  | (some name, document) :: rest =>
    match ofDocument? depth document with
    | some value => ofMembers? depth (insertEntry name value before) rest
    | none => none
  | (none, _) :: _ => none

end

/-- The value that a JSON text holds. -/
def read? (bytes : List UInt8) : Option Value := (Document.read? bytes).bind (ofDocument? maxDepth)

/-! ## Making values -/

/-- A signed integer. -/
def ofInt64 (n : Int64) : Value := .int (.ofInt64 n)

/-- An unsigned integer. -/
def ofUInt64 (n : UInt64) : Value := .int (.ofUInt64 n)

/-- What may be missing; `null` if it is. -/
def ofOption {α : Type} (make : α → Value) : Option α → Value
  | some a => make a
  | none => .null

/-- An object with the given members; of several with one name the last counts. -/
def object (members : List (String × Value)) : Value :=
  .obj (members.foldl (fun entries (name, value) ↦ insertEntry name value entries) [])

/-- An array of texts. -/
def texts (items : List String) : Value := .arr (items.map .str)

/-! ## Looking into values -/

/-- The value of a member of an object. -/
def member? (name : String) : Value → Option Value
  | .obj members => findEntry name members
  | _ => none

/-- The text of a string. -/
def text? : Value → Option String
  | .str s => some s
  | _ => none

end Value

end GameBridge.Json
