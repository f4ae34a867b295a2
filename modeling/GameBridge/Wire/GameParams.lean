import GameBridge.GameId
import GameBridge.Json.Value
import GameBridge.Number.Shortest
import GameBridge.Text.Quoted

/-!
# The parameters of a request

A method about one game takes the id of the game, as the member `game_id` of an object or as the
only item of an array. `GameParams.parse` gives the id without the white space around it, or says
what is wrong: first with the shape, then with the id, which must not be blank, is limited to 64
bytes before it is trimmed, and consists of letters, digits and two marks.
-/

namespace GameBridge.Wire

/-- What a host is told when its request fails. -/
structure ErrorInfo where
  /-- The stable name of the kind of error. -/
  code : String
  /-- The message for people. -/
  message : String
deriving DecidableEq, Repr

namespace GameParams

open Json

/-! ## The shape -/

/-- Why parameters do not have the right shape. -/
inductive ShapeFault where
  /-- A value of another type is needed. -/
  | wrongType (found : Value) (needed : String)
  /-- An object has a member that it should not have. -/
  | unknownMember (name : String)
  /-- The id is missing from an object. -/
  | missingId
  /-- An array is empty. -/
  | empty
  /-- An array has too many items. -/
  | tooMany (count : Nat)

/-- What kind of value was found, in messages. -/
def describe : Value → String
  | .null => "null"
  | .bool true => "boolean `true`"
  | .bool false => "boolean `false`"
  | .int n => "integer `" ++ Decimal.text n.val ++ "`"
  | .float x => "floating point `" ++ x.text ++ "`"
  | .str s => "string " ++ Text.quoted s
  | .arr _ => "sequence"
  | .obj _ => "map"

/-- The message for people. -/
def ShapeFault.message : ShapeFault → String
  | wrongType found needed => "invalid type: " ++ describe found ++ ", expected " ++ needed
  | unknownMember name => "unknown field `" ++ name ++ "`, expected `game_id`"
  | missingId => "missing field `game_id`"
  | empty => "invalid length 0, expected struct GameParams with 1 element"
  | tooMany count =>
    "invalid length " ++ toString count ++ ", expected fewer elements in array"

/-- The text of a value that should be one. -/
def textOf : Value → Except ShapeFault String
  | .str s => .ok s
  | found => .error (.wrongType found "a string")

/-- The id among members that are looked at in their order; `found` is the id found so far. -/
def idAmong (found : Option String) : List (String × Value) → Except ShapeFault String
  | [] =>
    match found with
    | some id => .ok id
    | none => .error .missingId
  | (name, value) :: rest =>
    if name = "game_id" then
      match textOf value with
      | .ok id => idAmong (some id) rest
      | .error fault => .error fault
    else .error (.unknownMember name)

/-- The id that parameters hold. -/
def idOf : Value → Except ShapeFault String
  | .obj members => idAmong none members
  | .arr [] => .error .empty
  | .arr [item] => textOf item
  | .arr (item :: rest) =>
    match textOf item with
    | .ok _ => .error (.tooMany (rest.length + 1))
    | .error fault => .error fault
  | found => .error (.wrongType found "struct GameParams")

/-! ## The id -/

/-- How many bytes an id may have. -/
def maxBytes : Nat := 64

/-- Checks an id: the size of the text as it is, the rest after trimming. -/
def validate (raw : String) : Except ErrorInfo Unit :=
  let trimmed := Text.trim raw
  -- a blank id counts as missing, however long it is
  if trimmed = "" then .error ⟨"missing_field", "game_id is required"⟩
  else if maxBytes < raw.utf8ByteSize then
    .error ⟨"invalid_game_id", "game_id must be 64 characters or fewer"⟩
  else if trimmed.toList.all GameId.isIdChar then .ok ()
  else .error ⟨"invalid_game_id", "game_id must be alphanumeric"⟩

/-- The id of the game that parameters name. -/
def parse (params : Option Value) : Except ErrorInfo String := do
  match params with
  | none => .error ⟨"invalid_params", "game_id is required"⟩
  | some value =>
    match idOf value with
    | .error fault =>
      .error ⟨"invalid_params", "game params are invalid JSON: " ++ fault.message⟩
    | .ok raw =>
      validate raw
      return Text.trim raw

end GameParams

end GameBridge.Wire
