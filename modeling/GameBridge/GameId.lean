import GameBridge.Text.Blank
import GameBridge.Text.Decimal

/-!
# Game ids

Games are numbered, but a host names them by text, and several texts can mean one number: leading
zeros, a sign and surrounding white space make no difference. `GameId.canonical` picks one spelling
for each game. Caches, stored keys and links only ever hold canonical ids.

A text that is not a 64-bit integer is its own canonical form, white space aside.
-/

namespace GameBridge.GameId

/-- The one spelling of an id that all others are replaced by. -/
def canonical (raw : String) : String :=
  let trimmed := Text.trim raw
  match Decimal.readInt64? trimmed with
  | some n => Decimal.ofInt64 n
  | none => trimmed

/-- The characters of the ids that hosts may use. -/
def isIdChar (c : Char) : Bool := c.isAlphanum || c == '-' || c == '_'

/-- The link that makes the client show a game. -/
def uri (scheme id : String) : String := scheme ++ "://games/" ++ id

end GameBridge.GameId
