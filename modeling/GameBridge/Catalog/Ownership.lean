import GameBridge.Failure
import GameBridge.Index
import GameBridge.Text.Blank
import GameBridge.Text.Decimal

/-!
# Owned games

The database lists the games that a user owns with their title and their price. `classify` turns
these rows into catalog entries filed under the canonical id: rows without a visible title are
skipped, and of several rows of one game the last good one counts.
-/

namespace GameBridge

/-- How a game may be had. -/
inductive License where
  /-- It costs nothing. -/
  | freeToPlay
  /-- It is bought once. -/
  | singlePurchase
deriving DecidableEq, Repr

namespace License

/-- The name of the license on the wire. -/
def name : License → String
  | freeToPlay => "free_to_play"
  | singlePurchase => "single_purchase"

/-- The license of a game. A game with no price is free, whether or not it is on sale. -/
def ofPrice (canBeBought : Bool) (minPrice : Int64) : License :=
  if canBeBought = true ∧ 0 < minPrice then singlePurchase else freeToPlay

end License

/-- A game that the user owns, as the database has it. -/
structure OwnershipRow where
  /-- The number of the game. -/
  id : Int64
  /-- The title, if there is one. -/
  title : Option String
  /-- The least price. -/
  minPrice : Int64
  /-- Whether the game is on sale. -/
  canBeBought : Bool
deriving DecidableEq, Repr

/-- An owned game in the catalog. -/
structure CatalogEntry where
  /-- The canonical id. -/
  id : String
  /-- The title without white space around it. -/
  title : String
  /-- The license. -/
  license : License
deriving DecidableEq, Repr

namespace CatalogEntry

/-- The entry of a row. A row needs a title that is not blank. -/
def ofRow (row : OwnershipRow) : Except Failure CatalogEntry :=
  match row.title.map Text.trim with
  | none => .error (.malformedRecord (Decimal.ofInt64 row.id) "missing title")
  | some title =>
    if title = "" then .error (.malformedRecord (Decimal.ofInt64 row.id) "missing title")
    else .ok ⟨Decimal.ofInt64 row.id, title, .ofPrice row.canBeBought row.minPrice⟩

end CatalogEntry

/-- Files the entry of a row, if it has one. -/
def fileOwned (entries : Index CatalogEntry) (row : OwnershipRow) : Index CatalogEntry :=
  match CatalogEntry.ofRow row with
  | .ok entry => entries.insert entry.id entry
  | .error _ => entries

/-- The catalog that rows make up. -/
def classify (rows : List OwnershipRow) : Index CatalogEntry := rows.foldl fileOwned .empty

end GameBridge
