import GameBridge.Database.Cell

/-!
# Tables

The client's database has a table for the games it knows, two for the ways of owning one, one for
installations, which it calls caves, and two for its users. A table may be missing altogether.

`Database.ofTables` fills the tables row by row. Every table but that of the caves numbers its
rows in the first column; a row that leaves its number open gets the one after the largest.
-/

namespace GameBridge.Database

/-! ## Rows -/

/-- A game that the client knows. -/
structure GameRecord where
  /-- The number of the game. -/
  id : Int64
  /-- Its title. -/
  title : Cell
  /-- Its least price. -/
  minPrice : Cell
  /-- Whether it is on sale. -/
  canBeBought : Cell
deriving DecidableEq, Repr

/-- A key that allows a game to be downloaded. -/
structure KeyRecord where
  /-- The number of the key. -/
  id : Int64
  /-- The game. -/
  gameId : Cell
deriving DecidableEq, Repr

/-- A game in a collection. -/
structure CollectionRecord where
  /-- The collection. -/
  collectionId : Cell
  /-- The game. -/
  gameId : Cell
deriving DecidableEq, Repr

/-- An installation of a game. -/
structure CaveRecord where
  /-- The name of the installation. -/
  id : Cell
  /-- The game. -/
  gameId : Cell
  /-- What was found when it was installed. -/
  verdict : Cell
deriving DecidableEq, Repr

/-- A user. -/
structure UserRecord where
  /-- The number of the user. -/
  id : Int64
  /-- The name of the user. -/
  username : Cell
deriving DecidableEq, Repr

/-- A user who has logged in. -/
structure ProfileRecord where
  /-- The number of the profile. -/
  id : Int64
  /-- The user. -/
  userId : Cell
deriving DecidableEq, Repr

/-- The content of the database; a table that is missing has no list of rows. -/
structure Tables where
  /-- The table `games`. -/
  games : Option (List GameRecord)
  /-- The table `download_keys`. -/
  downloadKeys : Option (List KeyRecord)
  /-- The table `collection_games`. -/
  collectionGames : Option (List CollectionRecord)
  /-- The table `caves`. -/
  caves : Option (List CaveRecord)
  /-- The table `users`. -/
  users : Option (List UserRecord)
  /-- The table `profiles`. -/
  profiles : Option (List ProfileRecord)
deriving DecidableEq, Repr

namespace Tables

/-- A database without tables. -/
def none : Tables := ⟨.none, .none, .none, .none, .none, .none⟩

end Tables

/-! ## Filling tables -/

/-- The cell of a row in a column; nothing beyond the end of the row. -/
def column (row : List Cell) (index : Nat) : Cell := row.getD index .null

/-- The number of a new row, given the largest number so far. -/
def rowNumber? (largest : Option Int64) (cell : Cell) : Option Int64 :=
  match cell.asInteger with
  | .integer n => some n
  | .null => some (match largest with
    | some n => n + 1
    | none => 1)
  | _ => none

/-- Numbers rows from their first column. A row whose number is not an integer is refused. -/
def numberRows (largest : Option Int64) : List (List Cell) → List (Int64 × List Cell)
  | [] => []
  | row :: rest =>
    match rowNumber? largest (column row 0) with
    | some n =>
      let largest := match largest with
        | some m => if m < n then n else m
        | none => n
      (n, row) :: numberRows (some largest) rest
    | none => numberRows largest rest

namespace GameRecord

/-- The rows of the table as it stores them. -/
def ofRows (rows : List (List Cell)) : List GameRecord :=
  (numberRows none rows).map fun (n, row) ↦
    ⟨n, (column row 1).asText, (column row 2).asInteger, (column row 3).asInteger⟩

end GameRecord

namespace KeyRecord

/-- The rows of the table as it stores them. -/
def ofRows (rows : List (List Cell)) : List KeyRecord :=
  (numberRows none rows).map fun (n, row) ↦ ⟨n, (column row 1).asInteger⟩

end KeyRecord

namespace CollectionRecord

/-- The rows of the table as it stores them. -/
def ofRows (rows : List (List Cell)) : List CollectionRecord :=
  rows.map fun row ↦ ⟨(column row 0).asInteger, (column row 1).asInteger⟩

end CollectionRecord

namespace CaveRecord

/-- The rows of the table as it stores them. -/
def ofRows (rows : List (List Cell)) : List CaveRecord :=
  rows.map fun row ↦ ⟨(column row 0).asText, (column row 1).asInteger, (column row 2).asText⟩

end CaveRecord

namespace UserRecord

/-- The rows of the table as it stores them. -/
def ofRows (rows : List (List Cell)) : List UserRecord :=
  (numberRows none rows).map fun (n, row) ↦ ⟨n, (column row 1).asText⟩

end UserRecord

namespace ProfileRecord

/-- The rows of the table as it stores them. -/
def ofRows (rows : List (List Cell)) : List ProfileRecord :=
  (numberRows none rows).map fun (n, row) ↦ ⟨n, (column row 1).asInteger⟩

end ProfileRecord

/-! ## Files -/

/-- What is found at the path of the database. -/
inductive DatabaseFile where
  /-- Nothing. -/
  | missing
  /-- A folder. -/
  | folder
  /-- A file that is not a database. -/
  | foreign
  /-- A database. -/
  | tables (content : Tables)
deriving DecidableEq, Repr

namespace DatabaseFile

/-- A file with the given content, which is not that of a database with tables. A file with a
single byte counts as empty. -/
def ofBytes (content : List UInt8) : DatabaseFile :=
  if content.length ≤ 1 then tables .none else foreign

/-- Whether there is anything at the path. -/
def isPresent : DatabaseFile → Bool
  | missing => false
  | _ => true

end DatabaseFile

end GameBridge.Database
