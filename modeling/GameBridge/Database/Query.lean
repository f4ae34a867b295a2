import GameBridge.Catalog.Installation
import GameBridge.Catalog.Ownership
import GameBridge.Database.Table

/-!
# Queries

Four questions are put to the client's database: which games are owned, which are installed, where
one game is installed, and who the user is. A query joins, filters and orders rows as the database
would, and then decodes them one after the other; the first cell of the wrong kind makes the whole
query fail.

A game is owned when there is a download key for it, or when it is in a collection and its price
is zero. A missing price is not zero here, although it is reported as zero.
-/

namespace GameBridge

/-- A user of the client. -/
structure User where
  /-- The number of the user. -/
  id : Int64
  /-- The name of the user. -/
  name : String
deriving DecidableEq, Repr

namespace Database

/-! ## Decoding cells -/

/-- Where a cell stands in the result of a query. -/
structure Place where
  /-- The number of the column. -/
  column : Nat
  /-- The name of the column. -/
  name : String

/-- The fault of a cell that has the wrong kind. -/
def Place.refuse {α : Type} (place : Place) (cell : Cell) : Except QueryFault α :=
  .error (.wrongKind cell.kind place.column place.name)

/-- An integer that may be missing. -/
def integer? (place : Place) : Cell → Except QueryFault (Option Int64)
  | .integer n => .ok (some n)
  | .null => .ok none
  | cell => place.refuse cell

/-- A text that may be missing. -/
def text? (place : Place) : Cell → Except QueryFault (Option String)
  | .text s => .ok (some s)
  | .null => .ok none
  | cell => place.refuse cell

/-- An integer. -/
def integer (place : Place) : Cell → Except QueryFault Int64
  | .integer n => .ok n
  | cell => place.refuse cell

/-- A text. -/
def text (place : Place) : Cell → Except QueryFault String
  | .text s => .ok s
  | cell => place.refuse cell

/-! ## Combining tables -/

/-- Each row with every row of another table that belongs to it, or alone if there is none. -/
def leftJoin {α β : Type} (belongs : α → β → Bool) (rows : List α) (others : List β) :
    List (α × Option β) :=
  rows.flatMap fun a ↦
    match others.filter (belongs a) with
    | [] => [(a, none)]
    | found => found.map fun b ↦ (a, some b)

/-- Each row with every row of another table that belongs to it. -/
def innerJoin {α β : Type} (belongs : α → β → Bool) (rows : List α) (others : List β) :
    List (α × β) :=
  rows.flatMap fun a ↦ (others.filter (belongs a)).map fun b ↦ (a, b)

/-- The rows of a table that may be missing. -/
def rowsOf {α : Type} (name : String) : Option (List α) → Except QueryFault (List α)
  | some rows => .ok rows
  | none => .error (.missingTable name)

/-! ## Owned games -/

/-- Whether a collection with a number holds a game that costs nothing. -/
def isFree (game : GameRecord) (entry : Option CollectionRecord) : Bool :=
  match entry with
  | some entry => entry.collectionId != .null && game.minPrice.isNumber 0
  | none => false

/-- The records of the owned games, each once, in ascending order of their numbers. -/
def ownedRecords (games : List GameRecord) (keys : List KeyRecord)
    (entries : List CollectionRecord) : List GameRecord :=
  let withKeys := leftJoin (fun game key ↦ key.gameId.isNumber game.id) games keys
  let joined := leftJoin (fun row entry ↦ entry.gameId.isNumber row.1.id) withKeys entries
  let owned := joined.filter fun row ↦ isFree row.1.1 row.2 || row.1.2.isSome
  -- the joins repeat a game for every key and every collection
  (owned.map fun row ↦ row.1.1).eraseDups.mergeSort fun a b ↦ decide (a.id ≤ b.id)

/-- Decodes a record of an owned game. Missing numbers are zero. -/
def decodeOwned (record : GameRecord) : Except QueryFault OwnershipRow := do
  let title ← text? ⟨1, "title"⟩ record.title
  let minPrice ← integer? ⟨2, "min_price"⟩ record.minPrice
  let canBeBought ← integer? ⟨3, "can_be_bought"⟩ record.canBeBought
  return ⟨record.id, title, minPrice.getD 0, canBeBought.getD 0 == 1⟩

/-- The owned games. -/
def ownership (tables : Tables) : Except Failure (List OwnershipRow) :=
  let records : Except QueryFault (List GameRecord) := do
    let games ← rowsOf "games" tables.games
    let keys ← rowsOf "download_keys" tables.downloadKeys
    let entries ← rowsOf "collection_games" tables.collectionGames
    return ownedRecords games keys entries
  match records with
  | .error fault => .error (.queryFailed "prepare ownership query" fault)
  | .ok records => (records.mapM decodeOwned).mapError (.queryFailed "decode ownership row")

/-! ## Installed games -/

/-- Decodes a record of an installation. -/
def decodeCave (record : CaveRecord) : Except QueryFault InstallationRow := do
  let gameId ← integer ⟨0, "game_id"⟩ record.gameId
  let verdict ← text? ⟨1, "verdict"⟩ record.verdict
  return ⟨gameId, verdict⟩

/-- The installations in ascending order of the game, those of one game in the order of the
table. -/
def installations (tables : Tables) : Except Failure (List InstallationRow) :=
  match rowsOf "caves" tables.caves with
  | .error fault => .error (.queryFailed "prepare caves query" fault)
  | .ok caves =>
    ((caves.mergeSort fun a b ↦ a.gameId.atMost b.gameId).mapM decodeCave).mapError
      (.queryFailed "decode caves row")

/-- The first installation of a game in the order of the table. -/
def installation (tables : Tables) (gameId : Int64) : Except Failure (Option InstallationRow) :=
  let row : Except QueryFault (Option InstallationRow) := do
    let caves ← rowsOf "caves" tables.caves
    (caves.find? fun cave ↦ cave.gameId.isNumber gameId).mapM decodeCave
  row.mapError (.queryFailed "query cave for game")

/-! ## The user -/

/-- Decodes a record of a user. -/
def decodeUser (record : UserRecord) : Except QueryFault User := do
  return ⟨record.id, ← text ⟨1, "username"⟩ record.username⟩

/-- The user with the least number among those who have logged in. -/
def currentUser (tables : Tables) : Except Failure User :=
  let row : Except QueryFault (Option User) := do
    let users ← rowsOf "users" tables.users
    let profiles ← rowsOf "profiles" tables.profiles
    -- a user is looked up by an integer, for which a real number of the same value does not do
    let joined := innerJoin (fun user profile ↦ profile.userId == .integer user.id) users profiles
    let ordered := (joined.map Prod.fst).mergeSort fun a b ↦ decide (a.id ≤ b.id)
    ordered.head?.mapM decodeUser
  match row with
  | .error fault => .error (.queryFailed "query current user" fault)
  | .ok none => .error .userNotFound
  | .ok (some user) => .ok user

/-! ## Opening the database -/

/-- Puts a question to the database in the file at a path. A file that is not a database is only
found out by the question, and fails it in the given context. -/
def ask {α : Type} (file : DatabaseFile) (path : Path) (context : String)
    (question : Tables → Except Failure α) : Except Failure α :=
  match file with
  | .missing => .error (.databaseUnavailable path "file does not exist")
  | .folder => .error (.databaseUnavailable path "failed to open: ")
  | .foreign => .error (.queryFailed context .notDatabase)
  | .tables tables => question tables

end Database

/-- The place of the client's database, and what is there. -/
structure ClientDatabase where
  /-- The path. -/
  path : Path
  /-- What is found at the path. -/
  file : Database.DatabaseFile

namespace ClientDatabase

open Database

/-- The owned games. -/
def ownership (db : ClientDatabase) : Except Failure (List OwnershipRow) :=
  ask db.file db.path "prepare ownership query" Database.ownership

/-- The installations. -/
def installations (db : ClientDatabase) : Except Failure (List InstallationRow) :=
  ask db.file db.path "prepare caves query" Database.installations

/-- The first installation of a game. A game that is not named by a number has none, and for it
the database is not opened. -/
def installation (db : ClientDatabase) (gameId : String) :
    Except Failure (Option InstallationRow) :=
  match Decimal.readInt64? gameId with
  -- no installation belongs to an id that is not a number
  | none => .ok none
  | some n => ask db.file db.path "query cave for game" (Database.installation · n)

/-- The user. -/
def currentUser (db : ClientDatabase) : Except Failure User :=
  ask db.file db.path "query current user" Database.currentUser

end ClientDatabase

end GameBridge
