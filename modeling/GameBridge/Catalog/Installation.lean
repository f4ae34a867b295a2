import GameBridge.Failure
import GameBridge.Index
import GameBridge.Json.Record
import GameBridge.Text.Decimal

/-!
# Installed games

Where a game is installed is recorded as a verdict, a JSON text with a folder and the executables
that were found in it. Only the first of these is ever run. A game whose first executable is
missing on the disk counts as not installed, even if a later one exists.

`resolve` turns the rows of the database into entries filed under the canonical id. Rows with a
verdict that cannot be read are skipped, and of several rows of one game the last one that names
an existing executable counts.
-/

namespace GameBridge

/-! ## Verdicts -/

/-- What was found when a game was installed. -/
structure Verdict where
  /-- The folder of the game. -/
  basePath : Path
  /-- The executables in it, the best first. -/
  candidates : List Path
deriving DecidableEq, Repr

namespace Verdict

/-- The fields of an executable in a verdict. -/
def candidateLayout : Json.Layout := ⟨["path"], 1, false⟩

/-- The fields of a verdict. -/
def layout : Json.Layout := ⟨["basePath", "candidates"], 1, false⟩

/-- Reads an executable. -/
def candidate? (document : Json.Document) : Option Path := do
  let field ← candidateLayout.fields? document
  (← field "path").text?

/-- Reads a list of executables. -/
def candidates? : Json.Document → Option (List Path)
  | .arr items => items.mapM candidate?
  | _ => none

/-- Reads a verdict. A list of executables that is missing or `null` is empty. -/
def ofDocument? (document : Json.Document) : Option Verdict := do
  let field ← layout.fields? document
  let basePath ← (← field "basePath").text?
  match field "candidates" with
  | none => some ⟨basePath, []⟩
  | some .null => some ⟨basePath, []⟩
  | some list => (candidates? list).map fun paths ↦ ⟨basePath, paths⟩

/-- Reads a verdict from its text. -/
def read? (text : String) : Option Verdict :=
  (Json.Document.read? (Text.bytes text)).bind ofDocument?

/-- The path of the executable to run, if there is one. -/
def executable? (verdict : Verdict) : Option Path :=
  verdict.candidates.head?.map verdict.basePath.join

end Verdict

/-- The executable that the verdict on a game names, if it names one. -/
def executableOf (gameId : Int64) (text : String) : Except Failure (Option Path) :=
  match Verdict.read? text with
  | some verdict => .ok verdict.executable?
  | none => .error (.malformedRecord (Decimal.ofInt64 gameId) "invalid verdict JSON: ")

/-! ## Rows and entries -/

/-- Whether a path refers to a file. -/
abbrev FileCheck := Path → Bool

/-- An installed game, as the database has it. -/
structure InstallationRow where
  /-- The number of the game. -/
  gameId : Int64
  /-- The text of the verdict, if there is one. -/
  verdict : Option String
deriving DecidableEq, Repr

/-- An installed game that can be run. -/
structure InstalledEntry where
  /-- The canonical id. -/
  id : String
  /-- The executable. -/
  executable : Path
deriving DecidableEq, Repr

/-- The entry of a row, unless the game turns out not to be installed. -/
def resolveRow (row : InstallationRow) (isFile : FileCheck) :
    Except Failure (Option InstalledEntry) :=
  match row.verdict with
  | none => .error (.malformedRecord (Decimal.ofInt64 row.gameId) "missing verdict")
  | some text =>
    match executableOf row.gameId text with
    | .error failure => .error failure
    | .ok none => .ok none
    | .ok (some executable) =>
      if isFile executable then .ok (some ⟨Decimal.ofInt64 row.gameId, executable⟩) else .ok none

/-- Files the entry of a row, if it has one. -/
def fileInstalled (isFile : FileCheck) (entries : Index InstalledEntry) (row : InstallationRow) :
    Index InstalledEntry :=
  match resolveRow row isFile with
  | .ok (some entry) => entries.insert entry.id entry
  | _ => entries

/-- The installed games that rows make up. -/
def resolve (rows : List InstallationRow) (isFile : FileCheck) : Index InstalledEntry :=
  rows.foldl (fileInstalled isFile) .empty

end GameBridge
