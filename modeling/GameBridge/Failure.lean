import GameBridge.Path

/-!
# What can go wrong

A `Failure` is the cause of an operation that did not succeed. Every cause has a stable code, which
is what a host sees on the wire, and a message for people.

Details that come from elsewhere, such as the wording of the file system or of a reader, are cut:
a message then ends where they would begin.

A `Crash` is no answer like the others: an operation that crashes leaves none at all.
-/

namespace GameBridge

/-! ## Causes -/

/-- The kinds of values that a cell of a database can hold. -/
inductive CellKind where
  /-- No value. -/
  | null
  /-- An integer. -/
  | integer
  /-- A floating-point number. -/
  | real
  /-- A text. -/
  | text
  /-- A sequence of bytes. -/
  | blob
deriving DecidableEq, Repr

namespace CellKind

/-- The name of the kind in messages. -/
def name : CellKind → String
  | null => "Null"
  | integer => "Integer"
  | real => "Real"
  | text => "Text"
  | blob => "Blob"

end CellKind

/-- Why a query of the database fails. -/
inductive QueryFault where
  /-- A cell of a result has the wrong kind. -/
  | wrongKind (kind : CellKind) (column : Nat) (name : String)
  /-- A table that the query names does not exist. -/
  | missingTable (name : String)
  /-- The file does not hold a database. -/
  | notDatabase
  /-- A parameter has a name that the query does not know. -/
  | unknownParameter (name : String)
deriving DecidableEq, Repr

namespace QueryFault

/-- The message for people. -/
def message : QueryFault → String
  | wrongKind kind column name =>
    "Invalid column type " ++ kind.name ++ " at index: " ++ toString column ++ ", name: " ++ name
  | missingTable name => "no such table: " ++ name
  | notDatabase => "file is not a database"
  | unknownParameter name => "Invalid parameter name: " ++ name

end QueryFault

/-- Why an operation fails. -/
inductive Failure where
  /-- The database of the client cannot be opened. -/
  | databaseUnavailable (path : Path) (details : String)
  /-- A query of the database fails. -/
  | queryFailed (context : String) (cause : QueryFault)
  /-- The database names no user. -/
  | userNotFound
  /-- What is recorded for a game cannot be read. -/
  | malformedRecord (gameId : String) (details : String)
  /-- The executable of a game does not exist. -/
  | executableNotFound (path : Path)
  /-- A game is not installed. -/
  | gameNotInstalled (gameId : String)
  /-- A value cannot be stored. -/
  | writeFailed (key : String) (details : String)
  /-- The stored values cannot be read. -/
  | readFailed (path : Path) (details : String)
  /-- An executable cannot be run. -/
  | launchFailed (path : Path) (cause : String)
  /-- A link cannot be opened. -/
  | openFailed (uri : String) (details : String)
deriving DecidableEq, Repr

namespace Failure

/-- The stable name of the kind of failure. -/
def code : Failure → String
  | databaseUnavailable .. => "data_store_unavailable"
  | queryFailed .. => "data_store_query"
  | userNotFound => "user_not_found"
  | malformedRecord .. => "malformed_record"
  | executableNotFound .. => "executable_not_found"
  | gameNotInstalled .. => "game_not_installed"
  | writeFailed .. => "persistence_write_failure"
  | readFailed .. => "persistence_read_failure"
  | launchFailed .. => "launch_failed"
  | openFailed .. => "uri_open_failed"

/-- The message for people. -/
def message : Failure → String
  | databaseUnavailable path details =>
    "Butler database unavailable at " ++ path ++ ": " ++ details
  | queryFailed context cause =>
    "Butler database query failed: " ++ context ++ ": " ++ cause.message
  | userNotFound => "No itch user found in butler database"
  | malformedRecord gameId details => "Malformed record for game " ++ gameId ++ ": " ++ details
  | executableNotFound path => "Executable not found: " ++ path
  | gameNotInstalled gameId => "Game not installed: " ++ gameId
  | writeFailed key details => "Persistent cache write failed: " ++ key ++ ": " ++ details
  | readFailed path details => "Persistent cache read failed: " ++ path ++ ": " ++ details
  | launchFailed path cause => "Failed to launch " ++ path ++ ": " ++ cause
  | openFailed uri details => "Failed to open " ++ uri ++ ": " ++ details

end Failure

/-! ## Crashes -/

/-- Why an operation ends without an answer. -/
inductive Crash where
  /-- The source of the records gave up. -/
  | source
  /-- A sum of times exceeds 64 bits. -/
  | sumTooLarge
  /-- A difference of times exceeds 64 bits. -/
  | differenceTooLarge
deriving DecidableEq, Repr

namespace Crash

/-- The message for people. -/
def message : Crash → String
  | source => "repository panicked"
  | sumTooLarge => "attempt to add with overflow"
  | differenceTooLarge => "attempt to subtract with overflow"

end Crash

end GameBridge
