import GameBridge.Database.Query
import GameBridge.Schedule

/-!
# What lies around the engine

The engine is told about games by a source, usually the client's database. It runs executables and
opens links through a launcher, asks the disk which files exist, and reads a clock. All of this is
gathered in a `World`, which an operation of the engine takes and gives back: the clock moves while
a game runs, files are written, and the journal records what was asked of whom.
-/

namespace GameBridge

/-! ## Endings -/

/-- Why an operation of the engine gives no answer. -/
inductive Stop where
  /-- It crashes. -/
  | crashed (crash : Crash)
  /-- It has to wait until a claim on a task is given back. -/
  | waiting (task : Task)
deriving DecidableEq, Repr

/-- How an operation of the engine can end other than by succeeding. -/
inductive Fault where
  /-- It answers with a failure. -/
  | failed (failure : Failure)
  /-- It gives no answer. -/
  | stopped (stop : Stop)
deriving DecidableEq, Repr

/-! ## The source -/

/-- What the engine can ask about games. -/
structure Source where
  /-- The owned games. -/
  ownership : Except Failure (List OwnershipRow)
  /-- The installations. -/
  installations : Except Failure (List InstallationRow)
  /-- The installation of one game, named by its canonical id. -/
  installation : String → Except Failure (Option InstallationRow)
  /-- The user. -/
  user : Except Failure User
  /-- Whether asking anything makes the source crash. -/
  crashes : Bool := false

namespace Source

/-- The source that asks the client's database. -/
def ofDatabase (db : ClientDatabase) : Source where
  ownership := db.ownership
  installations := db.installations
  installation := db.installation
  user := db.currentUser

/-- The source with fixed rows. A game is looked up by the decimal text of its number. -/
def ofRows (owned : List OwnershipRow) (installed : List InstallationRow) (user : Option User) :
    Source where
  ownership := .ok owned
  installations := .ok installed
  installation := fun id ↦ .ok (installed.find? fun row ↦ Decimal.ofInt64 row.gameId == id)
  user :=
    match user with
    | some user => .ok user
    | none => .error .userNotFound

/-- The source that always fails in the same way. -/
def failing (failure : Failure) : Source where
  ownership := .error failure
  installations := .error failure
  installation := fun _ ↦ .error failure
  user := .error failure

/-- What the engine sees of an answer. -/
def answer {α : Type} (source : Source) (given : Except Failure α) : Except Fault α :=
  if source.crashes then .error (.stopped (.crashed .source)) else given.mapError .failed

end Source

/-! ## The launcher -/

/-- What runs executables and opens links. -/
structure Launcher where
  /-- The seconds for which a game runs. -/
  session : Int64
  /-- Why executables cannot be run, if so. -/
  runFault : Option String
  /-- Why links cannot be opened, if so. -/
  openFault : Option String
deriving DecidableEq, Repr

/-! ## The journal -/

/-- How often the source was asked. -/
structure Fetches where
  /-- For the owned games. -/
  ownership : Nat
  /-- For the installations. -/
  installations : Nat
  /-- For the installation of one game. -/
  installation : Nat
  /-- For the user. -/
  user : Nat
deriving DecidableEq, Repr

/-- What has been asked of the launcher and of the source. -/
structure Journal where
  /-- The executables that were run, in order. -/
  launched : List Path
  /-- The links that were opened, in order. -/
  opened : List String
  /-- How often the source was asked. -/
  fetches : Fetches
deriving DecidableEq, Repr

namespace Journal

/-- Nothing has happened. -/
def blank : Journal := ⟨[], [], ⟨0, 0, 0, 0⟩⟩

end Journal

/-! ## The world -/

/-- Everything around the engine. -/
structure World where
  /-- What the clock shows. -/
  now : Time
  /-- The source. -/
  source : Source
  /-- Which paths refer to files. -/
  isFile : FileCheck
  /-- The launcher. -/
  launcher : Launcher
  /-- The disk on which the store keeps its file. -/
  disk : Disk
  /-- What has been asked of whom. -/
  journal : Journal

namespace World

/-- Notes that the source was asked for the owned games. -/
def noteOwnership (world : World) : World :=
  { world with journal.fetches.ownership := world.journal.fetches.ownership + 1 }

/-- Notes that the source was asked for the installations. -/
def noteInstallations (world : World) : World :=
  { world with journal.fetches.installations := world.journal.fetches.installations + 1 }

/-- Notes that the source was asked for the installation of a game. -/
def noteInstallation (world : World) : World :=
  { world with journal.fetches.installation := world.journal.fetches.installation + 1 }

/-- Notes that the source was asked for the user. -/
def noteUser (world : World) : World :=
  { world with journal.fetches.user := world.journal.fetches.user + 1 }

/-- Runs an executable until it ends. How it ends makes no difference. -/
def run (world : World) (executable : Path) : Except Failure Unit × World :=
  match world.launcher.runFault with
  | some cause => (.error (.launchFailed executable cause), world)
  | none =>
    (.ok (), { world with
      now := world.now.advance world.launcher.session
      journal.launched := world.journal.launched ++ [executable] })

/-- Opens a link. -/
def openLink (world : World) (uri : String) : Except Failure Unit × World :=
  match world.launcher.openFault with
  | some details => (.error (.openFailed uri details), world)
  | none => (.ok (), { world with journal.opened := world.journal.opened ++ [uri] })

end World

end GameBridge
