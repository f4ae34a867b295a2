import GameBridge.Engine.State

/-!
# What a host can do with a game

Every operation takes the id of a game in any spelling and goes on with its canonical form. A game
is launched from the executable in the cache if that still exists; otherwise the source is asked
where the game is installed, and the answer is remembered. Installing and uninstalling is left to
the client, which is shown a link.
-/

namespace GameBridge.Engine

/-! ## The user -/

/-- The user of the client. -/
def authenticate (engine : Engine) : Except Fault User × Engine :=
  let engine := { engine with world := engine.world.noteUser }
  let source := engine.world.source
  (source.answer source.user, engine)

/-! ## Playtime -/

/-- What is known about the time for which a game was played. -/
structure GameTime where
  /-- The canonical id. -/
  id : String
  /-- The minutes played. -/
  minutes : Option UInt64
  /-- The end of the last session. -/
  lastPlayed : Option Time
deriving DecidableEq, Repr

/-- The time for which a game was played. -/
def gameTime (engine : Engine) (raw : String) : Except Failure GameTime := do
  let id := GameId.canonical raw
  let minutes ← Playtime.total engine.store id
  let lastPlayed ← Playtime.lastPlayed engine.store id
  return ⟨id, minutes, lastPlayed⟩

/-! ## Launching -/

/-- The executable of a game in the cache, if it still exists. -/
def cachedExecutable (engine : Engine) (id : String) : Option Path :=
  ((engine.installed.entries.get? id).map InstalledEntry.executable).filter engine.world.isFile

/-- The entry of a game that the source is asked for. -/
def lookUp (engine : Engine) (id : String) : Except Fault InstalledEntry :=
  let source := engine.world.source
  match source.answer (source.installation id) with
  | .error fault => .error fault
  | .ok none => .error (.failed (.gameNotInstalled id))
  | .ok (some row) =>
    match resolveRow row engine.world.isFile with
    | .error failure => .error (.failed failure)
    | .ok none => .error (.failed (.gameNotInstalled id))
    | .ok (some entry) => .ok entry

/-- The executable of a game, named by its canonical id. -/
def executableFor (engine : Engine) (id : String) : Except Fault Path × Engine :=
  match engine.cachedExecutable id with
  | some executable => (.ok executable, engine)
  | none =>
    let engine := { engine with world := engine.world.noteInstallation }
    match engine.lookUp id with
    | .error fault => (.error fault, engine)
    | .ok entry =>
      -- the entry is remembered, but this is no refresh: a cold cache stays cold
      (.ok entry.executable, { engine with
        installed.entries := engine.installed.entries.insert entry.id entry })

/-- Adds a session that has ended to the time for which a game was played. -/
def recordSession [Room] (engine : Engine) (id : String) (start : Time) :
    Except Failure GameTime × Engine :=
  let stop := engine.world.now
  let (result, store, disk) := Playtime.record engine.store engine.world.disk id start stop
  (result.map fun total ↦ ⟨id, some total, some stop⟩, { engine with store, world.disk := disk })

/-- Runs a game until it ends, and records the session. -/
def launch [Room] (engine : Engine) (raw : String) : Except Fault GameTime × Engine :=
  let id := GameId.canonical raw
  match engine.executableFor id with
  | (.error fault, engine) => (.error fault, engine)
  | (.ok executable, engine) =>
    match engine.world.run executable with
    | (.error failure, world) => (.error (.failed failure), { engine with world })
    | (.ok (), world) =>
      -- the session began before the game moved the clock
      let (result, after) := { engine with world }.recordSession id engine.world.now
      (result.mapError .failed, after)

/-! ## Links -/

/-- Shows a game in the client, where it can be installed and uninstalled. -/
def openGame (engine : Engine) (raw : String) : Except Failure Unit × Engine :=
  let uri := GameId.uri engine.settings.scheme (GameId.canonical raw)
  let (result, world) := engine.world.openLink uri
  (result, { engine with world })

/-- The one platform that is reported for every game. -/
def platform : String := "windows"

end GameBridge.Engine
