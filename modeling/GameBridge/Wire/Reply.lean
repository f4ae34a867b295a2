import GameBridge.Engine.Games
import GameBridge.Engine.Refresh
import GameBridge.Wire.Response

/-!
# Replies

`reply` answers a request by asking the engine. What can be refused without the engine is refused
first: a request in another version of the protocol, and a method about a game whose parameters do
not name one. A failure of the engine becomes the error of the response; if the engine gives no
answer, there is no response.
-/

namespace GameBridge.Wire

open Json

/-! ## Data -/

/-- An owned game. -/
def gameValue (entry : CatalogEntry) : Value :=
  .object [("game_id", .str entry.id), ("game_title", .str entry.title), ("dlcs", .null),
    ("license_type", .str entry.license.name)]

/-- An installed game. -/
def localGameValue (entry : InstalledEntry) : Value :=
  .object [("game_id", .str entry.id), ("local_game_state", .str "installed")]

/-- The time for which a game was played. -/
def gameTimeValue (time : Engine.GameTime) : Value :=
  .object [("game_id", .str time.id), ("time_played", .ofOption .ofUInt64 time.minutes),
    ("last_played_time", .ofOption .ofInt64 time.lastPlayed)]

/-- The user. -/
def userValue (user : User) : Value :=
  .object [("user_id", .str (Decimal.ofInt64 user.id)), ("user_name", .str user.name)]

/-- A task and when it is due. -/
def taskValue (task : Schedule.TaskSnapshot) : Value :=
  .object [("task", .str task.status.task.name), ("state", .str task.status.state.name),
    ("last_check", .ofOption .ofInt64 task.status.lastCheck),
    ("interval_secs", .ofInt64 task.status.interval), ("due_in_secs", .ofInt64 task.dueIn)]

/-- The status of the engine. -/
def statusValue (status : Engine.Status) : Value :=
  .object [("owned_games", .ofUInt64 (.ofNat status.ownedCount)),
    ("installed_games", .ofUInt64 (.ofNat status.installedCount)),
    ("owned_refreshed_at", .ofOption .ofInt64 status.ownedAt),
    ("installed_refreshed_at", .ofOption .ofInt64 status.installedAt),
    ("refresh_tasks", .arr (status.tasks.map taskValue))]

/-- The version of the bridge. -/
def bridgeVersion : String := "0.2.0"

/-- How the bridge is doing. -/
def healthValue (processId : UInt32) (status : Engine.Status) : Value :=
  .object [("status", .str "ok"), ("pid", .ofUInt64 processId.toUInt64),
    ("version", .str bridgeVersion),
    ("protocol_version", .ofUInt64 protocolVersion.toUInt64), ("engine", statusValue status)]

/-- A link was opened. -/
def openedValue : Value := .object [("opened", .bool true)]

/-! ## Answering -/

/-- A failure as an error for the host. -/
def ErrorInfo.ofFailure (failure : Failure) : ErrorInfo := ⟨failure.code, failure.message⟩

/-- The response that the outcome of an operation makes. -/
def respond {α : Type} (id : Option String) (make : α → Value) :
    Except Fault α → Except Stop Response
  | .ok a => .ok (.success id (make a))
  | .error (.failed failure) => .ok (.failure id (.ofFailure failure))
  | .error (.stopped stop) => .error stop

/-- The response that the outcome of an operation makes, together with the engine after it. -/
def respondWith {α : Type} (id : Option String) (make : α → Value)
    (outcome : Except Fault α × Engine) : Except Stop Response × Engine :=
  (respond id make outcome.1, outcome.2)

/-- Answers a method about one game. -/
def replyAbout [Room] (engine : Engine) (id : Option String) (gameId : String) :
    GameMethod → Except Stop Response × Engine
  | .gameTime =>
    (respond id gameTimeValue ((engine.gameTime gameId).mapError .failed), engine)
  | .launch => respondWith id gameTimeValue (engine.launch gameId)
  | .install | .uninstall =>
    let (result, engine) := engine.openGame gameId
    (respond id (fun _ ↦ openedValue) (result.mapError .failed), engine)
  | .osCompatibility =>
    (.ok (.success id (.object [("game_id", .str gameId),
      ("os_compatibility", .str Engine.platform)])), engine)

/-- Answers a request. -/
def reply [Room] (processId : UInt32) (engine : Engine) (request : Request) :
    Except Stop Response × Engine :=
  let id := request.id
  if request.version ≠ protocolVersion then
    (.ok (.failure id ⟨"protocol_mismatch", "unsupported protocol version"⟩), engine)
  else
    match request.method with
    | .health =>
      match engine.status with
      | .ok status => (.ok (.success id (healthValue processId status)), engine)
      | .error crash => (.error (.crashed crash), engine)
    | .authenticate => respondWith id userValue engine.authenticate
    | .ownedGames => respondWith id (fun games ↦ .arr (games.map gameValue)) engine.ownedGames
    | .localGames =>
      respondWith id (fun games ↦ .arr (games.map localGameValue)) engine.localGames
    | .tick =>
      let (launched, engine) := engine.tick
      (.ok (.success id (.object [("launched", .texts (launched.map Task.name))])), engine)
    | .game method =>
      match GameParams.parse request.params with
      | .error info => (.ok (.failure id info), engine)
      | .ok gameId => replyAbout engine id gameId method

end GameBridge.Wire
