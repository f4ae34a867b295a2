import GameBridge.Json.Value

/-!
# Methods

A host names what it wants by a method. Half of the methods are about one game, and only these
need the parameters of a request. A method is written as its name, or as an object with the name
as its only member and nothing in it.
-/

namespace GameBridge.Wire

/-- What can be asked about one game. -/
inductive GameMethod where
  /-- For how long it was played. -/
  | gameTime
  /-- To run it. -/
  | launch
  /-- To show it in the client for installing. -/
  | install
  /-- To show it in the client for uninstalling. -/
  | uninstall
  /-- On which platform it runs. -/
  | osCompatibility
deriving DecidableEq, Repr

/-- What a host can ask for. -/
inductive Method where
  /-- How the bridge is doing. -/
  | health
  /-- Who the user is. -/
  | authenticate
  /-- Which games are owned. -/
  | ownedGames
  /-- Which games are installed. -/
  | localGames
  /-- To refresh what is due. -/
  | tick
  /-- Something about one game. -/
  | game (method : GameMethod)
deriving DecidableEq, Repr

namespace Method

/-- The name of a method. -/
def name : Method → String
  | health => "get_health"
  | authenticate => "authenticate"
  | ownedGames => "get_owned_games"
  | localGames => "get_local_games"
  | tick => "tick"
  | game .gameTime => "get_game_time"
  | game .launch => "launch_game"
  | game .install => "install_game"
  | game .uninstall => "uninstall_game"
  | game .osCompatibility => "get_os_compatibility"

/-- All methods. -/
def all : List Method :=
  [health, authenticate, ownedGames, localGames, game .gameTime, game .launch, game .install,
    game .uninstall, game .osCompatibility, tick]

/-- The method with a name. -/
def ofName? (s : String) : Option Method := all.find? fun method ↦ method.name == s

/-- Whether the method is about one game. -/
def needsGame : Method → Bool
  | game _ => true
  | _ => false

theorem mem_all (method : Method) : method ∈ all := by
  cases method with
  | game m => cases m <;> decide
  | _ => decide

/-- Reads a method from a document. -/
def ofDocument? : Json.Document → Option Method
  | .str text => text.bind ofName?
  | .obj [(some name, .null)] => ofName? name
  | _ => none

/-- Reads a method from a value. -/
def ofValue? : Json.Value → Option Method
  | .str text => ofName? text
  | .obj [(name, .null)] => ofName? name
  | _ => none

end Method

end GameBridge.Wire
