import GameBridge.Engine.World
import GameBridge.GameId
import GameBridge.Playtime

/-!
# The state of the engine

The engine keeps two caches, one of the owned and one of the installed games, the schedule by which
they are refreshed, and the store. A cache knows when it was last refreshed; one that never was is
cold, whatever entries it may hold.
-/

namespace GameBridge

/-! ## Settings -/

/-- What a refresh does with games that the source no longer lists. -/
inductive Staleness where
  /-- It keeps them. -/
  | sticky
  /-- It drops them. -/
  | prune
deriving DecidableEq, Repr

/-- The name of the policy in settings. -/
def Staleness.name : Staleness → String
  | sticky => "sticky"
  | prune => "prune"

/-- What the engine is told once. -/
structure Settings where
  /-- How often the caches are refreshed. -/
  intervals : Intervals
  /-- What happens to games that the source no longer lists. -/
  staleness : Staleness
  /-- The scheme of links to games. -/
  scheme : String
deriving DecidableEq, Repr

/-- The settings where nothing else is asked for. -/
def Settings.default : Settings := ⟨defaultIntervals, .sticky, "itch"⟩

/-! ## Caches -/

/-- Entries by canonical id, and the time at which they were last refreshed. -/
structure Cache (α : Type) where
  /-- The entries. -/
  entries : Index α
  /-- The time of the last refresh. -/
  refreshedAt : Option Time

namespace Cache

variable {α : Type}

/-- A cache that was never refreshed. -/
def cold : Cache α := ⟨.empty, none⟩

/-- Whether the cache was ever refreshed. -/
def isPrimed (cache : Cache α) : Bool := cache.refreshedAt.isSome

/-- Takes the result of a refresh. -/
def apply (cache : Cache α) (fresh : Index α) (policy : Staleness) (now : Time) : Cache α :=
  match policy with
  | .sticky => ⟨cache.entries.insertAll fresh.entries, some now⟩
  | .prune => ⟨fresh, some now⟩

end Cache

/-! ## The engine -/

/-- The engine and the world around it. -/
structure Engine where
  /-- What it was told once. -/
  settings : Settings
  /-- The owned games. -/
  owned : Cache CatalogEntry
  /-- The installed games. -/
  installed : Cache InstalledEntry
  /-- When the caches are refreshed. -/
  schedule : Schedule
  /-- What outlives the engine. -/
  store : Store
  /-- Everything around it. -/
  world : World

namespace Engine

/-- A new engine: the caches are cold, and the last checks are read from the store. -/
def start (settings : Settings) (store : Store) (world : World) : Engine :=
  ⟨settings, .cold, .cold, .load settings.intervals store, store, world⟩

/-- Whether the cache that a task refreshes was ever refreshed. -/
def isPrimed (engine : Engine) : Task → Bool
  | .ownership => engine.owned.isPrimed
  | .installation => engine.installed.isPrimed

/-! ## Status -/

/-- What the engine says about itself. -/
structure Status where
  /-- How many owned games are cached. -/
  ownedCount : Nat
  /-- How many installed games are cached. -/
  installedCount : Nat
  /-- When the owned games were last refreshed. -/
  ownedAt : Option Time
  /-- When the installed games were last refreshed. -/
  installedAt : Option Time
  /-- When the tasks are due. -/
  tasks : List Schedule.TaskSnapshot
deriving DecidableEq, Repr

/-- The status of the engine. -/
def status (engine : Engine) : Except Crash Status :=
  (engine.schedule.snapshot engine.world.now).map fun tasks ↦
    { ownedCount := engine.owned.entries.size
      installedCount := engine.installed.entries.size
      ownedAt := engine.owned.refreshedAt
      installedAt := engine.installed.refreshedAt
      tasks }

end Engine

end GameBridge
