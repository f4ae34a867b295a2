import GameBridge.Engine.State

/-!
# Refreshing the caches

A refresh asks the source for all rows of a kind, turns them into entries and applies these to the
cache. It is done under a claim on its task, which is given back at the end whatever the outcome,
so that a failed refresh is not tried again before its interval has passed.

A host refreshes by `tick`, which works on everything that is due. The first read of a cold cache
refreshes it as well, due or not, and is the one place where a host sees that a refresh failed.
While somebody else holds the claim such a read has to wait.

Looking at a cache, claiming its task, refreshing and giving the claim back are done under locks of
their own, and others can come in between. `Priming` is a read in these steps; `prime` is what the
steps come to when nobody does.
-/

namespace GameBridge.Engine

/-! ## One refresh -/

/-- Refreshes the owned games, and counts the fresh entries. -/
def refreshOwned (engine : Engine) : Except Fault Nat × Engine :=
  let engine := { engine with world := engine.world.noteOwnership }
  let source := engine.world.source
  match source.answer source.ownership with
  | .error fault => (.error fault, engine)
  | .ok rows =>
    let fresh := classify rows
    (.ok fresh.size, { engine with
      owned := engine.owned.apply fresh engine.settings.staleness engine.world.now })

/-- Refreshes the installed games, and counts the fresh entries. -/
def refreshInstalled (engine : Engine) : Except Fault Nat × Engine :=
  let engine := { engine with world := engine.world.noteInstallations }
  let source := engine.world.source
  match source.answer source.installations with
  | .error fault => (.error fault, engine)
  | .ok rows =>
    let fresh := resolve rows engine.world.isFile
    (.ok fresh.size, { engine with
      installed := engine.installed.apply fresh engine.settings.staleness engine.world.now })

/-- Refreshes the cache of a task. The schedule is left to whoever holds the claim. -/
def refresh (engine : Engine) : Task → Except Fault Nat × Engine
  | .ownership => engine.refreshOwned
  | .installation => engine.refreshInstalled

/-! ## Claims -/

/-- Gives the claim on a task back. -/
def finish [Room] (engine : Engine) (task : Task) : Engine :=
  let (schedule, store, disk) :=
    engine.schedule.finish engine.store engine.world.disk engine.world.now task
  { engine with schedule, store, world.disk := disk }

/-- Refreshes a cache under a claim, and gives the claim back. -/
def refreshClaimed [Room] (engine : Engine) (task : Task) : Except Fault Nat × Engine :=
  let (result, engine) := engine.refresh task
  (result, engine.finish task)

/-- Claims the tasks that are due. -/
def claimDue (engine : Engine) : List Task × Engine :=
  let (due, schedule) := engine.schedule.claimDue engine.world.now
  (due, { engine with schedule })

/-- Claims a task unless somebody is working on it. -/
def tryClaim (engine : Engine) (task : Task) : Option Engine :=
  (engine.schedule.tryClaim task).map fun schedule ↦ { engine with schedule }

/-- Works on everything that is due, and gives the tasks that were. What comes of a refresh is
seen in the caches only. -/
def tick [Room] (engine : Engine) : List Task × Engine :=
  let (due, engine) := engine.claimDue
  (due, due.foldl (fun engine task ↦ (engine.refreshClaimed task).2) engine)

/-! ## Reading the caches -/

/-- How far a read has come with making sure that its cache was refreshed at least once. -/
inductive Priming where
  /-- It looks whether the cache is warm. -/
  | looking
  /-- It has found the cache cold and tries to claim the task. -/
  | claiming
  /-- It waits for somebody else to give the claim back. -/
  | waiting
  /-- It holds the claim and refreshes the cache. -/
  | refreshing
  /-- It gives the claim back. -/
  | returning (result : Except Fault Nat)
  /-- It lists the cache, or it fails. -/
  | ended (result : Except Fault Unit)

namespace Priming

/-- The next step of a read, unless it has to wait. -/
def step [Room] (task : Task) (engine : Engine) : Priming → Option (Priming × Engine)
  | looking =>
    if engine.isPrimed task then some (ended (.ok ()), engine) else some (claiming, engine)
  | claiming =>
    match engine.tryClaim task with
    | none => some (waiting, engine)
    -- the cache is not looked at again, though it can have become warm
    | some claimed => some (refreshing, claimed)
  | waiting =>
    match engine.schedule.states.get task with
    | .running => none
    | .idle => some (looking, engine)
  | refreshing =>
    let (result, engine) := engine.refresh task
    some (returning result, engine)
  -- the claim goes back even if the refresh fails, and the host is told
  | returning result => some (ended (result.map fun _ ↦ ()), engine.finish task)
  | ended _ => none

/-- Whether a read holds the claim. -/
def holds : Priming → Bool
  | refreshing | returning _ => true
  | _ => false

end Priming

/-- Refreshes a cache that was found cold, under a claim of its own. -/
def fill [Room] (engine : Engine) (task : Task) : Except Fault Unit × Engine :=
  match engine.tryClaim task with
  | none => (.error (.stopped (.waiting task)), engine)
  | some claimed =>
    let (result, engine) := claimed.refreshClaimed task
    (result.map fun _ ↦ (), engine)

/-- Makes sure that a cache was refreshed at least once, with nobody coming in between. -/
def prime [Room] (engine : Engine) (task : Task) : Except Fault Unit × Engine :=
  if engine.isPrimed task then (.ok (), engine) else engine.fill task

/-- The owned games in ascending order of their ids. -/
def ownedGames [Room] (engine : Engine) : Except Fault (List CatalogEntry) × Engine :=
  let (result, engine) := engine.prime .ownership
  (result.map fun _ ↦ engine.owned.entries.values, engine)

/-- The installed games in ascending order of their ids. -/
def localGames [Room] (engine : Engine) : Except Fault (List InstalledEntry) × Engine :=
  let (result, engine) := engine.prime .installation
  (result.map fun _ ↦ engine.installed.entries.values, engine)

end GameBridge.Engine
