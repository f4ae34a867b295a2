import GameBridge.Engine.Games
import GameBridge.Engine.Refresh

/-!
# Runs of the engine

An `Event` is one operation of the engine or one change of the world around it. Operations that
take their time are also there in parts, so that other events can fall between the parts: a refresh
is a claim, the refresh itself and the return of the claim; a launch is the search for the
executable, the run of the game and the recording of the session.

A tick and a cold read are made of the same three parts. A property that the parts keep is
therefore kept by them as well, which is what `Lasting` is for. The events that are a whole tick, a
whole read or a whole launch are those that nothing else falls into.
-/

namespace GameBridge.Engine

/-! ## Events -/

/-- What can happen to an engine: upkeep, reads of the caches, what a host does with a game, and
changes of the world, which are of the clock, of all that surrounds the engine and of whether a
store without a file fails. Games are named in any spelling. -/
inductive Event where
  | tick
  | claimDue
  | tryClaim (task : Task)
  | refresh (task : Task)
  /-- Whoever holds the claim on a task gives it back. -/
  | finish (task : Task)
  | ownedGames
  | localGames
  | launch (raw : String)
  /-- The executable of a game is looked for. -/
  | find (raw : String)
  | play (executable : Path)
  /-- A session that began at a time is recorded. -/
  | record (raw : String) (start : Time)
  | gameTime (raw : String)
  | status
  | authenticate
  | openGame (raw : String)
  | setClock (now : Time)
  | surround (source : Source) (isFile : FileCheck) (launcher : Launcher) (disk : Disk)
  | failWrites (fail : Bool)

/-- Whether an event is about keeping the caches fresh. -/
def Event.isUpkeep : Event → Bool
  | .tick | .claimDue | .tryClaim _ | .refresh _ | .finish _ | .ownedGames | .localGames => true
  | _ => false

/-- The game whose executable an event looks for. -/
def Event.sought : Event → Option String
  | .launch raw | .find raw => some raw
  | _ => none

/-- The engine after an event. -/
def perform [Room] (engine : Engine) : Event → Engine
  | .tick => engine.tick.2
  | .claimDue => engine.claimDue.2
  | .tryClaim task => (engine.tryClaim task).getD engine
  | .refresh task => (engine.refresh task).2
  | .finish task =>
    match engine.schedule.states.get task with
    | .running => engine.finish task
    | .idle => engine
  | .ownedGames => engine.ownedGames.2
  | .localGames => engine.localGames.2
  | .launch raw => (engine.launch raw).2
  | .find raw => (engine.executableFor (GameId.canonical raw)).2
  | .play executable => { engine with world := (engine.world.run executable).2 }
  | .record raw start => (engine.recordSession (GameId.canonical raw) start).2
  | .gameTime _ => engine
  | .status => engine
  | .authenticate => engine.authenticate.2
  | .openGame raw => (engine.openGame raw).2
  | .setClock now => { engine with world.now := now }
  | .surround source isFile launcher disk =>
    { engine with world := { engine.world with source, isFile, launcher, disk } }
  | .failWrites fail => { engine with store := engine.store.failing fail }

/-- The engine after a sequence of events. -/
def run [Room] (engine : Engine) (events : List Event) : Engine := events.foldl perform engine

theorem run_cons [Room] (engine : Engine) (event : Event) (events : List Event) :
    engine.run (event :: events) = (engine.perform event).run events := rfl

theorem run_append [Room] (engine : Engine) (events more : List Event) :
    engine.run (events ++ more) = (engine.run events).run more := List.foldl_append ..

/-- What the events of a run leave behind, one after the other. -/
def collect [Room] {α : Type} (leaves : Engine → Event → List α) : Engine → List Event → List α
  | _, [] => []
  | engine, event :: rest => leaves engine event ++ collect leaves (engine.perform event) rest

/-! ## The parts of a launch -/

/-- A launch is a search for the executable and, if the game could be run, a recorded session. -/
theorem launch_cases [Room] (engine : Engine) (raw : String) :
    (∃ fault world, world.journal.fetches
          = (engine.executableFor (GameId.canonical raw)).2.world.journal.fetches
        ∧ engine.launch raw
          = (.error fault, { (engine.executableFor (GameId.canonical raw)).2 with world })) ∨
      ∃ start world, world.journal.fetches
          = (engine.executableFor (GameId.canonical raw)).2.world.journal.fetches
        ∧ engine.launch raw
          = let found := { (engine.executableFor (GameId.canonical raw)).2 with world }
            ((found.recordSession (GameId.canonical raw) start).1.mapError .failed,
              (found.recordSession (GameId.canonical raw) start).2) := by
  rw [launch]
  rcases engine.executableFor (GameId.canonical raw) with ⟨fault | executable, found⟩
  · exact Or.inl ⟨fault, found.world, rfl, rfl⟩
  · cases hfault : found.world.launcher.runFault with
    | some cause =>
      refine Or.inl ⟨.failed (.launchFailed executable cause), found.world, rfl, ?_⟩
      simp only [World.run, hfault]
    | none =>
      refine Or.inr ⟨found.world.now, (found.world.run executable).2, ?_, ?_⟩
      · simp only [World.run, hfault]
      · simp only [World.run, hfault]

/-! ## What a refresh and its claims keep -/

/-- A property that claims, refreshes and returns of claims keep. -/
structure Lasting [Room] (P : Engine → Prop) : Prop where
  schedule : ∀ {engine : Engine} (schedule), P engine → P { engine with schedule }
  refresh : ∀ {engine : Engine} (task), P engine → P (engine.refresh task).2
  finish : ∀ {engine : Engine} (task), P engine → P (engine.finish task)

namespace Lasting

variable {P : Engine → Prop} {engine : Engine}

theorem claimDue [Room] (h : Lasting P) (hp : P engine) : P engine.claimDue.2 := h.schedule _ hp

theorem tryClaim [Room] (h : Lasting P) {task : Task} {claimed : Engine}
    (hclaim : engine.tryClaim task = some claimed) (hp : P engine) : P claimed := by
  obtain ⟨schedule, -, rfl⟩ := Option.map_eq_some_iff.mp hclaim
  exact h.schedule schedule hp

theorem refreshClaimed [Room] (h : Lasting P) (task : Task) (hp : P engine) :
    P (engine.refreshClaimed task).2 := h.finish task (h.refresh task hp)

theorem tick [Room] (h : Lasting P) (hp : P engine) : P engine.tick.2 := by
  have hfold : ∀ (due : List Task) (engine : Engine), P engine →
      P (due.foldl (fun engine task ↦ (engine.refreshClaimed task).2) engine) := by
    intro due
    induction due with
    | nil => exact fun _ hp ↦ hp
    | cons task rest ih => exact fun _ hp ↦ ih _ (h.refreshClaimed task hp)
  exact hfold _ _ (h.claimDue hp)

theorem fill [Room] (h : Lasting P) (task : Task) (hp : P engine) : P (engine.fill task).2 := by
  rw [Engine.fill]
  cases hclaim : engine.tryClaim task with
  | none => exact hp
  | some claimed => exact h.refreshClaimed task (h.tryClaim hclaim hp)

theorem prime [Room] (h : Lasting P) (task : Task) (hp : P engine) : P (engine.prime task).2 := by
  rw [Engine.prime]
  split
  · exact hp
  · exact h.fill task hp

/-- All upkeep keeps a lasting property. -/
theorem perform [Room] (h : Lasting P) {event : Event} (hevent : event.isUpkeep = true)
    (hp : P engine) : P (engine.perform event) := by
  cases event with
  | tick => exact h.tick hp
  | claimDue => exact h.claimDue hp
  | tryClaim task =>
    rw [Engine.perform]
    cases hclaim : engine.tryClaim task with
    | none => exact hp
    | some claimed => exact h.tryClaim hclaim hp
  | refresh task => exact h.refresh task hp
  | finish task =>
    rw [Engine.perform]
    cases engine.schedule.states.get task with
    | idle => exact hp
    | running => exact h.finish task hp
  | ownedGames => exact h.prime .ownership hp
  | localGames => exact h.prime .installation hp
  | _ => exact absurd hevent (by simp [Event.isUpkeep])

end Lasting

end GameBridge.Engine
