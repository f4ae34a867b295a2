import GameBridge.Proofs.Engine.Contents
import GameBridge.Proofs.Engine.Launching

/-!
# Which links are opened

A link is opened when the client is to show a game, and at no other time: whatever else happens to
the engine, the journal lists the same links as before. As the launcher may be exchanged from
outside, it takes an event that leaves the launcher alone for the next link to be opened in the same
way.
-/

namespace GameBridge.Engine

/-- The links that were opened are the same, and so is the fault of the launcher, if it has one. -/
structure Unopened (before after : Engine) : Prop where
  opened : after.world.journal.opened = before.world.journal.opened
  openFault : after.world.launcher.openFault = before.world.launcher.openFault

/-- An event that neither opens a link nor brings a launcher with another fault. -/
def Event.LeavesLinks (openFault : Option String) : Event → Prop
  | .openGame _ => False
  | .surround _ _ launcher _ => launcher.openFault = openFault
  | _ => True

theorem lasting_unopened [Room] (before : Engine) : Lasting (Unopened before) where
  schedule _ h := ⟨h.opened, h.openFault⟩
  refresh {engine} task h := by
    cases task with
    | ownership =>
      obtain ⟨owned, hrefresh, -⟩ := refreshOwned_effect engine
      rw [refresh, hrefresh]
      exact ⟨h.opened, h.openFault⟩
    | installation =>
      obtain ⟨installed, hrefresh, -⟩ := refreshInstalled_effect engine
      rw [refresh, hrefresh]
      exact ⟨h.opened, h.openFault⟩
  finish _ h := ⟨h.opened, h.openFault⟩

theorem unopened_executableFor (engine : Engine) (id : String) :
    Unopened engine (engine.executableFor id).2 := by
  obtain ⟨installed, fetches, hframe⟩ := engine.executableFor_frame id
  rw [hframe]
  exact ⟨rfl, rfl⟩

theorem unopened_play {before after : Engine} (h : Unopened before after) (executable : Path) :
    Unopened before { after with world := (after.world.run executable).2 } := by
  rw [World.run]
  cases after.world.launcher.runFault with
  | some cause => exact ⟨h.opened, h.openFault⟩
  | none => exact ⟨h.opened, h.openFault⟩

theorem unopened_launch [Room] (engine : Engine) (raw : String) :
    Unopened engine (engine.launch raw).2 := by
  have hfound := unopened_executableFor engine (GameId.canonical raw)
  rw [launch]
  rcases hfind : engine.executableFor (GameId.canonical raw) with ⟨fault | executable, found⟩
  · rw [hfind] at hfound
    exact hfound
  rw [hfind] at hfound
  have hplayed := unopened_play hfound executable
  dsimp only at hplayed ⊢
  rcases hrun : found.world.run executable with ⟨failure | ended, world⟩
  · rw [hrun] at hplayed
    exact hplayed
  · rw [hrun] at hplayed
    exact ⟨hplayed.opened, hplayed.openFault⟩

/-- **No other link.** -/
theorem unopened_perform [Room] (engine : Engine) {event : Event}
    (h : event.LeavesLinks engine.world.launcher.openFault) :
    Unopened engine (engine.perform event) := by
  cases hupkeep : event.isUpkeep with
  | true => exact (lasting_unopened engine).perform hupkeep ⟨rfl, rfl⟩
  | false =>
    cases event with
    | launch raw => exact unopened_launch engine raw
    | find raw => exact unopened_executableFor engine (GameId.canonical raw)
    | play executable => exact unopened_play ⟨rfl, rfl⟩ executable
    | surround source isFile launcher disk => exact ⟨rfl, h⟩
    | openGame raw => exact h.elim
    | record _ _ | gameTime _ | status | authenticate | setClock _ | failWrites _ =>
      exact ⟨rfl, rfl⟩
    | _ => exact absurd hupkeep (by simp [Event.isUpkeep])

end GameBridge.Engine
