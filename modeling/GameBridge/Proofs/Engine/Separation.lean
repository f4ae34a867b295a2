import GameBridge.Capacity
import GameBridge.Proofs.Engine.Run
import GameBridge.Proofs.Playtime.Recording
import GameBridge.Wire.GameParams

/-!
# Who writes what into the store

The totals and ends of all games and the last checks of both tasks are kept in one store, told
apart by their keys only. An event writes at most the two entries of a game that was just played,
or the last checks. So a game that was never played keeps the entries that it had, unless one of
its keys is the key of a last check. A session can also break off when its total is stored and
there is no room for its end: the game was played then, but nobody was told for how long.

No total has such a key. An end does: the key of the end for the id `_check_` followed by the name
of a task is the key of the last check of this task, and such an id is one that hosts may use. What
is said about its playtime is the time of a check.
-/

namespace GameBridge

open Playtime (timeKey lastKey)

/-! ## Keys -/

theorem Task.key_eq_lastKey (task : Task) : task.key = lastKey ("_check_" ++ task.name) := by
  cases task <;> rfl

theorem Playtime.lastKey_eq_key_iff {id : String} {task : Task} :
    lastKey id = task.key ↔ id = "_check_" ++ task.name := by
  rw [Task.key_eq_lastKey, lastKey_inj]

/-- The end that is given for such an id is the time of the last check. -/
theorem Playtime.storedCheck_of_lastPlayed {store : Store} {task : Task} {stop : Option Time}
    (h : lastPlayed store ("_check_" ++ task.name) = .ok stop) :
    Schedule.storedCheck store task = stop := by
  rw [lastPlayed, number, ← Task.key_eq_lastKey] at h
  rw [Schedule.storedCheck]
  cases hraw : store.get? task.key with
  | none =>
    rw [hraw] at h
    exact Except.ok.inj h
  | some raw =>
    simp only [hraw] at h
    rw [Option.bind_some]
    cases hread : readFinite? raw with
    | none =>
      rw [hread] at h
      exact absurd h (by simp [Except.map])
    | some x =>
      rw [hread] at h
      exact Except.ok.inj h

theorem Playtime.timeKey_ne_key (id : String) (task : Task) : timeKey id ≠ task.key := by
  rw [Task.key_eq_lastKey]
  exact timeKey_ne_lastKey id _

namespace Engine

/-! ## What upkeep writes -/

theorem store_refresh (engine : Engine) (task : Task) :
    (engine.refresh task).2.store = engine.store := by
  cases task with
  | ownership =>
    rw [refresh, refreshOwned]
    dsimp only
    split <;> rfl
  | installation =>
    rw [refresh, refreshInstalled]
    dsimp only
    split <;> rfl

theorem get?_finish_of_ne [Room] (engine : Engine) {task : Task} {key : String}
    (h : key ≠ task.key) :
    (engine.finish task).store.get? key = engine.store.get? key :=
  Store.get?_put_of_ne engine.store engine.world.disk task.key _ h

/-- Upkeep writes nothing but last checks. -/
theorem lasting_get? [Room] {key : String} (hkey : ∀ task : Task, key ≠ task.key)
    (value : Option String) : Lasting fun engine ↦ engine.store.get? key = value where
  schedule _ h := h
  refresh task h := by rw [store_refresh, h]
  finish task h := by rw [get?_finish_of_ne _ (hkey task), h]

/-! ## What sessions write -/

section Sessions

variable (engine : Engine)

theorem store_executableFor (id : String) : (engine.executableFor id).2.store = engine.store := by
  rw [executableFor]
  split
  · rfl
  · dsimp only
    split <;> rfl

theorem get?_recordSession_of_ne [Room] {id key : String} (start : Time) (htime : key ≠ timeKey id)
    (hlast : key ≠ lastKey id) :
    (engine.recordSession id start).2.store.get? key = engine.store.get? key :=
  Playtime.get?_record_of_ne engine.store engine.world.disk id start engine.world.now htime hlast

theorem record_of_recordSession_error [Room] {id : String} {start : Time} {failure : Failure}
    (h : (engine.recordSession id start).1 = .error failure) :
    (Playtime.record engine.store engine.world.disk id start engine.world.now).1
      = .error failure := by
  replace h : (Playtime.record engine.store engine.world.disk id start engine.world.now).1.map
      (fun total ↦ (⟨id, some total, some engine.world.now⟩ : GameTime)) = .error failure := h
  cases hrecord : (Playtime.record engine.store engine.world.disk id start engine.world.now).1 with
  | error failure' => rw [hrecord] at h; exact congrArg _ (Except.error.inj h)
  | ok sum => rw [hrecord] at h; exact absurd h (by simp [Except.map])

theorem get?_recordSession_of_error [Room] {id key : String} {start : Time} {failure : Failure}
    (h : (engine.recordSession id start).1 = .error failure) (htime : key ≠ timeKey id) :
    (engine.recordSession id start).2.store.get? key = engine.store.get? key :=
  Playtime.get?_record_of_error (engine.record_of_recordSession_error h) htime

theorem get?_launch_of_ne [Room] {raw key : String} (htime : key ≠ timeKey (GameId.canonical raw))
    (hlast : key ≠ lastKey (GameId.canonical raw)) :
    (engine.launch raw).2.store.get? key = engine.store.get? key := by
  have hfound := store_executableFor engine (GameId.canonical raw)
  obtain ⟨fault, world, -, hlaunch⟩ | ⟨start, world, -, hlaunch⟩ := launch_cases engine raw
  · rw [hlaunch, hfound]
  · rw [hlaunch]
    dsimp only
    rw [get?_recordSession_of_ne _ start htime hlast, hfound]

/-- A launch fails before the game was run, or in recording the session. -/
theorem store_launch_of_error [Room] {raw : String} {fault : Fault}
    (h : (engine.launch raw).1 = .error fault) :
    (engine.launch raw).2.store = engine.store ∨
      ∃ (found : Engine) (start : Time) (failure : Failure), found.store = engine.store
        ∧ (found.recordSession (GameId.canonical raw) start).1 = .error failure
        ∧ (engine.launch raw).2.store
          = (found.recordSession (GameId.canonical raw) start).2.store := by
  have hfound := store_executableFor engine (GameId.canonical raw)
  obtain ⟨fault', world, -, hlaunch⟩ | ⟨start, world, -, hlaunch⟩ := launch_cases engine raw
  · rw [hlaunch]
    exact Or.inl hfound
  · rw [hlaunch] at h ⊢
    dsimp only at h ⊢
    generalize hfind : { (engine.executableFor (GameId.canonical raw)).2 with world } = found at h ⊢
    have hstore : found.store = engine.store := by rw [← hfind, hfound]
    cases hrecord : (found.recordSession (GameId.canonical raw) start).1 with
    | error failure => exact Or.inr ⟨found, start, failure, hstore, hrecord, rfl⟩
    | ok time => rw [hrecord] at h; exact absurd h (by simp [Except.mapError])

/-- A launch that fails writes the total of its session at most. -/
theorem get?_launch_of_error [Room] {raw key : String} {fault : Fault}
    (h : (engine.launch raw).1 = .error fault) (htime : key ≠ timeKey (GameId.canonical raw)) :
    (engine.launch raw).2.store.get? key = engine.store.get? key := by
  obtain hkept | ⟨found, start, failure, hfound, hrecord, hstore⟩ := engine.store_launch_of_error h
  · rw [hkept]
  · rw [hstore, get?_recordSession_of_error _ hrecord htime, hfound]

theorem get?_of_get?_launch [Room] {raw key : String}
    (h : (engine.launch raw).2.store.get? key = none) : engine.store.get? key = none := by
  have hfound := store_executableFor engine (GameId.canonical raw)
  obtain ⟨fault, world, -, hlaunch⟩ | ⟨start, world, -, hlaunch⟩ := launch_cases engine raw
  · rw [hlaunch] at h
    rwa [← hfound]
  · rw [hlaunch] at h
    rw [← hfound]
    exact Playtime.get?_of_get?_record h

end Sessions

/-! ## Runs -/

/-- The canonical id of the game that an event is a recorded session of, if there is one. -/
def sessionOf [Room] (engine : Engine) : Event → List String
  | .launch raw => if (engine.launch raw).1.isOk then [GameId.canonical raw] else []
  | .record raw start =>
    if (engine.recordSession (GameId.canonical raw) start).1.isOk then [GameId.canonical raw]
    else []
  | _ => []

/-- The canonical ids of the games that are played in the course of events. -/
def played [Room] (engine : Engine) (events : List Event) : List String :=
  collect sessionOf engine events

/-- The canonical id of the game that an event is a session of, recorded or not. -/
def Event.session : Event → Option String
  | .launch raw | .record raw _ => some (GameId.canonical raw)
  | _ => none

/-- The canonical id of the game whose session an event failed to record after it had changed the
total, if there is one. -/
def halfRecorded [Room] (engine : Engine) (event : Event) : List String :=
  event.session.toList.filter fun id ↦ id ∉ engine.sessionOf event
    ∧ (engine.perform event).store.get? (timeKey id) ≠ engine.store.get? (timeKey id)

/-- The canonical ids of the games of which a session was half recorded in the course of events. -/
def brokenOff [Room] (engine : Engine) (events : List Event) : List String :=
  collect halfRecorded engine events

theorem get?_failing (store : Store) (fail : Bool) (key : String) :
    (store.failing fail).get? key = store.get? key := by
  rw [Store.failing]
  cases store.backing <;> rfl

section Perform

variable [Room] {engine : Engine} {event : Event} {key : String}

theorem get?_timeKey_perform {id : String} (hsession : event.session = some id)
    (hplayed : id ∉ engine.sessionOf event) (hhalf : id ∉ engine.halfRecorded event) :
    (engine.perform event).store.get? (timeKey id) = engine.store.get? (timeKey id) := by
  by_contra hne
  exact hhalf (List.mem_filter.mpr ⟨by simp [hsession], by simp [hplayed, hne]⟩)

/-- An event writes the last checks, the entries of a game that it was a session of, and the total
of a game that it was half a session of. -/
theorem get?_perform (hkey : ∀ task : Task, key ≠ task.key)
    (hplayed : ∀ id ∈ engine.sessionOf event, key ≠ timeKey id ∧ key ≠ lastKey id)
    (hhalf : ∀ id ∈ engine.halfRecorded event, key ≠ timeKey id) :
    (engine.perform event).store.get? key = engine.store.get? key := by
  cases hupkeep : event.isUpkeep with
  | true => exact (lasting_get? hkey _).perform hupkeep rfl
  | false =>
    cases event with
    | launch raw =>
      cases hlaunch : (engine.launch raw).1 with
      | error fault =>
        by_cases htime : key = timeKey (GameId.canonical raw)
        · subst htime
          exact get?_timeKey_perform rfl (by simp [sessionOf, hlaunch, Except.isOk, Except.toBool])
            fun hmem ↦ hhalf _ hmem rfl
        · exact get?_launch_of_error engine hlaunch htime
      | ok time =>
        rw [sessionOf, hlaunch] at hplayed
        obtain ⟨htime, hlast⟩ := hplayed _ (List.mem_singleton_self (GameId.canonical raw))
        exact get?_launch_of_ne engine htime hlast
    | record raw start =>
      cases hrecord : (engine.recordSession (GameId.canonical raw) start).1 with
      | error failure =>
        by_cases htime : key = timeKey (GameId.canonical raw)
        · subst htime
          exact get?_timeKey_perform rfl (by simp [sessionOf, hrecord, Except.isOk, Except.toBool])
            fun hmem ↦ hhalf _ hmem rfl
        · exact get?_recordSession_of_error engine hrecord htime
      | ok time =>
        rw [sessionOf, hrecord] at hplayed
        obtain ⟨htime, hlast⟩ := hplayed _ (List.mem_singleton_self (GameId.canonical raw))
        exact get?_recordSession_of_ne engine start htime hlast
    | find raw => rw [perform, store_executableFor]
    | failWrites fail => exact get?_failing engine.store fail key
    | openGame _ | play _ | gameTime _ | status | authenticate | setClock _
    | surround _ _ _ _ => rfl
    | _ => exact absurd hupkeep (by simp [Event.isUpkeep])

theorem get?_of_get?_perform (hkey : ∀ task : Task, key ≠ task.key)
    (h : (engine.perform event).store.get? key = none) : engine.store.get? key = none := by
  cases hsession : event.session with
  | none =>
    have hplayed : engine.sessionOf event = [] := by cases event <;> first | rfl | cases hsession
    have hhalf : engine.halfRecorded event = [] := by rw [halfRecorded, hsession]; rfl
    rwa [get?_perform hkey (by simp [hplayed]) (by simp [hhalf])] at h
  | some id =>
    cases event with
    | launch raw => exact get?_of_get?_launch engine h
    | record raw start => exact Playtime.get?_of_get?_record h
    | _ => cases hsession

end Perform

section Run

variable [Room] {engine : Engine} {events : List Event} {key : String}

theorem get?_run (hkey : ∀ task : Task, key ≠ task.key)
    (hplayed : ∀ id ∈ engine.played events, key ≠ timeKey id ∧ key ≠ lastKey id)
    (hbroken : ∀ id ∈ engine.brokenOff events, key ≠ timeKey id) :
    (engine.run events).store.get? key = engine.store.get? key := by
  induction events generalizing engine with
  | nil => rfl
  | cons event rest ih =>
    rw [run_cons, ih (fun id hid ↦ hplayed id (List.mem_append_right _ hid))
      fun id hid ↦ hbroken id (List.mem_append_right _ hid)]
    exact get?_perform hkey (fun id hid ↦ hplayed id (List.mem_append_left _ hid))
      fun id hid ↦ hbroken id (List.mem_append_left _ hid)

theorem get?_of_get?_run (hkey : ∀ task : Task, key ≠ task.key)
    (h : (engine.run events).store.get? key = none) : engine.store.get? key = none := by
  induction events generalizing engine with
  | nil => exact h
  | cons event rest ih => exact get?_of_get?_perform hkey (ih h)

/-- The total of a game is there when a session of it was half recorded. -/
theorem not_mem_brokenOff {id : String}
    (h : (engine.run events).store.get? (timeKey id) = none) : id ∉ engine.brokenOff events := by
  induction events generalizing engine with
  | nil => exact List.not_mem_nil
  | cons event rest ih =>
    intro hmem
    rcases List.mem_append.mp hmem with hhalf | hrest
    · have hafter : (engine.perform event).store.get? (timeKey id) = none :=
        get?_of_get?_run (Playtime.timeKey_ne_key id) h
      have hbefore := get?_of_get?_perform (Playtime.timeKey_ne_key id) hafter
      have hchanged := (List.mem_filter.mp hhalf).2
      rw [hafter, hbefore] at hchanged
      exact absurd hchanged (by simp)
    · exact ih h hrest

end Run

/-! ### Where there is always room -/

section Roomy

variable [Room] {engine : Engine}

theorem lasting_roomy : Lasting fun engine ↦ engine.store.Roomy where
  schedule _ h := h
  refresh task h := by rwa [store_refresh]
  finish _ h := h.put _ _ _

theorem roomy_launch (h : engine.store.Roomy) (raw : String) :
    (engine.launch raw).2.store.Roomy := by
  have hfound : (engine.executableFor (GameId.canonical raw)).2.store.Roomy := by
    rwa [store_executableFor]
  obtain ⟨fault, world, -, hlaunch⟩ | ⟨start, world, -, hlaunch⟩ := launch_cases engine raw
  · rw [hlaunch]
    exact hfound
  · rw [hlaunch]
    exact Playtime.roomy_record hfound

theorem roomy_perform (h : engine.store.Roomy) (event : Event) :
    (engine.perform event).store.Roomy := by
  cases hupkeep : event.isUpkeep with
  | true => exact lasting_roomy.perform hupkeep h
  | false =>
    cases event with
    | launch raw => exact roomy_launch h raw
    | record raw start => exact Playtime.roomy_record h
    | find raw => rwa [perform, store_executableFor]
    | failWrites fail => exact h.failing fail
    | openGame _ | play _ | gameTime _ | status | authenticate | setClock _
    | surround _ _ _ _ => exact h
    | _ => exact absurd hupkeep (by simp [Event.isUpkeep])

theorem store_recordSession_of_roomy {id : String} {start : Time} {failure : Failure}
    (hroom : engine.store.Roomy) (h : (engine.recordSession id start).1 = .error failure) :
    (engine.recordSession id start).2.store = engine.store :=
  Playtime.store_record_of_error hroom (engine.record_of_recordSession_error h)

theorem store_launch_of_roomy {raw : String} {fault : Fault} (hroom : engine.store.Roomy)
    (h : (engine.launch raw).1 = .error fault) : (engine.launch raw).2.store = engine.store := by
  obtain hkept | ⟨found, start, failure, hfound, hrecord, hstore⟩ := engine.store_launch_of_error h
  · exact hkept
  · rw [hstore, store_recordSession_of_roomy (hfound ▸ hroom) hrecord, hfound]

theorem halfRecorded_of_roomy (hroom : engine.store.Roomy) (event : Event) :
    engine.halfRecorded event = [] := by
  refine List.filter_eq_nil_iff.mpr fun id hid ↦ ?_
  rw [decide_eq_true_iff, not_and, not_not]
  intro hplayed
  cases event with
  | launch raw =>
    obtain rfl := Option.some.inj (Option.mem_toList.mp hid)
    cases hlaunch : (engine.launch raw).1 with
    | error fault => rw [perform, store_launch_of_roomy hroom hlaunch]
    | ok time => exact absurd (by simp [sessionOf, hlaunch, Except.isOk, Except.toBool]) hplayed
  | record raw start =>
    obtain rfl := Option.some.inj (Option.mem_toList.mp hid)
    cases hrecord : (engine.recordSession (GameId.canonical raw) start).1 with
    | error failure => rw [perform, store_recordSession_of_roomy hroom hrecord]
    | ok time => exact absurd (by simp [sessionOf, hrecord, Except.isOk, Except.toBool]) hplayed
  | _ => exact absurd hid (by simp [Event.session])

/-- With room for everything, no session is half recorded. -/
theorem brokenOff_of_roomy (hroom : engine.store.Roomy) (events : List Event) :
    engine.brokenOff events = [] := by
  induction events generalizing engine with
  | nil => rfl
  | cons event rest ih =>
    rw [brokenOff, collect, halfRecorded_of_roomy hroom]
    exact ih (roomy_perform hroom event)

end Roomy

/-- The playtime of a game is unknown just if the store has neither entry. -/
theorem gameTime_eq_unknown_iff (engine : Engine) (raw : String) :
    engine.gameTime raw = .ok ⟨GameId.canonical raw, none, none⟩ ↔
      engine.store.get? (timeKey (GameId.canonical raw)) = none
        ∧ engine.store.get? (lastKey (GameId.canonical raw)) = none := by
  rw [← Playtime.total_eq_unknown_iff, ← Playtime.lastPlayed_eq_unknown_iff, gameTime]
  rcases Playtime.total engine.store (GameId.canonical raw) with failure | minutes
  · simp [bind, Except.bind]
  · rcases Playtime.lastPlayed engine.store (GameId.canonical raw) with failure | stop
    · simp [bind, Except.bind]
    · simp [bind, Except.bind, pure, Except.pure]

theorem lastPlayed_of_gameTime {engine : Engine} {raw : String} {time : GameTime}
    (h : engine.gameTime raw = .ok time) :
    Playtime.lastPlayed engine.store (GameId.canonical raw) = .ok time.lastPlayed := by
  revert h
  rw [gameTime]
  rcases Playtime.total engine.store (GameId.canonical raw) with failure | minutes
  · exact fun h ↦ absurd h (by simp [bind, Except.bind])
  · rcases Playtime.lastPlayed engine.store (GameId.canonical raw) with failure | stop
    · exact fun h ↦ absurd h (by simp [bind, Except.bind])
    · exact fun h ↦ by rw [← Except.ok.inj h]

/-- **Separation.** In a run over a store that was empty, the minutes of a game that was never
played are unknown, unless a session of it was half recorded, for which there has to be too little
room. The end of its last session is unknown as well, unless the id is the one whose end is kept
under the key of a last check and the time of such a check was stored, and then it is that time. -/
theorem gameTime_run [Room] {settings : Settings} {store : Store} {world : World}
    {events : List Event} {raw : String} (hempty : store.entries = .empty)
    (hplayed : GameId.canonical raw ∉ (start settings store world).played events) :
    let engine := (start settings store world).run events
    (Playtime.total engine.store (GameId.canonical raw) = .ok none ↔
        GameId.canonical raw ∉ (start settings store world).brokenOff events)
      ∧ (engine.gameTime raw = .ok ⟨GameId.canonical raw, none, none⟩ ↔
        GameId.canonical raw ∉ (start settings store world).brokenOff events
          ∧ ∀ task : Task, GameId.canonical raw = "_check_" ++ task.name →
            engine.store.get? task.key = none)
      ∧ (store.Roomy → (start settings store world).brokenOff events = [])
      ∧ ∀ task : Task, GameId.canonical raw = "_check_" ++ task.name → ∀ time,
        engine.gameTime raw = .ok time →
          time.lastPlayed = Schedule.storedCheck engine.store task := by
  intro engine
  have hbegin : ∀ key, (start settings store world).store.get? key = none := by
    intro key
    rw [start, Store.get?, hempty, Index.get?_empty]
  have htime : engine.store.get? (timeKey (GameId.canonical raw)) = none ↔
      GameId.canonical raw ∉ (start settings store world).brokenOff events := by
    refine ⟨not_mem_brokenOff, fun hbroken ↦ ?_⟩
    refine (get?_run (Playtime.timeKey_ne_key _) (fun id hid ↦ ⟨fun heq ↦ ?_, ?_⟩)
      fun id hid heq ↦ ?_).trans (hbegin _)
    · exact hplayed (Playtime.timeKey_inj.mp heq ▸ hid)
    · exact Playtime.timeKey_ne_lastKey _ _
    · exact hbroken (Playtime.timeKey_inj.mp heq ▸ hid)
  refine ⟨Playtime.total_eq_unknown_iff.trans htime, ?_,
    fun hroom ↦
      brokenOff_of_roomy (show (start settings store world).store.Roomy from hroom) events,
    fun task htask time hknown ↦ ?_⟩
  · rw [gameTime_eq_unknown_iff, htime, and_congr_right_iff]
    intro hbroken
    constructor
    · intro hlast task htask
      rw [Task.key_eq_lastKey, ← htask]
      exact hlast
    · intro hchecks
      by_cases htask : ∃ task : Task, lastKey (GameId.canonical raw) = task.key
      · obtain ⟨task, htask⟩ := htask
        rw [htask]
        exact hchecks task (Playtime.lastKey_eq_key_iff.mp htask)
      · refine (get?_run (not_exists.mp htask) (fun id hid ↦ ⟨?_, fun heq ↦ ?_⟩)
          fun id _ ↦ ?_).trans (hbegin _)
        · exact Playtime.lastKey_ne_timeKey _ _
        · exact hplayed (Playtime.lastKey_inj.mp heq ▸ hid)
        · exact Playtime.lastKey_ne_timeKey _ _
  · refine (Playtime.storedCheck_of_lastPlayed ?_).symm
    rw [← htask]
    exact lastPlayed_of_gameTime hknown

/-- A world without games. -/
def noGames (now : Time) : World :=
  ⟨now, .ofRows [] [] none, fun _ ↦ false, ⟨90, none, none⟩, .emptyFolder, .blank⟩

/-- After a tick, nothing is known about a game that was not played. -/
theorem gameTime_tick :
    ((start .default (.ofEntries .empty) (noGames 1000000)).run [.tick]).gameTime " 007 "
      = .ok ⟨"7", none, none⟩ := by
  have hcanonical : GameId.canonical " 007 " = "7" := by decide +kernel
  have hplayed : GameId.canonical " 007 "
      ∉ (start .default (.ofEntries .empty) (noGames 1000000)).played [.tick] := List.not_mem_nil
  have h := (gameTime_run rfl hplayed).2.1.mpr ⟨List.not_mem_nil, fun task htask ↦ by
    rw [hcanonical] at htask
    cases task <;> exact absurd htask (by decide)⟩
  rwa [hcanonical] at h

/-- After a tick, the id with the key of a last check has a last session that was none. -/
theorem gameTime_of_check :
    Wire.GameParams.parse (some (.obj [("game_id", .str "_check_ownership")]))
        = .ok "_check_ownership"
      ∧ (start .default (.ofEntries .empty) (noGames 1000000)).played [.tick] = []
      ∧ ((start .default (.ofEntries .empty) (noGames 1000000)).run [.tick]).gameTime
          "_check_ownership" = .ok ⟨"_check_ownership", none, some 1000000⟩ :=
  ⟨rfl, rfl, rfl⟩

end Engine

end GameBridge
