import GameBridge.Proofs.Engine.Contents
import GameBridge.Proofs.Schedule.Exclusion

/-!
# Reading a cache

An empty list may mean that there are no games, or that nobody has asked yet. A read never says the
one for the other: it lists the cache only if the source has given a list at some time, to the read
itself if to nobody before. Entries that launches have put into the cache do not make a list.

A read looks whether the cache is warm and, if it is not, whether its task can be claimed. What is
said here is what comes of that if nobody comes in between; `Engine.prime_warm`, `prime_busy` and
`prime_cold` are the three outcomes.

Both caches are read in the same way, and everything is said of a `Listing`, which is either.
-/

namespace GameBridge

/-- The count of questions after one more for the list that a task needs. -/
def Task.ask (task : Task) (fetches : Fetches) : Fetches :=
  match task with
  | .ownership => { fetches with ownership := fetches.ownership + 1 }
  | .installation => { fetches with installations := fetches.installations + 1 }

namespace Engine

/-! ## Looking once -/

/-- A refresh asks for one list and leaves the schedule as it is. -/
theorem refresh_asks (engine : Engine) (task : Task) :
    (engine.refresh task).2.schedule = engine.schedule
      ∧ (engine.refresh task).2.world.journal.fetches
        = task.ask engine.world.journal.fetches := by
  cases task with
  | ownership =>
    obtain ⟨owned, hrefresh, -⟩ := refreshOwned_effect engine
    rw [refresh, hrefresh]
    exact ⟨rfl, rfl⟩
  | installation =>
    obtain ⟨installed, hrefresh, -⟩ := refreshInstalled_effect engine
    rw [refresh, hrefresh]
    exact ⟨rfl, rfl⟩

/-- The engine with a claim on a task. -/
def claimed (engine : Engine) (task : Task) : Engine :=
  { engine with schedule := engine.schedule.claim task }

theorem state_claimed (engine : Engine) (task : Task) :
    (engine.claimed task).schedule.states.get task = .running := PerTask.get_set_self ..

variable {engine : Engine} {task : Task}

theorem tryClaim_of_idle (hidle : engine.schedule.states.get task = .idle) :
    engine.tryClaim task = some (engine.claimed task) := by
  rw [tryClaim, Schedule.tryClaim, hidle]
  rfl

/-- The three steps of a refresh under a claim, if the task can be claimed. -/
theorem run_refreshClaimed [Room] (hidle : engine.schedule.states.get task = .idle) :
    engine.run [.tryClaim task, .refresh task, .finish task]
      = ((engine.claimed task).refreshClaimed task).2 := by
  have hheld : ((engine.claimed task).refresh task).2.schedule.states.get task = .running := by
    rw [(refresh_asks _ _).1]
    exact state_claimed engine task
  rw [run_cons, run_cons, run_cons, perform, tryClaim_of_idle hidle, Option.getD_some, perform,
    perform, hheld]
  rfl

theorem prime_warm [Room] (hwarm : engine.isPrimed task = true) :
    engine.prime task = (.ok (), engine) := by
  rw [prime, if_pos hwarm]

/-- A cold cache that somebody is working on has to be waited for. -/
theorem prime_busy [Room] (hcold : engine.isPrimed task = false)
    (hrunning : engine.schedule.states.get task = .running) :
    engine.prime task = (.error (.stopped (.waiting task)), engine) := by
  rw [prime, hcold, if_neg Bool.false_ne_true, fill, tryClaim, Schedule.tryClaim, hrunning]
  rfl

/-- A cold cache that nobody is working on is claimed, refreshed and given back. -/
theorem prime_cold [Room] (hcold : engine.isPrimed task = false)
    (hidle : engine.schedule.states.get task = .idle) :
    engine.prime task = (((engine.claimed task).refresh task).1.map fun _ ↦ (),
      ((engine.claimed task).refreshClaimed task).2) := by
  rw [prime, hcold, if_neg Bool.false_ne_true, fill, tryClaim_of_idle hidle]
  rfl

/-! ## Outcomes that are not a wait -/

/-- An operation has not ended in a wait. -/
def Prompt {α : Type} (result : Except Fault α) : Prop :=
  ∀ task, result ≠ .error (.stopped (.waiting task))

theorem prompt_ok {α : Type} (a : α) : Prompt (.ok a) := by
  intro task h
  exact absurd h (by simp)

theorem prompt_failed {α : Type} (failure : Failure) :
    Prompt (.error (.failed failure) : Except Fault α) := by
  intro task h
  exact absurd h (by simp)

theorem prompt_answer {α : Type} (source : Source) (answer : Except Failure α) :
    Prompt (source.answer answer) := by
  rw [Source.answer]
  split
  · intro task h
    exact absurd h (by simp)
  · rcases answer with failure | a
    · exact prompt_failed failure
    · exact prompt_ok a

/-- A fault is passed on to operations with other results. -/
theorem Prompt.error {α β : Type} {fault : Fault} (h : Prompt (.error fault : Except Fault α)) :
    Prompt (.error fault : Except Fault β) := by
  intro task hfault
  exact h task (congrArg Except.error (Except.error.inj hfault))

theorem Prompt.map {α β : Type} {result : Except Fault α} (h : Prompt result) (f : α → β) :
    Prompt (result.map f) := by
  rcases result with fault | a
  · exact h.error
  · exact prompt_ok (f a)

/-! ## Listings -/

/-- One of the two caches with what belongs to it. -/
structure Listing (α : Type) where
  /-- The task that refreshes it. -/
  task : Task
  /-- The cache. -/
  cache : Engine → Cache α
  /-- What a refresh would put into it. -/
  fresh : Engine → Except Fault (Index α)
  /-- The read of it. -/
  read : Engine → Except Fault (List α) × Engine
  /-- The event that is a read of it. -/
  event : Event
  /-- Whether the source gives a list for it during an event. -/
  gives : Engine → Event → Bool

/-- The owned games. -/
def ownedListing [Room] : Listing CatalogEntry where
  task := .ownership
  cache := Engine.owned
  fresh engine := engine.ownedAnswer.map classify
  read := ownedGames
  event := .ownedGames
  gives engine event := !(engine.ownedLists event).isEmpty

/-- The installed games. -/
def installedListing [Room] : Listing InstalledEntry where
  task := .installation
  cache := Engine.installed
  fresh engine := (engine.world.source.answer engine.world.source.installations).map
    (resolve · engine.world.isFile)
  read := localGames
  event := .localGames
  gives engine event := (engine.installedChanges event).any InstalledChange.isRefresh

namespace Listing

variable {α : Type}

/-- What belongs to a cache fits together. -/
structure Lawful [Room] (listing : Listing α) : Prop where
  read engine : listing.read engine
    = ((engine.prime listing.task).1.map fun _ ↦
        (listing.cache (engine.prime listing.task).2).entries.values,
      (engine.prime listing.task).2)
  perform engine : engine.perform listing.event = (listing.read engine).2
  primed engine : engine.isPrimed listing.task = (listing.cache engine).isPrimed
  gives engine event : (engine.perform event).isPrimed listing.task
    = (engine.isPrimed listing.task || listing.gives engine event)
  gives_sought {engine event raw} :
    event.sought = some raw → listing.gives engine event = false
  fresh_schedule engine schedule :
    listing.fresh { engine with schedule } = listing.fresh engine
  prompt engine : Prompt (listing.fresh engine)
  cache_schedule engine schedule :
    listing.cache { engine with schedule } = listing.cache engine
  cache_finish engine : listing.cache (engine.finish listing.task) = listing.cache engine
  refresh engine : (engine.refresh listing.task).1 = (listing.fresh engine).map Index.size
    ∧ listing.cache (engine.refresh listing.task).2 = match listing.fresh engine with
      | .ok index =>
        (listing.cache engine).apply index engine.settings.staleness engine.world.now
      | .error _ => listing.cache engine

end Listing

theorem lawful_ownedListing [Room] : ownedListing.Lawful where
  read _ := rfl
  perform _ := rfl
  primed _ := rfl
  gives engine event := (owned_perform engine event).2
  gives_sought {engine event raw} hsought := by
    have h : Sought raw engine (engine.perform event) := sought_perform hsought
    have hasked : engine.asks Fetches.ownership event = 0 :=
      asks_eq (h.ownership.trans (Nat.add_zero _).symm)
    show (!(given _ _).isEmpty) = false
    rw [hasked, given_zero]
    rfl
  fresh_schedule _ _ := rfl
  prompt _ := (prompt_answer _ _).map _
  cache_schedule _ _ := rfl
  cache_finish _ := rfl
  refresh engine := by
    have hasked : engine.world.noteOwnership.source.answer
        engine.world.noteOwnership.source.ownership = engine.ownedAnswer := rfl
    simp only [ownedListing, refresh, refreshOwned, hasked]
    rcases engine.ownedAnswer with fault | rows <;> exact ⟨rfl, rfl⟩

theorem lawful_installedListing [Room] : installedListing.Lawful where
  read _ := rfl
  perform _ := rfl
  primed _ := rfl
  gives engine event := (installed_perform engine event).2
  gives_sought {engine event raw} hsought := by
    have h : Sought raw engine (engine.perform event) := sought_perform hsought
    have hasked : engine.asks Fetches.installations event = 0 :=
      asks_eq (h.installations.trans (Nat.add_zero _).symm)
    show List.any (given _ _ ++ _) _ = false
    rw [hasked, given_zero, List.nil_append, hsought]
    exact any_isRefresh_lookUpAnswer engine raw _
  fresh_schedule _ _ := rfl
  prompt _ := (prompt_answer _ _).map _
  cache_schedule _ _ := rfl
  cache_finish _ := rfl
  refresh engine := by
    have hasked : engine.world.noteInstallations.source.answer
        engine.world.noteInstallations.source.installations
          = engine.world.source.answer engine.world.source.installations := rfl
    simp only [installedListing, refresh, refreshInstalled, hasked]
    rcases engine.world.source.answer engine.world.source.installations with fault | rows <;>
      exact ⟨rfl, rfl⟩

/-! ## Reads that refresh -/

namespace Listing

/-- A read that refreshes the cache: it does so once, under a claim of its own, and gives the claim
back. If the source gives a list, the read lists the cache with that in it; if not, the read fails
in the same way, and the cache stays what it was. -/
structure Fills [Room] (listing : Listing α) (engine : Engine) : Prop where
  steps : (listing.read engine).2
    = engine.run [.tryClaim listing.task, .refresh listing.task, .finish listing.task]
  held : (engine.perform (.tryClaim listing.task)).schedule.states.get listing.task = .running
  asked : (listing.read engine).2.world.journal.fetches
    = listing.task.ask engine.world.journal.fetches
  outcome : match listing.fresh engine with
    | .ok index =>
      let filled :=
        (listing.cache engine).apply index engine.settings.staleness engine.world.now
      (listing.read engine).1 = .ok filled.entries.values
        ∧ listing.cache (listing.read engine).2 = filled
    | .error fault => (listing.read engine).1 = .error fault
        ∧ listing.cache (listing.read engine).2 = listing.cache engine
  idle : (listing.read engine).2.schedule.states.get listing.task = .idle
  stamped : (listing.read engine).2.schedule.lastChecks.get listing.task = some engine.world.now

namespace Lawful

variable {listing : Listing α} {engine : Engine}

theorem read_warm [Room] (h : listing.Lawful) (hwarm : engine.isPrimed listing.task = true) :
    listing.read engine = (.ok (listing.cache engine).entries.values, engine) := by
  rw [h.read, prime_warm hwarm]
  rfl

theorem read_busy [Room] (h : listing.Lawful) (hcold : engine.isPrimed listing.task = false)
    (hrunning : engine.schedule.states.get listing.task = .running) :
    listing.read engine = (.error (.stopped (.waiting listing.task)), engine) := by
  rw [h.read, prime_busy hcold hrunning]
  rfl

theorem read_cold [Room] (h : listing.Lawful) (hcold : engine.isPrimed listing.task = false)
    (hidle : engine.schedule.states.get listing.task = .idle) :
    listing.read engine = (((engine.claimed listing.task).refresh listing.task).1.map fun _ ↦
        (listing.cache ((engine.claimed listing.task).refresh listing.task).2).entries.values,
      ((engine.claimed listing.task).refreshClaimed listing.task).2) := by
  have hcache : listing.cache ((engine.claimed listing.task).refreshClaimed listing.task).2
      = listing.cache ((engine.claimed listing.task).refresh listing.task).2 := h.cache_finish _
  rw [h.read, prime_cold hcold hidle]
  dsimp only
  rw [hcache]
  rcases ((engine.claimed listing.task).refresh listing.task).1 with fault | count <;> rfl

/-- **A read of a cold cache** that nobody is working on refreshes it. -/
theorem fills [Room] (h : listing.Lawful) (hcold : engine.isPrimed listing.task = false)
    (hidle : engine.schedule.states.get listing.task = .idle) : listing.Fills engine := by
  have hread := h.read_cold hcold hidle
  have hafter := schedule_refreshClaimed (engine.claimed listing.task) listing.task
  constructor
  case steps => rw [hread, run_refreshClaimed hidle]
  case held =>
    rw [Engine.perform, tryClaim_of_idle hidle]
    exact state_claimed engine listing.task
  case asked =>
    rw [hread]
    exact (refresh_asks _ _).2
  case idle =>
    rw [hread]
    exact hafter.1
  case stamped =>
    rw [hread]
    exact hafter.2
  case outcome =>
    obtain ⟨hresult, hcache⟩ := h.refresh (engine.claimed listing.task)
    have hfinish := h.cache_finish ((engine.claimed listing.task).refresh listing.task).2
    have hfresh : listing.fresh (engine.claimed listing.task) = listing.fresh engine :=
      h.fresh_schedule ..
    have hbefore : listing.cache (engine.claimed listing.task) = listing.cache engine :=
      h.cache_schedule ..
    rw [hfresh] at hresult hcache
    rw [hbefore] at hcache
    rw [hread, hresult, hcache]
    rcases hcases : listing.fresh engine with fault | index
    · rw [hcases] at hcache
      exact ⟨rfl, hfinish.trans hcache⟩
    · rw [hcases] at hcache
      exact ⟨rfl, hfinish.trans hcache⟩

/-- A read does not wait for a cache that is warm, nor for one that it can refresh. -/
theorem prompt_read [Room] (h : listing.Lawful) (hfree : engine.isPrimed listing.task = true ∨
      engine.schedule.states.get listing.task = .idle) : Prompt (listing.read engine).1 := by
  rcases hprimed : engine.isPrimed listing.task with - | -
  · rcases hfree with hwarm | hidle
    · exact absurd (hprimed.symm.trans hwarm) Bool.false_ne_true
    · have houtcome := (h.fills hprimed hidle).outcome
      have hprompt := h.prompt engine
      rcases hcases : listing.fresh engine with fault | index
      · rw [hcases] at houtcome hprompt
        rw [houtcome.1]
        exact hprompt.error
      · rw [hcases] at houtcome
        rw [houtcome.1]
        exact prompt_ok _
  · rw [h.read_warm hprimed]
    exact prompt_ok _

end Lawful

/-! ## Refreshes in a run -/

/-- Whether a refresh has succeeded in a run. -/
def refreshed [Room] (listing : Listing α) : Engine → List Event → Bool
  | _, [] => false
  | engine, event :: rest =>
    listing.gives engine event || listing.refreshed (engine.perform event) rest

theorem refreshed_append [Room] (listing : Listing α) (engine : Engine) (events more : List Event) :
    listing.refreshed engine (events ++ more)
      = (listing.refreshed engine events || listing.refreshed (engine.run events) more) := by
  induction events generalizing engine with
  | nil => rfl
  | cons event rest ih => rw [List.cons_append, refreshed, refreshed, ih, run_cons, Bool.or_assoc]

theorem Lawful.primed_run [Room] {listing : Listing α} (h : listing.Lawful) (engine : Engine)
    (events : List Event) : (engine.run events).isPrimed listing.task
      = (engine.isPrimed listing.task || listing.refreshed engine events) := by
  induction events generalizing engine with
  | nil => exact (Bool.or_false _).symm
  | cons event rest ih => rw [run_cons, ih, h.gives, refreshed, Bool.or_assoc]

end Listing

end Engine

end GameBridge
