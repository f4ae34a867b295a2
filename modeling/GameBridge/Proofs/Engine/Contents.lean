import GameBridge.Proofs.Catalog.Merging
import GameBridge.Proofs.Engine.Run
import Mathlib.Data.List.Induction

/-!
# What the caches hold

What a cache holds is determined by what the source gave while the engine was running. The journal
tells how often an event asked the source for something; as the source does not change during an
event, this and the answer of the source are the lists that it gave. A failed refresh asked and was
given nothing.

With rows that are kept for ever, the owned games are the catalog of all lists that were ever given,
one after the other; otherwise they are the catalog of the last one. The installed games are built
up in the same way, except that a launch that had to ask for its game adds the one entry.

Everything about upkeep goes through `Upkept`, which relates an engine to any later one that only
claims, refreshes and returns of claims lie in between.
-/

namespace GameBridge

/-! ## Policies -/

/-- Takes fresh entries among those that are there. -/
def Staleness.merge {α : Type} (policy : Staleness) (entries fresh : Index α) : Index α :=
  match policy with
  | .sticky => entries.insertAll fresh.entries
  | .prune => fresh

theorem Cache.entries_apply {α : Type} (cache : Cache α) (fresh : Index α) (policy : Staleness)
    (now : Time) : (cache.apply fresh policy now).entries = policy.merge cache.entries fresh := by
  cases policy <;> rfl

theorem Cache.isPrimed_apply {α : Type} (cache : Cache α) (fresh : Index α) (policy : Staleness)
    (now : Time) : (cache.apply fresh policy now).isPrimed = true := by
  cases policy <;> rfl

/-- The owned games after lists of rows were given. -/
def ownedContents (policy : Staleness) (lists : List (List OwnershipRow)) : Index CatalogEntry :=
  match policy with
  | .sticky => classify lists.flatten
  | .prune => (lists.getLast?.map classify).getD .empty

/-- Merging the catalogs of lists is the catalog of all or of the last of them. -/
theorem foldl_merge_classify (policy : Staleness) (lists : List (List OwnershipRow)) :
    lists.foldl (fun entries rows ↦ policy.merge entries (classify rows)) .empty
      = ownedContents policy lists := by
  induction lists using List.reverseRecOn with
  | nil => cases policy <;> rfl
  | append_singleton lists rows ih =>
    rw [List.foldl_append, ih, List.foldl_cons, List.foldl_nil]
    cases policy with
    | sticky =>
      rw [Staleness.merge, ownedContents, ownedContents, List.flatten_append,
        List.flatten_singleton, classify_append]
    | prune => rw [Staleness.merge, ownedContents, List.getLast?_concat]; rfl

/-- What changes the installed games. -/
inductive InstalledChange where
  /-- The rows of all installed games, with the files that were there. -/
  | refreshed (rows : List InstallationRow) (isFile : FileCheck)
  /-- The entry of a single game. -/
  | lookedUp (entry : InstalledEntry)

/-- Makes a change. -/
def InstalledChange.apply (policy : Staleness) (entries : Index InstalledEntry) :
    InstalledChange → Index InstalledEntry
  | .refreshed rows isFile => policy.merge entries (resolve rows isFile)
  | .lookedUp entry => entries.insert entry.id entry

/-- Whether a change is a refresh, after which the cache is no longer cold. -/
def InstalledChange.isRefresh : InstalledChange → Bool
  | .refreshed _ _ => true
  | .lookedUp _ => false

/-- The installed games after changes. -/
def installedContents (policy : Staleness) (changes : List InstalledChange) :
    Index InstalledEntry := changes.foldl (InstalledChange.apply policy) .empty

theorem filedBy_merge {α : Type} {id : α → String} {entries fresh : Index α}
    (h : entries.FiledBy id) (hfresh : fresh.FiledBy id) (policy : Staleness) :
    (policy.merge entries fresh).FiledBy id := by
  cases policy with
  | sticky => exact h.insertAll hfresh
  | prune => exact hfresh

theorem filedBy_ownedContents (policy : Staleness) (lists : List (List OwnershipRow)) :
    (ownedContents policy lists).FiledBy CatalogEntry.id := by
  rw [← foldl_merge_classify]
  exact List.foldlRecOn lists _ Index.filedBy_empty fun _ h rows _ ↦
    filedBy_merge h (filedBy_classify rows) policy

theorem filedBy_installedContents (policy : Staleness) (changes : List InstalledChange) :
    (installedContents policy changes).FiledBy InstalledEntry.id := by
  refine List.foldlRecOn changes _ Index.filedBy_empty fun entries h change _ ↦ ?_
  cases change with
  | refreshed rows isFile => exact filedBy_merge h (filedBy_resolve rows isFile) policy
  | lookedUp entry => exact h.insert entry

namespace Engine

/-! ## What the source gave -/

/-- How often an event asks the source for something that the journal counts. -/
def asks [Room] (count : Fetches → Nat) (engine : Engine) (event : Event) : Nat :=
  count (engine.perform event).world.journal.fetches - count engine.world.journal.fetches

/-- What is given to somebody who asks some times and is always answered alike. -/
def given {α : Type} (times : Nat) : Except Fault α → List α
  | .error _ => []
  | .ok a => List.replicate times a

theorem given_zero {α : Type} (answer : Except Fault α) : given 0 answer = [] := by
  cases answer <;> rfl

theorem given_succ {α : Type} (times : Nat) (answer : Except Fault α) :
    given (times + 1) answer = given times answer ++ given 1 answer := by
  cases answer with
  | error fault => rfl
  | ok a => exact List.replicate_succ'

theorem not_isEmpty_append {α : Type} (given more : List α) :
    (!(given ++ more).isEmpty) = (!given.isEmpty || !more.isEmpty) := by
  cases given <;> rfl

/-- What the source answers when it is asked for the owned games. -/
def ownedAnswer (engine : Engine) : Except Fault (List OwnershipRow) :=
  engine.world.source.answer engine.world.source.ownership

/-- What comes of the source being asked for the installed games. -/
def installedAnswer (engine : Engine) : Except Fault InstalledChange :=
  (engine.world.source.answer engine.world.source.installations).map fun rows ↦
    .refreshed rows engine.world.isFile

/-- What comes of the source being asked for one game. -/
def lookUpAnswer (engine : Engine) (raw : String) : Except Fault InstalledChange :=
  (engine.lookUp (GameId.canonical raw)).map .lookedUp

/-- The lists of owned games that the source gives during an event. -/
def ownedLists [Room] (engine : Engine) (event : Event) : List (List OwnershipRow) :=
  given (engine.asks Fetches.ownership event) engine.ownedAnswer

/-- The changes of the installed games that the source causes during an event. -/
def installedChanges [Room] (engine : Engine) (event : Event) : List InstalledChange :=
  given (engine.asks Fetches.installations event) engine.installedAnswer ++
    match event.sought with
    | some raw => given (engine.asks Fetches.installation event) (engine.lookUpAnswer raw)
    | none => []

/-- A refresh of the owned games asks once, and takes what it was given. -/
theorem refreshOwned_effect (engine : Engine) :
    ∃ owned, engine.refreshOwned.2 = { engine with world := engine.world.noteOwnership, owned }
      ∧ owned.entries = (given 1 engine.ownedAnswer).foldl
        (fun entries rows ↦ engine.settings.staleness.merge entries (classify rows))
        engine.owned.entries
      ∧ owned.isPrimed = (engine.owned.isPrimed || !(given 1 engine.ownedAnswer).isEmpty) := by
  have hasked : engine.world.noteOwnership.source.answer
      engine.world.noteOwnership.source.ownership = engine.ownedAnswer := rfl
  simp only [refreshOwned, hasked]
  cases engine.ownedAnswer with
  | error fault => exact ⟨engine.owned, rfl, rfl, (Bool.or_false _).symm⟩
  | ok rows =>
    exact ⟨_, rfl, Cache.entries_apply .., (Cache.isPrimed_apply ..).trans (Bool.or_true _).symm⟩

/-- A refresh of the installed games asks once, and takes what it was given. -/
theorem refreshInstalled_effect (engine : Engine) :
    ∃ installed, engine.refreshInstalled.2
        = { engine with world := engine.world.noteInstallations, installed }
      ∧ installed.entries = (given 1 engine.installedAnswer).foldl
        (InstalledChange.apply engine.settings.staleness) engine.installed.entries
      ∧ installed.isPrimed = (engine.installed.isPrimed
        || (given 1 engine.installedAnswer).any InstalledChange.isRefresh) := by
  have hasked : engine.world.noteInstallations.source.answer
      engine.world.noteInstallations.source.installations
        = engine.world.source.answer engine.world.source.installations := rfl
  simp only [refreshInstalled, installedAnswer, hasked]
  cases engine.world.source.answer engine.world.source.installations with
  | error fault => exact ⟨engine.installed, rfl, rfl, (Bool.or_false _).symm⟩
  | ok rows =>
    exact ⟨_, rfl, Cache.entries_apply .., (Cache.isPrimed_apply ..).trans (Bool.or_true _).symm⟩

/-! ## Upkeep -/

/-- What an engine has become after nothing but upkeep: it asked the source for lists some times,
and its caches have taken what was given. -/
structure Upkept (before after : Engine) : Prop where
  settings : after.settings = before.settings
  source : after.world.source = before.world.source
  isFile : after.world.isFile = before.world.isFile
  owned : ∃ times, after.world.journal.fetches.ownership
      = before.world.journal.fetches.ownership + times
    ∧ after.owned.entries = (given times before.ownedAnswer).foldl
        (fun entries rows ↦ before.settings.staleness.merge entries (classify rows))
        before.owned.entries
    ∧ after.owned.isPrimed
      = (before.owned.isPrimed || !(given times before.ownedAnswer).isEmpty)
  installed : ∃ times, after.world.journal.fetches.installations
      = before.world.journal.fetches.installations + times
    ∧ after.installed.entries = (given times before.installedAnswer).foldl
        (InstalledChange.apply before.settings.staleness) before.installed.entries
    ∧ after.installed.isPrimed = (before.installed.isPrimed
      || (given times before.installedAnswer).any InstalledChange.isRefresh)

namespace Upkept

variable {before after : Engine}

theorem refl (engine : Engine) : Upkept engine engine where
  settings := rfl
  source := rfl
  isFile := rfl
  owned := by
    refine ⟨0, rfl, ?_, ?_⟩
    · rw [given_zero, List.foldl_nil]
    · rw [given_zero, List.isEmpty_nil, Bool.not_true, Bool.or_false]
  installed := by
    refine ⟨0, rfl, ?_, ?_⟩
    · rw [given_zero, List.foldl_nil]
    · rw [given_zero, List.any_nil, Bool.or_false]

theorem refreshOwned (h : Upkept before after) : Upkept before after.refreshOwned.2 := by
  have hanswer : after.ownedAnswer = before.ownedAnswer := by
    rw [ownedAnswer, h.source, ownedAnswer]
  obtain ⟨times, hasked, hentries, hprimed⟩ := h.owned
  obtain ⟨owned, hrefresh, hafter, hnow⟩ := refreshOwned_effect after
  rw [hrefresh]
  refine ⟨h.settings, h.source, h.isFile, ⟨times + 1, ?_, ?_, ?_⟩, h.installed⟩
  · exact congrArg (· + 1) hasked
  · rw [given_succ, List.foldl_append, ← hentries, ← hanswer, ← h.settings]
    exact hafter
  · rw [given_succ, not_isEmpty_append, ← Bool.or_assoc, ← hprimed, ← hanswer]
    exact hnow

theorem refreshInstalled (h : Upkept before after) : Upkept before after.refreshInstalled.2 := by
  have hanswer : after.installedAnswer = before.installedAnswer := by
    rw [installedAnswer, h.source, h.isFile, installedAnswer]
  obtain ⟨times, hasked, hentries, hprimed⟩ := h.installed
  obtain ⟨installed, hrefresh, hafter, hnow⟩ := refreshInstalled_effect after
  rw [hrefresh]
  refine ⟨h.settings, h.source, h.isFile, h.owned, ⟨times + 1, ?_, ?_, ?_⟩⟩
  · exact congrArg (· + 1) hasked
  · rw [given_succ, List.foldl_append, ← hentries, ← hanswer, ← h.settings]
    exact hafter
  · rw [given_succ, List.any_append, ← Bool.or_assoc, ← hprimed, ← hanswer]
    exact hnow

end Upkept

theorem lasting_upkept [Room] (before : Engine) : Lasting (Upkept before) where
  schedule _ h := ⟨h.settings, h.source, h.isFile, h.owned, h.installed⟩
  refresh task h := by
    cases task with
    | ownership => exact h.refreshOwned
    | installation => exact h.refreshInstalled
  finish _ h := ⟨h.settings, h.source, h.isFile, h.owned, h.installed⟩

theorem upkept_perform [Room] {event : Event} (hevent : event.isUpkeep = true) (engine : Engine) :
    Upkept engine (engine.perform event) :=
  (lasting_upkept engine).perform hevent (Upkept.refl engine)

/-! ## Looking a game up -/

/-- What an engine has become after a search for the executable of a game: it asked for the game or
not, and its cache has taken what it was given. -/
structure Sought (raw : String) (before after : Engine) : Prop where
  settings : after.settings = before.settings
  owned : after.owned = before.owned
  ownership : after.world.journal.fetches.ownership = before.world.journal.fetches.ownership
  installations : after.world.journal.fetches.installations
    = before.world.journal.fetches.installations
  installed : ∃ times, after.world.journal.fetches.installation
      = before.world.journal.fetches.installation + times
    ∧ after.installed.entries = (given times (before.lookUpAnswer raw)).foldl
      (InstalledChange.apply before.settings.staleness) before.installed.entries
  primed : after.installed.isPrimed = before.installed.isPrimed

theorem sought_executableFor (engine : Engine) (raw : String) :
    Sought raw engine (engine.executableFor (GameId.canonical raw)).2 := by
  have hlook : lookUp { engine with world := engine.world.noteInstallation }
      (GameId.canonical raw) = engine.lookUp (GameId.canonical raw) := rfl
  have hanswer : engine.lookUpAnswer raw
      = (engine.lookUp (GameId.canonical raw)).map .lookedUp := rfl
  simp only [executableFor, hlook]
  cases engine.cachedExecutable (GameId.canonical raw) with
  | some executable => exact ⟨rfl, rfl, rfl, rfl, ⟨0, rfl, by rw [given_zero]; rfl⟩, rfl⟩
  | none =>
    cases hentry : engine.lookUp (GameId.canonical raw) with
    | error fault => exact ⟨rfl, rfl, rfl, rfl, ⟨1, rfl, by rw [hanswer, hentry]; rfl⟩, rfl⟩
    | ok entry => exact ⟨rfl, rfl, rfl, rfl, ⟨1, rfl, by rw [hanswer, hentry]; rfl⟩, rfl⟩

/-- After the search, a launch leaves the caches alone. -/
theorem sought_launch [Room] (engine : Engine) (raw : String) :
    Sought raw engine (engine.launch raw).2 := by
  obtain ⟨hsettings, howned, hownership, hinstallations, ⟨times, hasked, hentries⟩, hprimed⟩ :=
    sought_executableFor engine raw
  obtain ⟨fault, world, hfetches, hlaunch⟩ | ⟨start, world, hfetches, hlaunch⟩ :=
    launch_cases engine raw
  · rw [hlaunch]
    rw [← hfetches] at hownership hinstallations hasked
    exact ⟨hsettings, howned, hownership, hinstallations, ⟨times, hasked, hentries⟩, hprimed⟩
  · rw [hlaunch]
    rw [← hfetches] at hownership hinstallations hasked
    exact ⟨hsettings, howned, hownership, hinstallations, ⟨times, hasked, hentries⟩, hprimed⟩

/-- The entry of one game is no refresh. -/
theorem any_isRefresh_lookUpAnswer (engine : Engine) (raw : String) (times : Nat) :
    (given times (engine.lookUpAnswer raw)).any InstalledChange.isRefresh = false := by
  rw [lookUpAnswer]
  cases engine.lookUp (GameId.canonical raw) with
  | error fault => rfl
  | ok entry =>
    rw [List.any_eq_false]
    intro change hchange
    obtain rfl := List.eq_of_mem_replicate hchange
    exact Bool.false_ne_true

theorem sought_perform [Room] {engine : Engine} {event : Event} {raw : String}
    (h : event.sought = some raw) : Sought raw engine (engine.perform event) := by
  cases event with
  | launch other =>
    obtain rfl := Option.some.inj h
    exact sought_launch engine other
  | find other =>
    obtain rfl := Option.some.inj h
    exact sought_executableFor engine other
  | _ => simp [Event.sought] at h

/-! ## One event -/

/-- Events of other kinds have nothing to do with the caches. -/
theorem untouched_perform [Room] (engine : Engine) {event : Event}
    (hupkeep : event.isUpkeep = false) (hsought : event.sought = none) :
    (engine.perform event).settings = engine.settings
      ∧ (engine.perform event).owned = engine.owned
      ∧ (engine.perform event).installed = engine.installed
      ∧ engine.asks Fetches.ownership event = 0 ∧ engine.asks Fetches.installations event = 0 := by
  cases event with
  | play executable =>
    rw [asks, asks, perform, World.run]
    cases engine.world.launcher.runFault <;> exact ⟨rfl, rfl, rfl, Nat.sub_self _, Nat.sub_self _⟩
  | openGame raw =>
    rw [asks, asks, perform, openGame, World.openLink]
    cases engine.world.launcher.openFault <;> exact ⟨rfl, rfl, rfl, Nat.sub_self _, Nat.sub_self _⟩
  | record _ _ | gameTime _ | status | authenticate | setClock _ | surround _ _ _ _
  | failWrites _ => exact ⟨rfl, rfl, rfl, Nat.sub_self _, Nat.sub_self _⟩
  | launch raw => simp [Event.sought] at hsought
  | find raw => simp [Event.sought] at hsought
  | _ => simp [Event.isUpkeep] at hupkeep

theorem asks_eq [Room] {count : Fetches → Nat} {engine : Engine} {event : Event} {times : Nat}
    (h : count (engine.perform event).world.journal.fetches
      = count engine.world.journal.fetches + times) : engine.asks count event = times := by
  rw [asks, h, Nat.add_sub_cancel_left]

theorem settings_perform [Room] (engine : Engine) (event : Event) :
    (engine.perform event).settings = engine.settings := by
  cases hupkeep : event.isUpkeep with
  | true => exact (upkept_perform hupkeep engine).settings
  | false =>
    cases hsought : event.sought with
    | some raw => exact (sought_perform hsought).settings
    | none => exact (untouched_perform engine hupkeep hsought).1

theorem owned_perform [Room] (engine : Engine) (event : Event) :
    (engine.perform event).owned.entries = (engine.ownedLists event).foldl
        (fun entries rows ↦ engine.settings.staleness.merge entries (classify rows))
        engine.owned.entries
      ∧ (engine.perform event).owned.isPrimed
        = (engine.owned.isPrimed || !(engine.ownedLists event).isEmpty) := by
  rw [ownedLists]
  cases hupkeep : event.isUpkeep with
  | true =>
    obtain ⟨times, hasked, hentries, hprimed⟩ := (upkept_perform hupkeep engine).owned
    rw [asks_eq hasked]
    exact ⟨hentries, hprimed⟩
  | false =>
    have hidle : (engine.perform event).owned = engine.owned
        ∧ engine.asks Fetches.ownership event = 0 := by
      cases hsought : event.sought with
      | some raw =>
        have h : Sought raw engine (engine.perform event) := sought_perform hsought
        exact ⟨h.owned, asks_eq (h.ownership.trans (Nat.add_zero _).symm)⟩
      | none =>
        obtain ⟨-, howned, -, hasked, -⟩ := untouched_perform engine hupkeep hsought
        exact ⟨howned, hasked⟩
    rw [hidle.1, hidle.2, given_zero]
    exact ⟨rfl, (Bool.or_false _).symm⟩

theorem installed_perform [Room] (engine : Engine) (event : Event) :
    (engine.perform event).installed.entries = (engine.installedChanges event).foldl
        (InstalledChange.apply engine.settings.staleness) engine.installed.entries
      ∧ (engine.perform event).installed.isPrimed = (engine.installed.isPrimed
        || (engine.installedChanges event).any InstalledChange.isRefresh) := by
  rw [installedChanges]
  cases hupkeep : event.isUpkeep with
  | true =>
    have hsought : event.sought = none := by
      cases event with
      | launch raw => simp [Event.isUpkeep] at hupkeep
      | find raw => simp [Event.isUpkeep] at hupkeep
      | _ => rfl
    obtain ⟨times, hasked, hentries, hprimed⟩ := (upkept_perform hupkeep engine).installed
    rw [asks_eq hasked, hsought, List.append_nil]
    exact ⟨hentries, hprimed⟩
  | false =>
    cases hsought : event.sought with
    | some raw =>
      have h : Sought raw engine (engine.perform event) := sought_perform hsought
      obtain ⟨times, hasked, hentries⟩ := h.installed
      rw [asks_eq (h.installations.trans (Nat.add_zero _).symm), given_zero, List.nil_append]
      dsimp only
      rw [asks_eq hasked, any_isRefresh_lookUpAnswer, Bool.or_false]
      exact ⟨hentries, h.primed⟩
    | none =>
      obtain ⟨-, -, hinstalled, -, hasked⟩ := untouched_perform engine hupkeep hsought
      rw [hasked, hinstalled, given_zero]
      exact ⟨rfl, (Bool.or_false _).symm⟩

/-! ## Reads -/

/-- What a read of a cache gives: the contents if the cache was ever refreshed, a fault if not. -/
def Reads {α : Type} (id : α → String) (contents : Index α) (refreshed : Bool) :
    Except Fault (List α) → Prop
  | .ok values => refreshed = true ∧ contents.Lists id values
  | .error _ => refreshed = false

theorem Reads.of_map {α : Type} {id : α → String} {contents : Index α} {refreshed : Bool}
    {result : Except Fault Unit} (hcontents : contents.FiledBy id)
    (hresult : result.isOk = refreshed) :
    Reads id contents refreshed (result.map fun _ ↦ contents.values) := by
  subst hresult
  cases result with
  | error fault => rfl
  | ok u => exact ⟨rfl, hcontents.lists⟩

/-- A failed refresh does not warm a cache, any other does. -/
theorem isPrimed_refresh {engine : Engine} {task : Task} (hcold : engine.isPrimed task = false) :
    (engine.refresh task).2.isPrimed task = (engine.refresh task).1.isOk := by
  cases task with
  | ownership =>
    rw [refresh, refreshOwned]
    dsimp only
    split
    · exact hcold
    · exact Cache.isPrimed_apply ..
  | installation =>
    rw [refresh, refreshInstalled]
    dsimp only
    split
    · exact hcold
    · exact Cache.isPrimed_apply ..

theorem isPrimed_finish [Room] (engine : Engine) (task other : Task) :
    (engine.finish task).isPrimed other = engine.isPrimed other := by
  cases other <;> rfl

/-- A read that finds the cache cold goes on just if the cache is warm in the end. -/
theorem isOk_fill [Room] {engine : Engine} {task : Task} (hcold : engine.isPrimed task = false) :
    (engine.fill task).1.isOk = (engine.fill task).2.isPrimed task := by
  rw [fill]
  cases hclaim : engine.tryClaim task with
  | none => exact hcold.symm
  | some claimed =>
    have hclaimed : claimed.isPrimed task = false := by
      obtain ⟨schedule, -, rfl⟩ := Option.map_eq_some_iff.mp hclaim
      cases task <;> exact hcold
    have hrefresh := isPrimed_refresh hclaimed
    dsimp only [refreshClaimed]
    rw [isPrimed_finish, hrefresh]
    cases (claimed.refresh task).1 <;> rfl

/-- A read goes on just if the cache is warm in the end. -/
theorem isOk_prime [Room] (engine : Engine) (task : Task) :
    (engine.prime task).1.isOk = (engine.prime task).2.isPrimed task := by
  rw [prime]
  split
  case isTrue hwarm => exact hwarm.symm
  case isFalse hcold => exact isOk_fill (Bool.not_eq_true _ ▸ hcold)

/-! ## Reads -/

/-- The status counts what the caches hold. Only its countdowns can make it crash. -/
theorem status_counts (engine : Engine) :
    engine.status.map (fun status ↦ (status.ownedCount, status.installedCount))
      = (engine.schedule.snapshot engine.world.now).map fun _ ↦
        (engine.owned.entries.size, engine.installed.entries.size) := by
  rw [status]
  cases engine.schedule.snapshot engine.world.now <;> rfl

/-! ## Runs -/

theorem owned_run [Room] (engine : Engine) (events : List Event) :
    (engine.run events).owned.entries = (collect ownedLists engine events).foldl
        (fun entries rows ↦ engine.settings.staleness.merge entries (classify rows))
        engine.owned.entries
      ∧ (engine.run events).owned.isPrimed
        = (engine.owned.isPrimed || !(collect ownedLists engine events).isEmpty) := by
  induction events generalizing engine with
  | nil => exact ⟨rfl, (Bool.or_false _).symm⟩
  | cons event rest ih =>
    obtain ⟨hentries, hprimed⟩ := owned_perform engine event
    rw [run_cons, (ih _).1, (ih _).2, settings_perform, hentries, hprimed, collect,
      List.foldl_append, not_isEmpty_append, Bool.or_assoc]
    exact ⟨rfl, rfl⟩

theorem installed_run [Room] (engine : Engine) (events : List Event) :
    (engine.run events).installed.entries = (collect installedChanges engine events).foldl
        (InstalledChange.apply engine.settings.staleness) engine.installed.entries
      ∧ (engine.run events).installed.isPrimed = (engine.installed.isPrimed
        || (collect installedChanges engine events).any InstalledChange.isRefresh) := by
  induction events generalizing engine with
  | nil => exact ⟨rfl, (Bool.or_false _).symm⟩
  | cons event rest ih =>
    obtain ⟨hentries, hprimed⟩ := installed_perform engine event
    rw [run_cons, (ih _).1, (ih _).2, settings_perform, hentries, hprimed, collect,
      List.foldl_append, List.any_append, Bool.or_assoc]
    exact ⟨rfl, rfl⟩

section Start

variable (settings : Settings) (store : Store) (world : World) (events : List Event)

theorem owned_run_start [Room] :
    ((start settings store world).run events).owned.entries = ownedContents settings.staleness
        (collect ownedLists (start settings store world) events)
      ∧ ((start settings store world).run events).owned.isPrimed
        = !(collect ownedLists (start settings store world) events).isEmpty := by
  obtain ⟨hentries, hprimed⟩ := owned_run (start settings store world) events
  rw [hentries, hprimed, ← foldl_merge_classify]
  exact ⟨rfl, Bool.false_or _⟩

theorem installed_run_start [Room] :
    ((start settings store world).run events).installed.entries
        = installedContents settings.staleness
          (collect installedChanges (start settings store world) events)
      ∧ ((start settings store world).run events).installed.isPrimed
        = (collect installedChanges (start settings store world) events).any
          InstalledChange.isRefresh := by
  obtain ⟨hentries, hprimed⟩ := installed_run (start settings store world) events
  rw [hentries, hprimed]
  exact ⟨rfl, Bool.false_or _⟩

theorem reads_ownedGames [Room] :
    Reads CatalogEntry.id
      (ownedContents settings.staleness
        (collect ownedLists (start settings store world) (events ++ [.ownedGames])))
      (!(collect ownedLists (start settings store world) (events ++ [.ownedGames])).isEmpty)
      ((start settings store world).run events).ownedGames.1 := by
  have hfiled := filedBy_ownedContents settings.staleness
    (collect ownedLists (start settings store world) (events ++ [.ownedGames]))
  obtain ⟨hentries, hprimed⟩ := owned_run_start settings store world (events ++ [.ownedGames])
  rw [run_append] at hentries hprimed
  rw [← hentries] at hfiled ⊢
  exact Reads.of_map hfiled ((isOk_prime _ .ownership).trans hprimed)

theorem reads_localGames [Room] :
    Reads InstalledEntry.id
      (installedContents settings.staleness
        (collect installedChanges (start settings store world) (events ++ [.localGames])))
      ((collect installedChanges (start settings store world) (events ++ [.localGames])).any
        InstalledChange.isRefresh)
      ((start settings store world).run events).localGames.1 := by
  have hfiled := filedBy_installedContents settings.staleness
    (collect installedChanges (start settings store world) (events ++ [.localGames]))
  obtain ⟨hentries, hprimed⟩ := installed_run_start settings store world (events ++ [.localGames])
  rw [run_append] at hentries hprimed
  rw [← hentries] at hfiled ⊢
  exact Reads.of_map hfiled ((isOk_prime _ .installation).trans hprimed)

/-- **Contents.** After any run, the caches hold what the source gave in the course of it. A read
lists just that, what it was given itself included, once each and in the order of the bytes of the
ids, and fails only if nothing was ever given; the status counts it. -/
theorem contents_run [Room] :
    ((start settings store world).run events).owned.entries
        = ownedContents settings.staleness
          (collect ownedLists (start settings store world) events)
      ∧ ((start settings store world).run events).installed.entries
        = installedContents settings.staleness
          (collect installedChanges (start settings store world) events)
      ∧ Reads CatalogEntry.id
          (ownedContents settings.staleness
            (collect ownedLists (start settings store world) (events ++ [.ownedGames])))
          (!(collect ownedLists (start settings store world) (events ++ [.ownedGames])).isEmpty)
          ((start settings store world).run events).ownedGames.1
      ∧ Reads InstalledEntry.id
          (installedContents settings.staleness
            (collect installedChanges (start settings store world) (events ++ [.localGames])))
          ((collect installedChanges (start settings store world) (events ++ [.localGames])).any
            InstalledChange.isRefresh)
          ((start settings store world).run events).localGames.1
      ∧ ((start settings store world).run events).status.map
          (fun status ↦ (status.ownedCount, status.installedCount))
        = (((start settings store world).run events).schedule.snapshot
            ((start settings store world).run events).world.now).map fun _ ↦
          ((ownedContents settings.staleness
              (collect ownedLists (start settings store world) events)).size,
            (installedContents settings.staleness
              (collect installedChanges (start settings store world) events)).size) := by
  have howned := (owned_run_start settings store world events).1
  have hinstalled := (installed_run_start settings store world events).1
  refine ⟨howned, hinstalled, reads_ownedGames settings store world events,
    reads_localGames settings store world events, ?_⟩
  rw [status_counts, howned, hinstalled]

end Start

end Engine

end GameBridge
