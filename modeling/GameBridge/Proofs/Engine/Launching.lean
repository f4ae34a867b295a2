import GameBridge.Capacity
import GameBridge.Proofs.Catalog.LastRows
import GameBridge.Proofs.Database.Installations
import GameBridge.Proofs.Engine.Separation

/-!
# Cold and warm launches

A launch finds its executable on one of two ways. While the cache of the installed games is cold
the source is asked for the installation of the one game, and that is its first row. A read of the
installed games goes through all rows instead, of which the last one with an existing executable
counts, and a launch after it takes that.

Everything else about the two launches is the same. The read in between stores the time of the
check, but this neither changes the total of a game nor whether the session can be stored. So they
differ just if the two ways lead to different executables, which takes a game with several rows.
-/

namespace GameBridge

/-! ## Rows and sources -/

/-- The first row of a game. -/
def firstRow (rows : List InstallationRow) (id : String) : Option InstallationRow :=
  rows.find? fun row ↦ Decimal.ofInt64 row.gameId == id

namespace Source

/-- A source that has just these rows of installations: it lists all of them, and gives the first
one of a game. -/
structure Holds (source : Source) (rows : List InstallationRow) : Prop where
  noCrash : source.crashes = false
  listed : source.installations = .ok rows
  first : ∀ raw, source.installation (GameId.canonical raw)
    = .ok (firstRow rows (GameId.canonical raw))

theorem holds_ofRows (owned : List OwnershipRow) (rows : List InstallationRow)
    (user : Option User) : (ofRows owned rows user).Holds rows := ⟨rfl, rfl, fun _ ↦ rfl⟩

theorem installation_ofDatabase (db : ClientDatabase) :
    (ofDatabase db).installation = db.installation := rfl

theorem holds_ofDatabase {db : ClientDatabase} {rows : List InstallationRow}
    (h : db.installations = .ok rows) : (ofDatabase db).Holds rows where
  noCrash := rfl
  listed := h
  first raw := by
    rw [installation_ofDatabase, ClientDatabase.installation_canonical h raw, firstRow]

end Source

theorem resolveRow_eq_entry {row : InstallationRow} {isFile : FileCheck} {entry : InstalledEntry}
    (h : resolveRow row isFile = .ok (some entry)) :
    entry.id = Decimal.ofInt64 row.gameId ∧ isFile entry.executable = true := by
  obtain ⟨text, -, verdict, -, first, -, hfile, rfl⟩ := resolveRow_eq_ok_some_iff.mp h
  exact ⟨rfl, hfile⟩

theorem exists_row_of_resolve {rows : List InstallationRow} {isFile : FileCheck} {id : String}
    {entry : InstalledEntry} (h : (resolve rows isFile).get? id = some entry) :
    ∃ row ∈ rows, resolveRow row isFile = .ok (some entry) ∧ Decimal.ofInt64 row.gameId = id := by
  obtain ⟨before, row, after, rfl, hrow, -⟩ :=
    (Index.get?_foldl_eq_some_iff (fileInstalled_eq isFile)).mp h
  obtain ⟨rfl, hyields⟩ := ((filesByNumber_fileInstalled isFile).entry row id entry).mp hrow
  exact ⟨row, by simp, resolveRow_eq_ok_some_iff.mpr hyields, rfl⟩

namespace Engine

/-! ## What a launch comes to -/

/-- What a launch answers once its executable is found. -/
def playAnswer [Room] (engine : Engine) (id : String) (executable : Path) : Except Fault GameTime :=
  match engine.world.launcher.runFault with
  | some cause => .error (.failed (.launchFailed executable cause))
  | none =>
    let stop := engine.world.now.advance engine.world.launcher.session
    ((Playtime.record engine.store engine.world.disk id engine.world.now stop).1.map
      fun total ↦ ⟨id, some total, some stop⟩).mapError .failed

/-- The executables that a launch runs. -/
def playRuns (engine : Engine) : Except Fault Path → List Path
  | .error _ => []
  | .ok executable =>
    match engine.world.launcher.runFault with
    | some _ => []
    | none => [executable]

theorem executableFor_frame (engine : Engine) (id : String) :
    ∃ installed fetches, (engine.executableFor id).2
      = { engine with installed, world.journal.fetches := fetches } := by
  rw [executableFor]
  split
  · exact ⟨_, _, rfl⟩
  · dsimp only
    split
    · exact ⟨_, _, rfl⟩
    · exact ⟨_, _, rfl⟩

/-- **A launch** answers and runs what its executable comes to. -/
theorem launch_eq [Room] (engine : Engine) (raw : String) :
    (engine.launch raw).1 = (engine.executableFor (GameId.canonical raw)).1.bind
        (engine.playAnswer (GameId.canonical raw))
      ∧ (engine.launch raw).2.world.journal.launched = engine.world.journal.launched
        ++ engine.playRuns (engine.executableFor (GameId.canonical raw)).1 := by
  obtain ⟨installed, fetches, hframe⟩ := engine.executableFor_frame (GameId.canonical raw)
  rw [launch]
  rcases hfind : engine.executableFor (GameId.canonical raw) with ⟨fault | executable, found⟩
  · rw [hfind] at hframe
    obtain rfl := hframe
    exact ⟨rfl, (List.append_nil _).symm⟩
  · rw [hfind] at hframe
    obtain rfl := hframe
    cases hfault : engine.world.launcher.runFault with
    | some cause =>
      simp only [World.run, hfault, Except.bind, playAnswer, playRuns, List.append_nil, and_self]
    | none =>
      simp only [World.run, hfault, Except.bind, playAnswer, playRuns, recordSession, and_self]

/-! ## The executable -/

/-- The entry of the first row of a game. -/
def firstEntry (rows : List InstallationRow) (isFile : FileCheck) (id : String) :
    Except Fault InstalledEntry :=
  match firstRow rows id with
  | none => .error (.failed (.gameNotInstalled id))
  | some row =>
    match resolveRow row isFile with
    | .error failure => .error (.failed failure)
    | .ok none => .error (.failed (.gameNotInstalled id))
    | .ok (some entry) => .ok entry

theorem firstEntry_eq_ok_iff {rows : List InstallationRow} {isFile : FileCheck} {id : String}
    {entry : InstalledEntry} :
    firstEntry rows isFile id = .ok entry ↔
      ∃ row, firstRow rows id = some row ∧ resolveRow row isFile = .ok (some entry) := by
  rw [firstEntry]
  cases firstRow rows id with
  | none => simp
  | some row => rcases hresolve : resolveRow row isFile with failure | _ | found <;> simp [hresolve]

theorem firstEntry_ne_launchFailed (rows : List InstallationRow) (isFile : FileCheck) (id : String)
    (executable : Path) (cause : String) :
    firstEntry rows isFile id ≠ .error (.failed (.launchFailed executable cause)) := by
  rw [firstEntry]
  cases firstRow rows id with
  | none => simp
  | some row =>
    dsimp only
    rw [resolveRow]
    cases row.verdict with
    | none => simp
    | some text =>
      dsimp only
      rw [executableOf]
      cases Verdict.read? text with
      | none => simp
      | some verdict =>
        dsimp only
        cases verdict.executable? with
        | none => simp
        | some found => by_cases hfile : isFile found <;> simp [hfile]

theorem lookUp_eq {engine : Engine} {rows : List InstallationRow}
    (hrows : engine.world.source.Holds rows) (raw : String) :
    engine.lookUp (GameId.canonical raw)
      = firstEntry rows engine.world.isFile (GameId.canonical raw) := by
  have hanswer : engine.world.source.answer
        (engine.world.source.installation (GameId.canonical raw))
      = .ok (firstRow rows (GameId.canonical raw)) := by
    rw [Source.answer, hrows.noCrash, hrows.first]
    rfl
  rw [lookUp, firstEntry, hanswer]
  cases firstRow rows (GameId.canonical raw) with
  | none => rfl
  | some row => rfl

theorem executableFor_fst {engine : Engine} {rows : List InstallationRow}
    (hrows : engine.world.source.Holds rows) (raw : String) :
    (engine.executableFor (GameId.canonical raw)).1 =
      match engine.cachedExecutable (GameId.canonical raw) with
      | some executable => .ok executable
      | none => (firstEntry rows engine.world.isFile (GameId.canonical raw)).map
          InstalledEntry.executable := by
  have hlookUp :
      lookUp { engine with world := engine.world.noteInstallation } (GameId.canonical raw)
        = firstEntry rows engine.world.isFile (GameId.canonical raw) := lookUp_eq hrows raw
  rw [executableFor]
  cases engine.cachedExecutable (GameId.canonical raw) with
  | some executable => rfl
  | none =>
    dsimp only
    rw [hlookUp]
    cases firstEntry rows engine.world.isFile (GameId.canonical raw) with
    | error fault => rfl
    | ok entry => rfl

/-! ## The first read -/

section Cold

variable {engine : Engine} {rows : List InstallationRow}

theorem refreshInstalled_of_holds (engine : Engine) (hrows : engine.world.source.Holds rows) :
    engine.refreshInstalled = (.ok (resolve rows engine.world.isFile).size, { engine with
      installed := engine.installed.apply (resolve rows engine.world.isFile)
        engine.settings.staleness engine.world.now
      world := engine.world.noteInstallations }) := by
  have hanswer : engine.world.noteInstallations.source.answer
      engine.world.noteInstallations.source.installations = .ok rows := by
    rw [Source.answer]
    simp only [World.noteInstallations, hrows.noCrash, hrows.listed]
    rfl
  rw [refreshInstalled]
  dsimp only
  rw [hanswer]
  rfl

/-- **The first read** of the installed games fills the cache from all rows, and stores the time of
the check. -/
theorem localGames_of_cold [Room] (hrows : engine.world.source.Holds rows)
    (hcold : engine.installed = .cold)
    (hidle : engine.schedule.states.get .installation = .idle) :
    let installed := resolve rows engine.world.isFile
    let stored := engine.store.put engine.world.disk Task.installation.key
      (Decimal.ofInt64 engine.world.now)
    engine.localGames.1 = .ok installed.values ∧ ∃ schedule,
      engine.localGames.2 = { engine with
        installed := ⟨installed, some engine.world.now⟩
        schedule
        store := stored.2.1
        world := { engine.world.noteInstallations with disk := stored.2.2 } } := by
  intro installed stored
  have hnever : engine.isPrimed .installation = false := by
    rw [isPrimed, hcold]
    rfl
  have happly : engine.installed.apply installed engine.settings.staleness engine.world.now
      = ⟨installed, some engine.world.now⟩ := by
    rw [hcold]
    cases engine.settings.staleness with
    | sticky => exact congrArg (Cache.mk · _) installed.ofList_entries
    | prune => rfl
  have hclaim : engine.tryClaim .installation
      = some { engine with schedule := engine.schedule.claim .installation } := by
    rw [tryClaim, Schedule.tryClaim, hidle]
    rfl
  have hrefresh := refreshInstalled_of_holds
    { engine with schedule := engine.schedule.claim .installation } hrows
  rw [localGames, prime, hnever, if_neg Bool.false_ne_true, fill, hclaim]
  simp only [refreshClaimed, refresh]
  rw [hrefresh, happly]
  exact ⟨rfl, _, rfl⟩

theorem executableFor_cold (hrows : engine.world.source.Holds rows)
    (hcold : engine.installed = .cold) (raw : String) :
    (engine.executableFor (GameId.canonical raw)).1
      = (firstEntry rows engine.world.isFile (GameId.canonical raw)).map
        InstalledEntry.executable := by
  rw [executableFor_fst hrows, cachedExecutable, hcold]
  rfl

/-- The executable after the first read is that of the cache, if there is one. -/
theorem executableFor_warm [Room] (hrows : engine.world.source.Holds rows)
    (hcold : engine.installed = .cold)
    (hidle : engine.schedule.states.get .installation = .idle) (raw : String) :
    (engine.localGames.2.executableFor (GameId.canonical raw)).1 =
      match (resolve rows engine.world.isFile).get? (GameId.canonical raw) with
      | some entry => .ok entry.executable
      | none => (engine.executableFor (GameId.canonical raw)).1 := by
  obtain ⟨-, schedule, hwarm⟩ := localGames_of_cold hrows hcold hidle
  have hwarmRows : engine.localGames.2.world.source.Holds rows := by
    rw [hwarm]
    exact hrows
  rw [executableFor_cold hrows hcold, executableFor_fst hwarmRows, cachedExecutable, hwarm]
  dsimp only [World.noteInstallations]
  cases hentry : (resolve rows engine.world.isFile).get? (GameId.canonical raw) with
  | none => rfl
  | some entry =>
    obtain ⟨row, -, hrow, -⟩ := exists_row_of_resolve hentry
    rw [Option.map_some, Option.filter_some, if_pos (resolveRow_eq_entry hrow).2]

/-! ## The two launches -/

/-- Two engines on which the launch of a game answers the same and runs the same. -/
def SameLaunch [Room] (a b : Engine) (raw : String) : Prop :=
  (a.launch raw).1 = (b.launch raw).1
    ∧ (a.launch raw).2.world.journal.launched = (b.launch raw).2.world.journal.launched

/-- A launch that finds nothing can only be taken for one that finds something if its fault is that
of the launcher. -/
theorem launchFailed_of_playAnswer [Room] {engine : Engine} {id : String} {fault : Fault}
    {executable : Path} (hanswer : .error fault = engine.playAnswer id executable)
    (hruns : [] = engine.playRuns (.ok executable)) :
    ∃ cause, fault = .failed (.launchFailed executable cause) := by
  rw [playAnswer] at hanswer
  rw [playRuns] at hruns
  cases hfault : engine.world.launcher.runFault with
  | none => rw [hfault] at hruns; exact absurd hruns (by simp)
  | some cause => rw [hfault] at hanswer; exact ⟨cause, Except.error.inj hanswer⟩

theorem eq_of_playAnswer [Room] {engine other : Engine} {id : String} {a b : Path}
    (hlauncher : engine.world.launcher = other.world.launcher)
    (hanswer : engine.playAnswer id a = other.playAnswer id b)
    (hruns : other.playRuns (.ok a) = other.playRuns (.ok b)) : a = b := by
  rw [playAnswer, playAnswer, hlauncher] at hanswer
  rw [playRuns, playRuns] at hruns
  cases hfault : other.world.launcher.runFault with
  | none =>
    rw [hfault] at hruns
    exact (List.cons.inj hruns).1
  | some cause =>
    rw [hfault] at hanswer
    exact (Failure.launchFailed.inj (Fault.failed.inj (Except.error.inj hanswer))).1

theorem playRuns_congr {a b : Engine} (h : a.world.launcher = b.world.launcher) :
    a.playRuns = b.playRuns := by
  funext found
  unfold playRuns
  rw [h]

section SameLaunch

variable [Room] {a b : Engine} {raw : String} (hlauncher : a.world.launcher = b.world.launcher)
  (hjournal : a.world.journal.launched = b.world.journal.launched)

include hlauncher hjournal

/-- Between engines whose launchers and journals are the same, launches are the same only if the
executables are. -/
theorem executableFor_of_sameLaunch (h : SameLaunch a b raw)
    (ha : ∀ executable cause, (a.executableFor (GameId.canonical raw)).1
      ≠ .error (.failed (.launchFailed executable cause)))
    (hb : ∀ executable cause, (b.executableFor (GameId.canonical raw)).1
      ≠ .error (.failed (.launchFailed executable cause))) :
    (a.executableFor (GameId.canonical raw)).1 = (b.executableFor (GameId.canonical raw)).1 := by
  obtain ⟨haAnswer, haRuns⟩ := a.launch_eq raw
  obtain ⟨hbAnswer, hbRuns⟩ := b.launch_eq raw
  rw [SameLaunch, haAnswer, hbAnswer, haRuns, hbRuns, hjournal, playRuns_congr hlauncher,
    List.append_cancel_left_eq] at h
  obtain ⟨hsame, hruns⟩ := h
  rcases hfindA : (a.executableFor (GameId.canonical raw)).1 with faultA | executableA
  · rcases hfindB : (b.executableFor (GameId.canonical raw)).1 with faultB | executableB
    · rw [hfindA, hfindB] at hsame
      exact congrArg Except.error (Except.error.inj hsame)
    · rw [hfindA, hfindB] at hsame hruns
      obtain ⟨cause, rfl⟩ := launchFailed_of_playAnswer hsame hruns
      exact absurd hfindA (ha executableB cause)
  · rcases hfindB : (b.executableFor (GameId.canonical raw)).1 with faultB | executableB
    · rw [hfindA, hfindB] at hsame hruns
      rw [← playRuns_congr hlauncher] at hruns
      obtain ⟨cause, rfl⟩ := launchFailed_of_playAnswer hsame.symm hruns.symm
      exact absurd hfindB (hb executableA cause)
    · rw [hfindA, hfindB] at hsame hruns
      rw [eq_of_playAnswer hlauncher hsame hruns]

theorem sameLaunch_of_executableFor
    (hanswer : a.playAnswer (GameId.canonical raw) = b.playAnswer (GameId.canonical raw))
    (h : (a.executableFor (GameId.canonical raw)).1
      = (b.executableFor (GameId.canonical raw)).1) : SameLaunch a b raw := by
  obtain ⟨haAnswer, haRuns⟩ := a.launch_eq raw
  obtain ⟨hbAnswer, hbRuns⟩ := b.launch_eq raw
  rw [SameLaunch, haAnswer, hbAnswer, haRuns, hbRuns, hjournal, hanswer, playRuns_congr hlauncher,
    h]
  exact ⟨rfl, rfl⟩

end SameLaunch

theorem playAnswer_localGames [Room] (hrows : engine.world.source.Holds rows)
    (hcold : engine.installed = .cold)
    (hidle : engine.schedule.states.get .installation = .idle) (hroom : engine.store.Roomy)
    (id : String) : engine.localGames.2.playAnswer id = engine.playAnswer id := by
  obtain ⟨-, schedule, hwarm⟩ := localGames_of_cold hrows hcold hidle
  funext executable
  rw [hwarm, playAnswer, playAnswer]
  dsimp only [World.noteInstallations]
  rw [Playtime.record_fst_put hroom (Playtime.timeKey_ne_key id .installation).symm]

theorem executableFor_cold_ne_launchFailed (hrows : engine.world.source.Holds rows)
    (hcold : engine.installed = .cold) (raw : String) (executable : Path) (cause : String) :
    (engine.executableFor (GameId.canonical raw)).1
      ≠ .error (.failed (.launchFailed executable cause)) := by
  intro h
  rw [executableFor_cold hrows hcold] at h
  have hfirst := firstEntry_ne_launchFailed rows engine.world.isFile (GameId.canonical raw)
    executable cause
  cases hentry : firstEntry rows engine.world.isFile (GameId.canonical raw) with
  | error fault =>
    rw [hentry] at h hfirst
    exact hfirst (congrArg Except.error (Except.error.inj h))
  | ok entry =>
    rw [hentry] at h
    exact absurd h (by simp [Except.map])

/-- The executables are the same just if the one in the cache, if any, is the one that is found
without the cache. -/
theorem executableFor_localGames_iff [Room] (hrows : engine.world.source.Holds rows)
    (hcold : engine.installed = .cold)
    (hidle : engine.schedule.states.get .installation = .idle) (raw : String) :
    (engine.executableFor (GameId.canonical raw)).1
        = (engine.localGames.2.executableFor (GameId.canonical raw)).1 ↔
      ∀ entry, (resolve rows engine.world.isFile).get? (GameId.canonical raw) = some entry →
        (engine.executableFor (GameId.canonical raw)).1 = .ok entry.executable := by
  rw [executableFor_warm hrows hcold hidle raw]
  cases (resolve rows engine.world.isFile).get? (GameId.canonical raw) with
  | none => exact iff_of_true rfl fun entry h ↦ absurd h (by simp)
  | some entry =>
    refine ⟨fun h found hfound ↦ ?_, fun h ↦ h entry rfl⟩
    rw [h, Option.some.inj hfound]

/-- After the first read, too, what keeps an executable from being found is no failure of the
launcher. -/
theorem executableFor_warm_ne_launchFailed [Room] (hrows : engine.world.source.Holds rows)
    (hcold : engine.installed = .cold)
    (hidle : engine.schedule.states.get .installation = .idle) (raw : String) (executable : Path)
    (cause : String) : (engine.localGames.2.executableFor (GameId.canonical raw)).1
      ≠ .error (.failed (.launchFailed executable cause)) := by
  rw [executableFor_warm hrows hcold hidle raw]
  cases (resolve rows engine.world.isFile).get? (GameId.canonical raw) with
  | none => exact executableFor_cold_ne_launchFailed hrows hcold raw executable cause
  | some entry => simp

theorem firstEntry_map_eq_iff {isFile : Path → Bool} {id : String} {entry : InstalledEntry}
    (hentry : (resolve rows isFile).get? id = some entry) :
    (firstEntry rows isFile id).map InstalledEntry.executable = .ok entry.executable
      ↔ ∃ row, firstRow rows id = some row ∧ resolveRow row isFile = .ok (some entry) := by
  constructor
  · intro h
    cases hfound : firstEntry rows isFile id with
    | error fault => rw [hfound] at h; exact absurd h (by simp [Except.map])
    | ok found =>
      rw [hfound] at h
      obtain ⟨row, hrow, hresolve⟩ := firstEntry_eq_ok_iff.mp hfound
      -- both entries are filed under the id of the game
      have hid : found.id = entry.id := by
        rw [filedBy_resolve rows isFile _ _ hentry, (resolveRow_eq_entry hresolve).1]
        simpa using List.find?_some hrow
      have hsame : found = entry := by
        cases found
        cases entry
        rw [InstalledEntry.mk.injEq]
        exact ⟨hid, Except.ok.inj h⟩
      exact ⟨row, hrow, hsame ▸ hresolve⟩
  · rintro ⟨row, hrow, hresolve⟩
    rw [firstEntry_eq_ok_iff.mpr ⟨row, hrow, hresolve⟩]
    rfl

theorem firstRow_of_alike {id : String} {row : InstallationRow} (hmem : row ∈ rows)
    (hid : Decimal.ofInt64 row.gameId = id)
    (halike : ∀ row ∈ rows, ∀ other ∈ rows, Decimal.ofInt64 row.gameId = id →
      Decimal.ofInt64 other.gameId = id → row.verdict = other.verdict) :
    firstRow rows id = some row := by
  obtain ⟨first, hfirst⟩ : ∃ first, firstRow rows id = some first := by
    refine Option.isSome_iff_exists.mp (List.find?_isSome.mpr ⟨row, hmem, ?_⟩)
    rw [hid, beq_self_eq_true]
  have hfirstId : Decimal.ofInt64 first.gameId = id := by simpa using List.find?_some hfirst
  have hverdict := halike first (List.mem_of_find?_eq_some hfirst) row hmem hfirstId hid
  have hgame := Decimal.ofInt64_injective (hfirstId.trans hid.symm)
  rw [hfirst]
  cases first
  cases row
  rw [Option.some.injEq, InstallationRow.mk.injEq]
  exact ⟨hgame, hverdict⟩

/-- **Cold and warm launches.** With a cold cache the installed games can be read, and they are
those of all rows. A launch right after that is the same as a launch in its place only if the first
row of the game is the one that counts, or none does; and if there is room to store the time of the
check and the session as well, then it is. In particular they are the same then if all rows of the
game have the same verdict. -/
theorem launch_cold_iff [Room] (hrows : engine.world.source.Holds rows)
    (hcold : engine.installed = .cold)
    (hidle : engine.schedule.states.get .installation = .idle) (raw : String) :
    let id := GameId.canonical raw
    let installed := resolve rows engine.world.isFile
    let firstCounts := ∀ entry, installed.get? id = some entry → ∃ row, firstRow rows id = some row
      ∧ resolveRow row engine.world.isFile = .ok (some entry)
    engine.localGames.1 = .ok installed.values
      ∧ (SameLaunch engine engine.localGames.2 raw → firstCounts)
      ∧ (engine.store.Roomy → (SameLaunch engine engine.localGames.2 raw ↔ firstCounts)
        ∧ ((∀ row ∈ rows, ∀ other ∈ rows, Decimal.ofInt64 row.gameId = id →
            Decimal.ofInt64 other.gameId = id → row.verdict = other.verdict) →
          SameLaunch engine engine.localGames.2 raw)) := by
  intro id installed firstCounts
  obtain ⟨hlisted, schedule, hwarm⟩ := localGames_of_cold hrows hcold hidle
  have hlauncher : engine.world.launcher = engine.localGames.2.world.launcher := by rw [hwarm]; rfl
  have hjournal : engine.world.journal.launched = engine.localGames.2.world.journal.launched := by
    rw [hwarm]
    rfl
  have hiff : (engine.executableFor id).1 = (engine.localGames.2.executableFor id).1
      ↔ firstCounts := by
    rw [executableFor_localGames_iff hrows hcold hidle]
    refine forall₂_congr fun entry hentry ↦ ?_
    rw [executableFor_cold hrows hcold]
    exact firstEntry_map_eq_iff hentry
  have honly : SameLaunch engine engine.localGames.2 raw → firstCounts := fun h ↦
    hiff.mp (executableFor_of_sameLaunch hlauncher hjournal h
      (executableFor_cold_ne_launchFailed hrows hcold raw)
      (executableFor_warm_ne_launchFailed hrows hcold hidle raw))
  refine ⟨hlisted, honly, fun hroom ↦ ?_⟩
  have hanswer := (playAnswer_localGames hrows hcold hidle hroom id).symm
  have hif : firstCounts → SameLaunch engine engine.localGames.2 raw := fun h ↦
    sameLaunch_of_executableFor hlauncher hjournal hanswer (hiff.mpr h)
  refine ⟨⟨honly, hif⟩, fun halike ↦ hif fun entry hentry ↦ ?_⟩
  obtain ⟨row, hmem, hresolve, hid⟩ := exists_row_of_resolve hentry
  exact ⟨row, firstRow_of_alike hmem hid halike, hresolve⟩

end Cold

/-! ## A game with two rows -/

/-- A new engine, for which the game 7 is installed once for every verdict. -/
def installedWith (verdicts : List (Option String)) : Engine :=
  start .default (.ofEntries .empty)
    ⟨1000000, .ofRows [] (verdicts.map (InstallationRow.mk 7)) none, fun _ ↦ true, ⟨90, none, none⟩,
      .emptyFolder, .blank⟩

/-- A verdict with one executable. -/
def verdictWith (executable : String) : String :=
  "\x7b\"basePath\":\"/g\",\"candidates\":[\x7b\"path\":\"" ++ executable ++ "\"\x7d]\x7d"

/-- Two installations that do not differ are launched alike, be they in the client's database or
not. -/
theorem launch_cold_alike :
    let rows := [InstallationRow.mk 7 (verdictWith "a"), InstallationRow.mk 7 (verdictWith "a")]
    let caves : List Database.CaveRecord := [⟨.text "a", .integer 7, .text (verdictWith "a")⟩,
      ⟨.text "b", .integer 7, .text (verdictWith "a")⟩]
    let db : ClientDatabase := ⟨"butler.db", .tables { Database.Tables.none with caves }⟩
    let engine (source : Source) : Engine := { installedWith [] with world.source := source }
    let alike (source : Source) : Prop := source.Holds rows ∧ (engine source).installed = .cold
      ∧ (engine source).schedule.states.get .installation = .idle ∧ (engine source).store.Roomy
      ∧ (engine source).localGames.1 = .ok [⟨"7", "/g/a"⟩]
      ∧ SameLaunch (engine source) (engine source).localGames.2 " +07"
    alike (.ofRows [] rows none) ∧ alike (.ofDatabase db) := by
  intro rows caves db engine alike
  have hresolve : (resolve rows fun _ ↦ true).values = [⟨"7", "/g/a"⟩] := by decide +kernel
  have halike (source : Source) (hrows : source.Holds rows) : alike source := by
    have hroom : (engine source).store.Roomy := Store.roomy_of_unlimited (fun _ _ ↦ rfl) _
    have hcold : (engine source).installed = .cold := rfl
    obtain ⟨hlisted, -, hsame⟩ := launch_cold_iff hrows hcold rfl " +07"
    refine ⟨hrows, rfl, rfl, hroom, ?_, (hsame hroom).2 fun row hrow other hother _ _ ↦ ?_⟩
    · rw [hlisted]
      exact congrArg Except.ok hresolve
    · simp only [rows, List.mem_cons, List.not_mem_nil, or_false, or_self] at hrow hother
      rw [hrow, hother]
  have hsorted : caves.mergeSort (fun a b ↦ a.gameId.atMost b.gameId) = caves :=
    List.mergeSort_of_pairwise (by decide +kernel)
  have hlist : db.installations = .ok rows := by
    show Database.installations { Database.Tables.none with caves } = _
    rw [Database.installations, Database.rowsOf]
    dsimp only
    rw [hsorted]
    rfl
  exact ⟨halike _ (Source.holds_ofRows [] rows none), halike _ (Source.holds_ofDatabase hlist)⟩

/-- A game that is listed cannot be launched without the cache, as its first row has no verdict. -/
theorem launch_cold_malformed :
    let engine := installedWith [none, verdictWith "a"]
    engine.installed.entries = .empty
      ∧ engine.localGames.1 = .ok [⟨"7", "/g/a"⟩]
      ∧ (engine.launch "7").1 = .error (.failed (.malformedRecord "7" "missing verdict"))
      ∧ (engine.localGames.2.launch "7").1 = .ok ⟨"7", some 1, some 1000090⟩ := by
  decide +kernel

end Engine

end GameBridge
