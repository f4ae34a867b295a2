import GameBridge.Proofs.Engine.Launching
import GameBridge.Proofs.Playtime.Atomicity

/-!
# A launch from beginning to end

A launch looks for the executable of a game, runs it and records the session, and it can stop at
each of these. `Has` and `LookUp` say where the executable comes from, out of the cache and what the
source holds, and `Plays` says what becomes of an engine that has found it. None of them mentions
how a launch goes about it, and `launch_outcome` is that every launch ends as they say.

What the source gives for a game is kept under the id in the row. A source that is asked for one
game and gives a row of this game, as all sources do that the bridge is run with
(`Source.KeepsIds`), has it kept under the id that was asked for.
-/

namespace GameBridge

open Playtime (timeKey lastKey)

/-! ## Rows of the game that is asked for -/

namespace Source

/-- A source that gives no row of another game when it is asked for the installation of one. -/
def KeepsIds (source : Source) : Prop :=
  ∀ raw row, source.installation (GameId.canonical raw) = .ok (some row) →
    Decimal.ofInt64 row.gameId = GameId.canonical raw

theorem keepsIds_ofDatabase (db : ClientDatabase) : (ofDatabase db).KeepsIds := by
  intro raw row h
  rw [installation_ofDatabase, ClientDatabase.installation] at h
  cases hread : Decimal.readInt64? (GameId.canonical raw) with
  | none =>
    rw [hread] at h
    exact absurd h (by simp)
  | some n =>
    rw [hread] at h
    cases hfile : db.file with
    | tables tables =>
      rw [hfile] at h
      rw [GameId.canonical_of_read hread, Database.gameId_of_installation h]
    | _ =>
      rw [hfile] at h
      exact absurd h (by simp [Database.ask])

end Source

namespace Engine

/-! ## Where the executable comes from -/

/-- The cache has a game, and its executable exists. -/
def Has (engine : Engine) (id : String) (executable : Path) : Prop :=
  ∃ entry, engine.installed.entries.get? id = some entry ∧ entry.executable = executable
    ∧ engine.world.isFile executable = true

/-- What the source is asked for the installation of a game comes to. -/
inductive LookUp (engine : Engine) (id : String) : Except Fault Path → Prop
  /-- The source crashes. -/
  | crashed (hcrash : engine.world.source.crashes = true) :
      LookUp engine id (.error (.stopped (.crashed .source)))
  /-- The source fails. -/
  | failed {failure : Failure} (hcrash : engine.world.source.crashes = false)
      (hanswer : engine.world.source.installation id = .error failure) :
      LookUp engine id (.error (.failed failure))
  /-- There is no row. -/
  | noRow (hcrash : engine.world.source.crashes = false)
      (hanswer : engine.world.source.installation id = .ok none) :
      LookUp engine id (.error (.failed (.gameNotInstalled id)))
  /-- The row has no verdict. -/
  | noVerdict {row : InstallationRow} (hcrash : engine.world.source.crashes = false)
      (hanswer : engine.world.source.installation id = .ok (some row))
      (hverdict : row.verdict = none) :
      LookUp engine id (.error (.failed (.malformedRecord id "missing verdict")))
  /-- The verdict cannot be read. -/
  | badVerdict {row : InstallationRow} {text : String}
      (hcrash : engine.world.source.crashes = false)
      (hanswer : engine.world.source.installation id = .ok (some row))
      (hverdict : row.verdict = some text) (hread : Verdict.read? text = none) :
      LookUp engine id (.error (.failed (.malformedRecord id "invalid verdict JSON: ")))
  /-- The verdict names no executable. -/
  | noCandidate {row : InstallationRow} {text : String} {verdict : Verdict}
      (hcrash : engine.world.source.crashes = false)
      (hanswer : engine.world.source.installation id = .ok (some row))
      (hverdict : row.verdict = some text) (hread : Verdict.read? text = some verdict)
      (hcandidates : verdict.candidates = []) :
      LookUp engine id (.error (.failed (.gameNotInstalled id)))
  /-- The first executable that the verdict names does not exist. -/
  | noFile {row : InstallationRow} {text : String} {verdict : Verdict} {first : Path}
      {rest : List Path} (hcrash : engine.world.source.crashes = false)
      (hanswer : engine.world.source.installation id = .ok (some row))
      (hverdict : row.verdict = some text) (hread : Verdict.read? text = some verdict)
      (hcandidates : verdict.candidates = first :: rest)
      (hfile : engine.world.isFile (verdict.basePath.join first) = false) :
      LookUp engine id (.error (.failed (.gameNotInstalled id)))
  /-- The first executable that the verdict names exists. -/
  | found {row : InstallationRow} {text : String} {verdict : Verdict} {first : Path}
      {rest : List Path} (hcrash : engine.world.source.crashes = false)
      (hanswer : engine.world.source.installation id = .ok (some row))
      (hverdict : row.verdict = some text) (hread : Verdict.read? text = some verdict)
      (hcandidates : verdict.candidates = first :: rest)
      (hfile : engine.world.isFile (verdict.basePath.join first) = true) :
      LookUp engine id (.ok (verdict.basePath.join first))

theorem cachedExecutable_eq_some_iff {engine : Engine} {id : String} {executable : Path} :
    engine.cachedExecutable id = some executable ↔ engine.Has id executable := by
  rw [cachedExecutable, Has, Option.filter_eq_some_iff, Option.map_eq_some_iff]
  constructor
  · rintro ⟨⟨entry, hentry, hexecutable⟩, hfile⟩
    exact ⟨entry, hentry, hexecutable, hfile⟩
  · rintro ⟨entry, hentry, hexecutable, hfile⟩
    exact ⟨⟨entry, hentry, hexecutable⟩, hfile⟩

/-- **The source** is asked, and what it says is taken as it is meant. -/
theorem lookUp_cases (engine : Engine) (raw : String) (hsource : engine.world.source.KeepsIds) :
    (∃ fault, engine.LookUp (GameId.canonical raw) (.error fault)
        ∧ engine.lookUp (GameId.canonical raw) = .error fault)
      ∨ ∃ executable, engine.LookUp (GameId.canonical raw) (.ok executable)
        ∧ engine.lookUp (GameId.canonical raw) = .ok ⟨GameId.canonical raw, executable⟩ := by
  rw [lookUp, Source.answer]
  cases hcrash : engine.world.source.crashes with
  | true => exact Or.inl ⟨_, .crashed hcrash, rfl⟩
  | false =>
    rcases hanswer : engine.world.source.installation (GameId.canonical raw) with failure | _ | row
    · exact Or.inl ⟨_, .failed hcrash hanswer, rfl⟩
    · exact Or.inl ⟨_, .noRow hcrash hanswer, rfl⟩
    have hid := hsource raw row hanswer
    have hgiven : (Except.ok (some row) : Except Failure (Option InstallationRow)).mapError
      Fault.failed = .ok (some row) := rfl
    simp only [Bool.false_eq_true, if_false, hgiven, resolveRow, hid]
    cases hverdict : row.verdict with
    | none => exact Or.inl ⟨_, .noVerdict hcrash hanswer hverdict, rfl⟩
    | some text =>
      simp only [executableOf, hid]
      cases hread : Verdict.read? text with
      | none => exact Or.inl ⟨_, .badVerdict hcrash hanswer hverdict hread, rfl⟩
      | some verdict =>
        simp only [Verdict.executable?]
        cases hcandidates : verdict.candidates with
        | nil => exact Or.inl ⟨_, .noCandidate hcrash hanswer hverdict hread hcandidates, rfl⟩
        | cons first rest =>
          simp only [List.head?_cons, Option.map_some]
          cases hfile : engine.world.isFile (verdict.basePath.join first) with
          | false =>
            exact Or.inl ⟨_, .noFile hcrash hanswer hverdict hread hcandidates hfile, rfl⟩
          | true =>
            exact Or.inr ⟨_, .found hcrash hanswer hverdict hread hcandidates hfile, rfl⟩

theorem LookUp.unique {engine : Engine} {id : String} {one other : Except Fault Path}
    (h : engine.LookUp id one) (h' : engine.LookUp id other) : one = other := by
  cases h <;> cases h' <;> simp_all

theorem isFile_of_lookUp {engine : Engine} {id : String} {entry : InstalledEntry}
    (h : engine.lookUp id = .ok entry) : engine.world.isFile entry.executable = true := by
  rw [lookUp] at h
  split at h
  · exact absurd h (by simp)
  · exact absurd h (by simp)
  · split at h
    · exact absurd h (by simp)
    · exact absurd h (by simp)
    · rename_i found hfound
      exact Except.ok.inj h ▸ (resolveRow_eq_entry hfound).2

theorem isFile_of_executableFor {engine : Engine} {id : String} {executable : Path}
    (h : (engine.executableFor id).1 = .ok executable) : engine.world.isFile executable = true := by
  rw [executableFor] at h
  split at h
  · rename_i cached hcached
    obtain ⟨_, -, -, hfile⟩ := cachedExecutable_eq_some_iff.mp hcached
    exact Except.ok.inj h ▸ hfile
  · dsimp only at h
    split at h
    · exact absurd h (by simp)
    · rename_i entry hentry
      have hfile : engine.world.isFile entry.executable = true := isFile_of_lookUp hentry
      exact Except.ok.inj h ▸ hfile

/-! ## What becomes of a session -/

theorem addMinutes_eq_iff {a b sum : UInt64} :
    sum = Playtime.addMinutes a b ↔ sum.toNat = min (a.toNat + b.toNat) (2 ^ 64 - 1) := by
  rw [← UInt64.toNat_inj, Playtime.toNat_addMinutes]

/-- The total of a game with a session that began at the time of the engine. -/
structure Adds (engine : Engine) (id : String) (stop : Time) (sum : UInt64)
    (previous : Option UInt64) : Prop where
  known : Playtime.total engine.store id = .ok previous
  sum : sum.toNat = min ((previous.getD 0).toNat
    + (Playtime.sessionMinutes engine.world.now stop).toNat) (2 ^ 64 - 1)

/-- What becomes of a session of a game that began at the time of the engine: what is answered, and
the store and the disk after. -/
inductive Records [Room] (engine : Engine) (id : String) (stop : Time) :
    Except Fault GameTime → Store → Disk → Prop
  /-- If the total cannot be read, that is the answer, and nothing is written. -/
  | unreadable {failure : Failure} (htotal : Playtime.total engine.store id = .error failure) :
    Records engine id stop (.error (.failed failure)) engine.store engine.world.disk
  /-- If the new total cannot be stored, that is the answer, and nothing changes in memory. -/
  | refused {previous : Option UInt64} {sum : UInt64} {failure : Failure} {now : Disk}
    (hadds : engine.Adds id stop sum previous)
    (hput : (engine.store.put engine.world.disk (timeKey id) (Decimal.ofUInt64 sum)).1
      = .error failure)
    (hleft : Playtime.Refused engine.store engine.world.disk id sum now) :
    Records engine id stop (.error (.failed failure)) engine.store now
  /-- If there is no room for the end, that is the answer, and the new total stays. -/
  | halfway {previous : Option UInt64} {sum : UInt64} {failure : Failure} {after : Store}
    {between now : Disk} (hadds : engine.Adds id stop sum previous)
    (hput : engine.store.put engine.world.disk (timeKey id) (Decimal.ofUInt64 sum)
      = (.ok (), after, between))
    (hfull : ¬after.Fits between (lastKey id) (Decimal.ofInt64 stop))
    (hleft : Playtime.Halfway engine.store engine.world.disk id sum after now) :
    Records engine id stop (.error (.failed failure)) after now
  /-- Otherwise the total with the session is the answer, and both entries are stored. -/
  | recorded {previous : Option UInt64} {sum : UInt64} {middle after : Store} {between now : Disk}
    (hadds : engine.Adds id stop sum previous)
    (hput : engine.store.put engine.world.disk (timeKey id) (Decimal.ofUInt64 sum)
      = (.ok (), middle, between))
    (hroom : middle.Fits between (lastKey id) (Decimal.ofInt64 stop))
    (hleft : Playtime.Recorded engine.store engine.world.disk id stop sum after now) :
    Records engine id stop (.ok ⟨id, some sum, some stop⟩) after now

theorem adds_of_newTotal {engine : Engine} {id : String} {stop : Time} {sum : UInt64}
    (h : Playtime.newTotal engine.store id engine.world.now stop = .ok sum) :
    ∃ previous, engine.Adds id stop sum previous := by
  obtain ⟨previous, hknown, hsum⟩ := Playtime.newTotal_eq_ok_iff.mp h
  exact ⟨previous, hknown, addMinutes_eq_iff.mp hsum⟩

/-- A session is recorded if its total can be stored and there is room for its end. -/
theorem Records.eq_ok [Room] {engine : Engine} {id : String} {stop : Time}
    {answer : Except Fault GameTime} {store middle : Store} {disk between : Disk} {sum : UInt64}
    {previous : Option UInt64} (h : engine.Records id stop answer store disk)
    (hadds : engine.Adds id stop sum previous)
    (hput : engine.store.put engine.world.disk (timeKey id) (Decimal.ofUInt64 sum)
      = (.ok (), middle, between))
    (hroom : middle.Fits between (lastKey id) (Decimal.ofInt64 stop)) :
    answer = .ok ⟨id, some sum, some stop⟩ := by
  have hsame {known : Option UInt64} {other : UInt64} (hother : engine.Adds id stop other known) :
      other = sum := by
    obtain rfl := Except.ok.inj (hother.known.symm.trans hadds.known)
    exact UInt64.toNat_inj.mp (hother.sum.trans hadds.sum.symm)
  cases h with
  | unreadable htotal => exact absurd (htotal.symm.trans hadds.known) (by simp)
  | refused hother hrefused =>
    rw [hsame hother, hput] at hrefused
    exact absurd hrefused (by simp)
  | halfway hother hput' hfull =>
    rw [hsame hother] at hput'
    obtain ⟨rfl, rfl⟩ := Prod.mk.inj (Prod.mk.inj (hput.symm.trans hput')).2
    exact absurd hroom hfull
  | recorded hother => rw [hsame hother]

/-- **A session** is recorded as it should be. -/
theorem records_record [Room] (engine : Engine) (id : String) (stop : Time) :
    engine.Records id stop
      (((Playtime.record engine.store engine.world.disk id engine.world.now stop).1.map
        fun total ↦ ⟨id, some total, some stop⟩).mapError .failed)
      (Playtime.record engine.store engine.world.disk id engine.world.now stop).2.1
      (Playtime.record engine.store engine.world.disk id engine.world.now stop).2.2 := by
  have hsteps :=
    Playtime.steps_record engine.store engine.world.disk id engine.world.now stop
  generalize Playtime.record engine.store engine.world.disk id engine.world.now stop = result
    at hsteps ⊢
  cases hsteps with
  | unreadable hsum => exact .unreadable (Playtime.newTotal_eq_error_iff.mp hsum)
  | refused hsum htime =>
    obtain ⟨previous, hadds⟩ := adds_of_newTotal hsum
    exact .refused hadds (congrArg Prod.fst htime) (Playtime.refused_putTotal htime)
  | halfway hsum htime hfull hlast =>
    obtain ⟨previous, hadds⟩ := adds_of_newTotal hsum
    exact .halfway hadds htime hfull (Playtime.halfway_withTotal htime hfull hlast)
  | recorded hsum htime hroom hlast =>
    obtain ⟨previous, hadds⟩ := adds_of_newTotal hsum
    exact .recorded hadds htime hroom (Playtime.recorded_withSession htime hlast)

/-! ## What becomes of a launch -/

/-- What becomes of an engine that has found the executable of a game. -/
structure Plays [Room] (engine : Engine) (id : String) (executable : Path)
    (answer : Except Fault GameTime) (after : Engine) : Prop where
  /-- If the executable cannot be run, that is the answer, and nothing changes. -/
  refused : ∀ cause, engine.world.launcher.runFault = some cause →
    answer = .error (.failed (.launchFailed executable cause)) ∧ after = engine
  /-- Otherwise it is run, the clock moves on, and the session is recorded. -/
  played : engine.world.launcher.runFault = none →
    let stop := engine.world.now.advance engine.world.launcher.session
    ∃ store disk, engine.Records id stop answer store disk
      ∧ after = { engine with
        store
        world := { engine.world with
          now := stop
          disk
          journal.launched := engine.world.journal.launched ++ [executable] } }

/-- The engine after it has asked the source for the installation of a game. -/
def asked (engine : Engine) : Engine := { engine with world := engine.world.noteInstallation }

/-- The engine with the executable of a game in its cache. -/
def caching (engine : Engine) (id : String) (executable : Path) : Engine :=
  { engine with installed.entries := engine.installed.entries.insert id ⟨id, executable⟩ }

section Cold

variable {engine : Engine} {id : String} (hcold : engine.cachedExecutable id = none)

include hcold

theorem executableFor_of_fault {fault : Fault} (h : engine.lookUp id = .error fault) :
    engine.executableFor id = (.error fault, engine.asked) := by
  have hasked : engine.asked.lookUp id = .error fault := h
  rw [asked] at hasked
  rw [executableFor, hcold]
  simp only [hasked, asked]

theorem executableFor_of_entry {entry : InstalledEntry} (h : engine.lookUp id = .ok entry) :
    engine.executableFor id = (.ok entry.executable, { engine.asked with
      installed.entries := engine.installed.entries.insert entry.id entry }) := by
  have hasked : engine.asked.lookUp id = .ok entry := h
  rw [asked] at hasked
  rw [executableFor, hcold]
  simp only [hasked, asked]

end Cold

theorem plays_of_found [Room] {engine found : Engine} {raw : String} {executable : Path}
    (h : engine.executableFor (GameId.canonical raw) = (.ok executable, found)) :
    found.Plays (GameId.canonical raw) executable (engine.launch raw).1 (engine.launch raw).2 := by
  constructor
  · intro cause hcause
    rw [launch]
    simp only [h, World.run, hcause, and_self]
  · intro hrun stop
    have hrecords := found.records_record (GameId.canonical raw) stop
    rw [launch]
    simp only [h, World.run, hrun, recordSession]
    exact ⟨_, _, hrecords, rfl⟩

theorem exists_runs_of_launch [Room] (engine : Engine) (raw : String) :
    ∃ runs, (engine.launch raw).2.world.journal.launched = engine.world.journal.launched ++ runs
      ∧ runs.length ≤ 1 ∧ ∀ executable ∈ runs, engine.world.isFile executable = true := by
  refine ⟨_, (engine.launch_eq raw).2, ?_⟩
  cases hfound : (engine.executableFor (GameId.canonical raw)).1 with
  | error fault => exact ⟨Nat.zero_le 1, fun _ hmem ↦ absurd hmem List.not_mem_nil⟩
  | ok executable =>
    have hfile := engine.isFile_of_executableFor hfound
    rw [playRuns]
    cases engine.world.launcher.runFault with
    | some cause => exact ⟨Nat.zero_le 1, fun _ hmem ↦ absurd hmem List.not_mem_nil⟩
    | none => exact ⟨Nat.le_refl 1, fun _ hmem ↦ List.mem_singleton.mp hmem ▸ hfile⟩

/-- **A launch.** If the cache has the game and its executable exists, this executable is run, and
the source is not asked. Otherwise the source is asked for the one game. What keeps it from naming
an executable that exists is the answer then, and nothing else changes than that the source was
asked. An executable that it names is run, and is in the cache under the id of the game. At most one
executable is run, and it exists. -/
theorem launch_outcome [Room] (engine : Engine) (raw : String)
    (hsource : engine.world.source.KeepsIds) :
    let id := GameId.canonical raw
    let answer := (engine.launch raw).1
    let after := (engine.launch raw).2
    (∀ executable, engine.Has id executable → engine.Plays id executable answer after)
      ∧ ((∀ executable, ¬engine.Has id executable) →
        (∀ fault, engine.LookUp id (.error fault) → answer = .error fault ∧ after = engine.asked)
        ∧ (∀ executable, engine.LookUp id (.ok executable) →
          (engine.asked.caching id executable).Plays id executable answer after)
        ∧ ∃ found, engine.LookUp id found)
      ∧ ∃ runs, after.world.journal.launched = engine.world.journal.launched ++ runs
        ∧ runs.length ≤ 1 ∧ ∀ executable ∈ runs, engine.world.isFile executable = true := by
  intro id answer after
  refine ⟨fun executable hhas ↦ plays_of_found ?_, fun hnone ↦ ?_,
    engine.exists_runs_of_launch raw⟩
  · rw [executableFor, cachedExecutable_eq_some_iff.mpr hhas]
  have hcold : engine.cachedExecutable id = none := by
    refine Option.eq_none_iff_forall_ne_some.mpr fun executable h ↦ ?_
    exact hnone executable (cachedExecutable_eq_some_iff.mp h)
  rcases engine.lookUp_cases raw hsource with ⟨fault, hlook, hlookUp⟩ | ⟨executable, hlook, hlookUp⟩
  · have hlaunch : engine.launch raw = (.error fault, engine.asked) := by
      have hasked : engine.executableFor (GameId.canonical raw) = (.error fault, engine.asked) :=
        executableFor_of_fault hcold hlookUp
      rw [launch]
      simp only [hasked]
    refine ⟨fun other h ↦ ?_, fun executable h ↦ absurd (hlook.unique h) (by simp), _, hlook⟩
    obtain rfl := Except.error.inj (hlook.unique h)
    exact ⟨congrArg Prod.fst hlaunch, congrArg Prod.snd hlaunch⟩
  · refine ⟨fun fault h ↦ absurd (hlook.unique h) (by simp), fun other h ↦ ?_, _, hlook⟩
    obtain rfl := Except.ok.inj (hlook.unique h)
    exact plays_of_found (executableFor_of_entry hcold hlookUp)

/-- A game is launched twice, first by what the client's database says of it and then out of the
cache, so that the database is asked once. -/
theorem launch_outcome_twice :
    let caves : List Database.CaveRecord := [⟨.text "a", .integer 7, .text (verdictWith "a")⟩]
    let db : ClientDatabase := ⟨"butler.db", .tables { Database.Tables.none with caves }⟩
    let engine := { installedWith [] with world.source := .ofDatabase db }
    let first := engine.launch " +07"
    let second := first.2.launch "7"
    engine.world.source.KeepsIds ∧ engine.LookUp "7" (.ok "/g/a")
      ∧ first.1 = .ok ⟨"7", some 1, some 1000090⟩
      ∧ first.2.world.source.KeepsIds ∧ first.2.Has "7" "/g/a"
      ∧ second.1 = .ok ⟨"7", some 2, some 1000180⟩
      ∧ second.2.world.journal = ⟨["/g/a", "/g/a"], [], ⟨0, 0, 1, 0⟩⟩ := by
  intro caves db engine first second
  have hkeeps : engine.world.source.KeepsIds := Source.keepsIds_ofDatabase db
  have hid : GameId.canonical " +07" = "7" ∧ GameId.canonical "7" = "7" := by decide +kernel
  have hread : Verdict.read? (verdictWith "a") = some ⟨"/g", ["a"]⟩ := by decide +kernel
  have hpath : Path.join "/g" "a" = "/g/a" := by decide +kernel
  have hrow : engine.world.source.installation "7" = .ok (some ⟨7, verdictWith "a"⟩) := by
    decide +kernel
  have hfile : engine.world.isFile "/g/a" = true := by decide +kernel
  have hlook : engine.LookUp "7" (.ok "/g/a") :=
    hpath ▸ .found rfl hrow rfl hread rfl rfl
  have hempty : ∀ executable, ¬engine.Has "7" executable := by
    rintro executable ⟨entry, hentry, -⟩
    cases hentry
  have hcold := (launch_outcome engine " +07" hkeeps).2.1
  rw [hid.1] at hcold
  obtain ⟨store, disk, hrecords, hafter⟩ := ((hcold hempty).2.1 _ hlook).played rfl
  have hadds : (engine.asked.caching "7" "/g/a").Adds "7" 1000090 1 none := ⟨rfl, by decide⟩
  have hanswer := hrecords.eq_ok hadds rfl trivial
  have hkeeps' : first.2.world.source.KeepsIds := by
    show (engine.launch " +07").2.world.source.KeepsIds
    rw [hafter]
    exact hkeeps
  have hhas : first.2.Has "7" "/g/a" := by
    show (engine.launch " +07").2.Has "7" "/g/a"
    rw [hafter]
    exact ⟨⟨"7", "/g/a"⟩, rfl, rfl, hfile⟩
  have htotal : Playtime.total first.2.store "7" = .ok (some 1) := by decide +kernel
  have hwarm := (launch_outcome first.2 "7" hkeeps').1
  rw [hid.2] at hwarm
  obtain ⟨store', disk', hrecords', hafter'⟩ := (hwarm "/g/a" hhas).played (by decide +kernel)
  have hadds' : first.2.Adds "7" 1000180 2 (some 1) := ⟨htotal, by decide +kernel⟩
  have hanswer' := hrecords'.eq_ok hadds' rfl trivial
  refine ⟨hkeeps, hlook, hanswer, hkeeps', hhas, ?_, ?_⟩
  · rw [hanswer']
    decide +kernel
  · decide +kernel

/-- A path that leads back to a file from a folder that is missing, and a folder in the way of the
temporary file: the game is run and its session is not recorded, but the total that is read from the
path comes to be that of the file. And a disk with room for the new total and none for the end: the
session is not recorded either, but its minutes stay. -/
theorem launch_outcome_back :
    (let path := "a/../c.json"
      let disk : Disk := .folder [("c.json", .file (Text.bytes "\x7b\"time7\":\"5\"\x7d")),
        ("c.tmp", .emptyFolder)]
      let engine := start .default ⟨.empty, .file path⟩
        { (installedWith [verdictWith "a"]).world with disk }
      let (answer, after) := engine.launch "7"
      Store.ofFile disk path = .ok engine.store
        ∧ answer = .error (.failed (.writeFailed "time7" Store.SaveFault.write.message))
        ∧ after.world.journal.launched = ["/g/a"]
        ∧ Store.onDisk? disk path "time7" = none
        ∧ Store.onDisk? after.world.disk path "time7" = some "5")
      ∧ let _ : Room := .ofCapacity 40
        let path := "c.json"
        let engine := start .default ⟨.empty, .file path⟩ (installedWith [verdictWith "a"]).world
        let (answer, after) := engine.launch "7"
        Store.ofFile .emptyFolder path = .ok engine.store
          ∧ answer = .error (.failed (.writeFailed "last7" Store.SaveFault.write.message))
          ∧ after.world.journal.launched = ["/g/a"] ∧ after.store.get? "time7" = some "1"
          ∧ Store.onDisk? after.world.disk path "time7" = some "1" := by
  decide +kernel

end Engine

end GameBridge
