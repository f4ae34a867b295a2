import GameBridge.Proofs.Database.Installations
import GameBridge.Proofs.Database.Ownership
import GameBridge.Proofs.Engine.Contents

/-!
# One more installation

An installation may be added to the client's database anywhere in its table. Where a game is
installed depends only on the installations that name an existing executable of it, in their order,
and the stable sort of the query keeps that order. So an addition costs at most the game it is
about: a verdict that is missing, cannot be read or names nothing that exists makes no difference
to any game.

This is for additions that can be decoded. A game that is not given by an integer, or a verdict that
is neither missing nor a text, is not skipped but ends the query. Then the refresh fails, and no
game is reported anew.
-/

namespace GameBridge

namespace Database

/-! ## Decoding -/

namespace CaveRecord

/-- What a cell of the wrong kind is refused with: the game has to be an integer, the verdict a
text, and only the verdict may be missing. Of two such cells the first counts. -/
def firstWrong (cave : CaveRecord) : Option QueryFault :=
  if cave.gameId.kind ≠ .integer then some (.wrongKind cave.gameId.kind 0 "game_id")
  else if cave.verdict.kind ∉ [.null, .text] then some (.wrongKind cave.verdict.kind 1 "verdict")
  else none

/-- Whether an installation is one of a game with an executable that exists. -/
def installs (isFile : FileCheck) (id : String) (cave : CaveRecord) : Bool :=
  match cave.gameId, cave.verdict with
  | .integer n, .text verdict =>
    Decimal.ofInt64 n == id && ((Verdict.read? verdict).bind Verdict.executable?).any isFile
  | _, _ => false

theorem gameId_of_installs {isFile : FileCheck} {id : String} {cave : CaveRecord}
    (h : cave.installs isFile id = true) :
    ∃ n, cave.gameId = .integer n ∧ Decimal.ofInt64 n = id := by
  rw [installs] at h
  split at h
  · rename_i n verdict hgame hverdict
    rw [Bool.and_eq_true, beq_iff_eq] at h
    exact ⟨n, hgame, h.1⟩
  · exact absurd h Bool.false_ne_true

end CaveRecord

theorem integer_cases (place : Place) (cell : Cell) :
    (cell.kind ≠ .integer ∧ integer place cell = place.refuse cell) ∨
      (cell.kind = .integer ∧ ∃ n, integer place cell = .ok n ∧ cell = .integer n) := by
  cases cell with
  | integer n => exact Or.inr ⟨rfl, n, rfl, rfl⟩
  | _ => exact Or.inl ⟨by simp [Cell.kind], rfl⟩

theorem installs_mk (isFile : FileCheck) (id : String) (n : Int64) (verdict : Option String) :
    InstallationRow.installs isFile id ⟨n, verdict⟩
      = (Decimal.ofInt64 n == id
        && ((verdict.bind Verdict.read?).bind Verdict.executable?).any isFile) := by
  rw [InstallationRow.installs, resolveRow]
  rcases verdict with - | text
  · rw [Option.bind_none, Option.bind_none, Option.any_none, Bool.and_false]
  simp only [Option.bind_some, executableOf]
  rcases Verdict.read? text with - | verdict
  · rw [Option.bind_none, Option.any_none, Bool.and_false]
  rw [Option.bind_some]
  dsimp only
  rcases verdict.executable? with - | executable
  · rw [Option.any_none, Bool.and_false]
  rw [Option.any_some]
  cases hfile : isFile executable with
  | false => simp [hfile]
  | true => simp [hfile]

/-- The columns are looked at one after the other. -/
theorem decodeCave_cases (cave : CaveRecord) :
    (∃ fault, cave.firstWrong = some fault ∧ decodeCave cave = .error fault) ∨
      (cave.firstWrong = none ∧ ∃ row, decodeCave cave = .ok row
        ∧ ∀ isFile id, row.installs isFile id = cave.installs isFile id) := by
  rw [CaveRecord.firstWrong, decodeCave]
  obtain ⟨hkind, hrefuse⟩ | ⟨hkind, n, hgame, hcell⟩ := integer_cases ⟨0, "game_id"⟩ cave.gameId
  · rw [if_pos hkind, hrefuse]
    exact Or.inl ⟨_, rfl, rfl⟩
  rw [if_neg (not_not.mpr hkind), hgame]
  obtain ⟨hkind, hrefuse⟩ | ⟨hkind, verdict, hverdict, hcell'⟩ :=
    text?_cases ⟨1, "verdict"⟩ cave.verdict
  · rw [if_pos hkind, hrefuse]
    exact Or.inl ⟨_, rfl, rfl⟩
  rw [if_neg (not_not.mpr hkind), hverdict]
  refine Or.inr ⟨rfl, ⟨n, verdict⟩, rfl, fun isFile id ↦ ?_⟩
  rw [installs_mk, CaveRecord.installs, hcell, hcell']
  rcases verdict with - | text
  · exact Bool.and_false _
  · rfl

theorem isOk_decodeCave_iff {cave : CaveRecord} :
    (∃ row, decodeCave cave = .ok row) ↔ cave.firstWrong = none := by
  obtain ⟨fault, hwrong, hfault⟩ | ⟨hright, row, hrow, -⟩ := decodeCave_cases cave
  · rw [hwrong, hfault]
    simp
  · exact iff_of_true ⟨row, hrow⟩ hright

/-! ## The query -/

section Query

variable (tables : Tables) (caves : List CaveRecord)

theorem installations_cases :
    (∃ rows, installations { tables with caves := some caves } = .ok rows
        ∧ List.Forall₂ (fun cave row ↦ decodeCave cave = .ok row)
          (caves.mergeSort fun a b ↦ a.gameId.atMost b.gameId) rows) ∨
      ∃ cave ∈ caves, ∃ fault, cave.firstWrong = some fault
        ∧ installations { tables with caves := some caves }
          = .error (.queryFailed "decode caves row" fault) := by
  have hquery : installations { tables with caves := some caves }
      = ((caves.mergeSort fun a b ↦ a.gameId.atMost b.gameId).mapM decodeCave).mapError
        (.queryFailed "decode caves row") := rfl
  rw [hquery]
  obtain ⟨rows, hrows, hdecoded⟩ | ⟨before, cave, after, fault, hsplit, -, hfault, hrows⟩ :=
    mapM_cases (f := decodeCave) (caves.mergeSort fun a b ↦ a.gameId.atMost b.gameId)
  · rw [hrows]
    exact Or.inl ⟨rows, rfl, hdecoded⟩
  · rw [hrows]
    have hmem : cave ∈ caves.mergeSort fun a b ↦ a.gameId.atMost b.gameId := by
      rw [hsplit]
      exact List.mem_append_right _ List.mem_cons_self
    obtain ⟨fault', hwrong, hfault'⟩ | ⟨-, row, hrow, -⟩ := decodeCave_cases cave
    · obtain rfl := Except.error.inj (hfault'.symm.trans hfault)
      exact Or.inr ⟨cave, List.mem_mergeSort.mp hmem, fault', hwrong, rfl⟩
    · exact absurd (hrow.symm.trans hfault) (by simp)

variable {tables caves}

theorem installations_of_right (tables : Tables) (h : ∀ cave ∈ caves, cave.firstWrong = none) :
    ∃ rows, installations { tables with caves := some caves } = .ok rows
      ∧ List.Forall₂ (fun cave row ↦ decodeCave cave = .ok row)
        (caves.mergeSort fun a b ↦ a.gameId.atMost b.gameId) rows := by
  obtain hrows | ⟨cave, hmem, fault, hwrong, -⟩ := installations_cases tables caves
  · exact hrows
  · exact absurd ((h cave hmem).symm.trans hwrong) (by simp)

theorem right_of_installations {rows : List InstallationRow}
    (h : installations { tables with caves := some caves } = .ok rows) :
    ∀ cave ∈ caves, cave.firstWrong = none := by
  obtain ⟨rows', -, hdecoded⟩ | ⟨-, -, fault, -, hfault⟩ := installations_cases tables caves
  · have hright := (List.forall₂_and_left _ _).mp
      (hdecoded.imp fun cave row hrow ↦ And.intro (isOk_decodeCave_iff.mp ⟨row, hrow⟩) hrow)
    exact fun cave hmem ↦ hright.1 cave (List.mem_mergeSort.mpr hmem)
  · exact absurd (h.symm.trans hfault) (by simp)

theorem filter_installations {rows : List InstallationRow}
    (h : installations { tables with caves := some caves } = .ok rows) (isFile : FileCheck)
    (id : String) :
    List.Forall₂ (fun cave row ↦ decodeCave cave = .ok row)
      (caves.filter (CaveRecord.installs isFile id))
      (rows.filter (InstallationRow.installs isFile id)) := by
  obtain ⟨rows', hrows, hdecoded⟩ := installations_of_right tables (right_of_installations h)
  obtain rfl := Except.ok.inj (hrows.symm.trans h)
  have hfilter := List.rel_filter (p := CaveRecord.installs isFile id)
    (q := InstallationRow.installs isFile id) (fun cave row hrow ↦ ?_) hdecoded
  · rwa [filter_mergeSort (fun a b c ↦ Cell.atMost_trans a.gameId b.gameId c.gameId)
      (fun a b ↦ Cell.atMost_total a.gameId b.gameId) fun a _ b _ ha hb ↦ ?_] at hfilter
    -- all of them are of one game
    obtain ⟨n, hn, hid⟩ := CaveRecord.gameId_of_installs ha
    obtain ⟨m, hm, hid'⟩ := CaveRecord.gameId_of_installs hb
    rw [hn, hm, Decimal.ofInt64_injective (hid.trans hid'.symm)]
    exact Cell.atMost_iff.mpr (Or.inr ⟨rfl, Or.inr ⟨rfl, List.le_refl _⟩⟩)
  · obtain ⟨fault, -, hfault⟩ | ⟨-, row', hrow', hinstalls⟩ := decodeCave_cases cave
    · exact absurd (hfault.symm.trans hrow) (by simp)
    · obtain rfl := Except.ok.inj (hrow'.symm.trans hrow)
      exact Bool.eq_iff_iff.mp (hinstalls isFile id).symm

/-- **Where a game is installed.** Two tables that have the same installations of a game, in the
same order, put it at the same place. -/
theorem get?_resolve_congr {caves' : List CaveRecord} {rows rows' : List InstallationRow}
    (h : installations { tables with caves := some caves } = .ok rows)
    (h' : installations { tables with caves := some caves' } = .ok rows') {isFile : FileCheck}
    {id : String} (hsame : caves.filter (CaveRecord.installs isFile id)
      = caves'.filter (CaveRecord.installs isFile id)) :
    (resolve rows isFile).get? id = (resolve rows' isFile).get? id := by
  have hrows := filter_installations h isFile id
  have hrows' := filter_installations h' isFile id
  rw [← hsame] at hrows'
  have hunique : Relator.RightUnique fun cave row ↦ decodeCave cave = .ok row := by
    intro cave row row' hrow hrow'
    exact Except.ok.inj (hrow.symm.trans hrow')
  rw [← get?_resolve_filter, ← get?_resolve_filter rows',
    List.right_unique_forall₂' hunique hrows hrows']

end Query

end Database

/-! ## The refresh -/

/-- Fresh entries put a game at the same place if they have the same entry for it. -/
theorem Staleness.get?_merge_congr {α : Type} {policy : Staleness} {entries fresh other : Index α}
    {id : String} (h : fresh.get? id = other.get? id) :
    (policy.merge entries fresh).get? id = (policy.merge entries other).get? id := by
  cases policy with
  | prune => exact h
  | sticky =>
    rw [merge, merge, Index.get?_insertAll, Index.get?_insertAll, Index.ofList_entries,
      Index.ofList_entries, h]

namespace Engine

open Database

/-- The engine with a database that has the given installations. -/
def withCaves (engine : Engine) (path : Path) (tables : Tables) (caves : List CaveRecord) :
    Engine :=
  { engine with
    world.source := .ofDatabase ⟨path, .tables { tables with caves := some caves }⟩ }

section Caves

variable (engine : Engine) (path : Path) {tables : Tables} {caves : List CaveRecord}

theorem refreshInstalled_of_rows {rows : List InstallationRow}
    (h : installations { tables with caves := some caves } = .ok rows) :
    (engine.withCaves path tables caves).refreshInstalled.1
        = .ok (resolve rows engine.world.isFile).size
      ∧ (engine.withCaves path tables caves).refreshInstalled.2.installed.entries
        = engine.settings.staleness.merge engine.installed.entries
          (resolve rows engine.world.isFile) := by
  have hanswer : (engine.withCaves path tables caves).world.noteInstallations.source.answer
      (engine.withCaves path tables caves).world.noteInstallations.source.installations
        = .ok rows := congrArg (Except.mapError Fault.failed) h
  rw [refreshInstalled]
  dsimp only
  rw [hanswer]
  exact ⟨rfl, Cache.entries_apply ..⟩

theorem refreshInstalled_of_failure {failure : Failure}
    (h : installations { tables with caves := some caves } = .error failure) :
    (engine.withCaves path tables caves).refreshInstalled.1 = .error (.failed failure)
      ∧ (engine.withCaves path tables caves).refreshInstalled.2.installed = engine.installed := by
  have hanswer : (engine.withCaves path tables caves).world.noteInstallations.source.answer
      (engine.withCaves path tables caves).world.noteInstallations.source.installations
        = .error (.failed failure) := congrArg (Except.mapError Fault.failed) h
  rw [refreshInstalled]
  dsimp only
  rw [hanswer]
  exact ⟨rfl, rfl⟩

variable {engine path}

theorem right_of_refreshInstalled {count : Nat}
    (h : (engine.withCaves path tables caves).refreshInstalled.1 = .ok count) :
    ∃ rows, installations { tables with caves := some caves } = .ok rows := by
  cases hrows : installations { tables with caves := some caves } with
  | ok rows => exact ⟨rows, rfl⟩
  | error failure =>
    rw [(refreshInstalled_of_failure engine path hrows).1] at h
    exact absurd h (by simp)

end Caves

/-- **One more installation.** Where a refresh succeeds, one installation is added anywhere in the
table. If it can be decoded, the refresh still succeeds, and every game that the addition does not
install stays as it was. If it cannot, the refresh fails and the cache is left alone. -/
theorem refreshInstalled_insert {engine : Engine} {path : Path} {tables : Tables}
    (before after : List CaveRecord) {count : Nat}
    (h : (engine.withCaves path tables (before ++ after)).refreshInstalled.1 = .ok count)
    (cave : CaveRecord) :
    let old := (engine.withCaves path tables (before ++ after)).refreshInstalled
    let new := (engine.withCaves path tables (before ++ cave :: after)).refreshInstalled
    (cave.firstWrong = none → (∃ count, new.1 = .ok count)
        ∧ ∀ id, cave.installs engine.world.isFile id = false →
          new.2.installed.entries.get? id = old.2.installed.entries.get? id)
      ∧ ∀ fault, cave.firstWrong = some fault →
          new.1 = .error (.failed (.queryFailed "decode caves row" fault))
            ∧ new.2.installed = engine.installed := by
  intro old new
  obtain ⟨rows, hrows⟩ := right_of_refreshInstalled h
  have hold := right_of_installations hrows
  have hothers : ∀ other ∈ before ++ cave :: after, other = cave ∨ other.firstWrong = none := by
    intro other hmem
    rcases List.mem_append.mp hmem with hbefore | hafter
    · exact Or.inr (hold other (List.mem_append_left _ hbefore))
    · rcases List.mem_cons.mp hafter with rfl | hafter
      · exact Or.inl rfl
      · exact Or.inr (hold other (List.mem_append_right _ hafter))
  constructor
  · intro hright
    obtain ⟨rows', hrows', -⟩ := installations_of_right tables
      fun other hmem ↦ (hothers other hmem).elim (fun heq ↦ heq ▸ hright) id
    refine ⟨⟨_, (refreshInstalled_of_rows engine path hrows').1⟩, fun id hother ↦ ?_⟩
    -- the added row is not among the installations of such a game
    have hsame : (before ++ cave :: after).filter (CaveRecord.installs engine.world.isFile id)
        = (before ++ after).filter (CaveRecord.installs engine.world.isFile id) := by
      rw [List.filter_append, List.filter_append, List.filter_cons_of_neg (by simp [hother])]
    rw [(refreshInstalled_of_rows engine path hrows').2,
      (refreshInstalled_of_rows engine path hrows).2]
    exact Staleness.get?_merge_congr (get?_resolve_congr hrows' hrows hsame)
  · intro fault hwrong
    obtain ⟨rows', hrows', -⟩ | ⟨other, hmem, fault', hwrong', hfault⟩ :=
      installations_cases tables (before ++ cave :: after)
    · have hright := right_of_installations hrows' cave (by simp)
      exact absurd (hright.symm.trans hwrong) (by simp)
    · -- the rows that were there before can all be decoded, so it is the added one that cannot
      rcases hothers other hmem with rfl | hright
      · obtain rfl := Option.some.inj (hwrong'.symm.trans hwrong)
        exact refreshInstalled_of_failure engine path hfault
      · exact absurd (hright.symm.trans hwrong') (by simp)

/-- A new engine for which every path refers to a file. -/
def amongFiles : Engine :=
  start .default (.ofEntries .empty)
    ⟨0, .ofRows [] [] none, fun _ ↦ true, ⟨0, none, none⟩, .emptyFolder, .blank⟩

/-- An installation of the game 7. -/
def caveOfSeven : CaveRecord :=
  ⟨.text "a", .integer 7,
    .text "\x7b\"basePath\":\"/g\",\"candidates\":[\x7b\"path\":\"x\"\x7d]\x7d"⟩

theorem refreshInstalled_caveOfSeven :
    (amongFiles.withCaves "butler.db" .none [caveOfSeven]).refreshInstalled.1 = .ok 1
      ∧ (amongFiles.withCaves "butler.db" .none
          [caveOfSeven]).refreshInstalled.2.installed.entries.get? "7" = some ⟨"7", "/g/x"⟩ := by
  have hrows : installations { Tables.none with caves := some [caveOfSeven] }
      = .ok [⟨7, some "\x7b\"basePath\":\"/g\",\"candidates\":[\x7b\"path\":\"x\"\x7d]\x7d"⟩] := by
    rw [installations, rowsOf]
    dsimp only
    rw [List.mergeSort_singleton]
    rfl
  obtain ⟨hcount, hentries⟩ := refreshInstalled_of_rows amongFiles "butler.db" hrows
  rw [hcount, hentries]
  decide +kernel

/-- A verdict that cannot be read is added, and the game 7 stays where it is. -/
theorem refreshInstalled_insert_unreadable :
    let added : CaveRecord := ⟨.text "b", .integer 8, .text "\x7b"⟩
    let new := (amongFiles.withCaves "butler.db" .none [caveOfSeven, added]).refreshInstalled
    (∃ count, new.1 = .ok count) ∧ new.2.installed.entries.get? "7" = some ⟨"7", "/g/x"⟩ := by
  intro added new
  obtain ⟨hcount, hentry⟩ := refreshInstalled_caveOfSeven
  obtain ⟨hright, -⟩ := refreshInstalled_insert [caveOfSeven] [] hcount added
  obtain ⟨hsucceeds, hsame⟩ := hright rfl
  exact ⟨hsucceeds, (hsame "7" rfl).trans hentry⟩

/-- A verdict that is a sequence of bytes is added, and the game 7 is no longer found. -/
theorem refreshInstalled_insert_blob :
    let added : CaveRecord := ⟨.text "b", .integer 8, .blob [0x7B, 0x7D]⟩
    let old := (amongFiles.withCaves "butler.db" .none [caveOfSeven]).refreshInstalled
    let new := (amongFiles.withCaves "butler.db" .none [caveOfSeven, added]).refreshInstalled
    old.1 = .ok 1 ∧ old.2.installed.entries.get? "7" = some ⟨"7", "/g/x"⟩
      ∧ new.1 = .error (.failed (.queryFailed "decode caves row" (.wrongKind .blob 1 "verdict")))
      ∧ new.2.installed.entries.get? "7" = none := by
  intro added old new
  obtain ⟨hcount, hentry⟩ := refreshInstalled_caveOfSeven
  obtain ⟨rows, hrows, -⟩ | ⟨cave, hmem, fault, hwrong, hfault⟩ :=
    installations_cases .none [caveOfSeven, added]
  · have hright := right_of_installations hrows added (by simp)
    exact absurd hright (by decide)
  · rcases List.mem_cons.mp hmem with rfl | hmem
    · exact absurd hwrong (by simp [CaveRecord.firstWrong, caveOfSeven, Cell.kind])
    obtain rfl : cave = added := List.mem_singleton.mp hmem
    obtain rfl := Option.some.inj hwrong
    obtain ⟨hnew, hcache⟩ := refreshInstalled_of_failure amongFiles "butler.db" hfault
    exact ⟨hcount, hentry, hnew, by rw [hcache]; rfl⟩

end Engine

end GameBridge
