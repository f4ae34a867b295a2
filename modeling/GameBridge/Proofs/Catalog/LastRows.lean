import GameBridge.Proofs.Catalog.Merging
import Mathlib.Logic.Basic

/-!
# The last good row of a game

A catalog is made from rows in which a game may come up any number of times, with rows among them
that nothing can be made of. Every row files its own entry or nothing at all, under the decimal text
of the number of its game, and no two numbers have one text. So the entry of a game is that of the
last of its rows that yields one: what comes between, before or after is of no account, and neither
is the order of rows of different games.

Which rows yield an entry is said for both kinds of rows without the functions that make the entries
(`OwnershipRow.Yields`, `InstallationRow.Yields`). The rest is the same for both and is proved once,
of whatever files rows by their numbers (`FilesByNumber.keepsLast`).
-/

namespace GameBridge

namespace Index

variable {α ρ : Type} {file : Index α → ρ → Index α} {entryOf : ρ → Option (String × α)}

/-- The value that a row files under a key. -/
def filedAt (entryOf : ρ → Option (String × α)) (key : String) (row : ρ) : Option α :=
  (entryOf row).bind fun entry ↦ if key = entry.1 then some entry.2 else none

theorem filedAt_eq_some_iff {key : String} {row : ρ} {value : α} :
    filedAt entryOf key row = some value ↔ entryOf row = some (key, value) := by
  rw [filedAt]
  rcases entryOf row with _ | ⟨k, v⟩
  · simp
  · by_cases hkey : key = k
    · simp [hkey]
    · simp [hkey, Ne.symm hkey]

/-- What is filed under a key is found from the last row on. -/
theorem get?_foldl_eq_findSome?
    (h : ∀ index row, file index row = index.insertAll (entryOf row).toList) (rows : List ρ)
    (key : String) :
    (rows.foldl file empty).get? key = rows.reverse.findSome? (filedAt entryOf key) := by
  rw [← List.foldr_reverse]
  induction rows.reverse with
  | nil => rfl
  | cons row rest ih =>
    rw [List.foldr_cons, h, get?_insertAll, ih, List.findSome?_cons, filedAt]
    rcases entryOf row with _ | entry
    · rfl
    · by_cases hkey : key = entry.1
      · simp [ofList, hkey]
      · simp [ofList, hkey]

/-- A row counts if no later row files anything under its key. -/
theorem get?_foldl_eq_some_iff
    (h : ∀ index row, file index row = index.insertAll (entryOf row).toList) {rows : List ρ}
    {key : String} {value : α} :
    (rows.foldl file empty).get? key = some value ↔ ∃ before row after,
      rows = before ++ row :: after ∧ entryOf row = some (key, value)
        ∧ ∀ other ∈ after, ∀ v, entryOf other ≠ some (key, v) := by
  have hfree (other : ρ) : filedAt entryOf key other = none
      ↔ ∀ v, entryOf other ≠ some (key, v) := by
    rw [Option.eq_none_iff_forall_ne_some]
    exact forall_congr' fun v ↦ not_congr filedAt_eq_some_iff
  rw [get?_foldl_eq_findSome? h, List.findSome?_eq_some_iff]
  constructor
  · rintro ⟨later, row, earlier, hsplit, hrow, hlater⟩
    refine ⟨earlier.reverse, row, later.reverse, ?_, filedAt_eq_some_iff.mp hrow,
      fun other hother ↦ (hfree other).mp (hlater other (List.mem_reverse.mp hother))⟩
    rw [← List.reverse_reverse rows, hsplit]
    simp
  · rintro ⟨before, row, after, rfl, hrow, hafter⟩
    refine ⟨after.reverse, row, before.reverse, by simp, filedAt_eq_some_iff.mpr hrow,
      fun other hother ↦ (hfree other).mpr (hafter other (List.mem_reverse.mp hother))⟩

/-- A row that files nothing might as well not be there. -/
theorem foldl_of_entryOf_eq_none
    (h : ∀ index row, file index row = index.insertAll (entryOf row).toList) {row : ρ}
    (hrow : entryOf row = none) (before after : List ρ) (index : Index α) :
    (before ++ row :: after).foldl file index = (before ++ after).foldl file index := by
  rw [List.foldl_append, List.foldl_append, List.foldl_cons, h _ row, hrow]
  rfl

end Index

/-! ## Catalogs by number -/

/-- The entries that rows make up, where `number` is the number of the game of a row and `yields` is
what entry a row has, if it has one. -/
structure KeepsLast {ρ α : Type} (number : ρ → Int64) (yields : ρ → α → Prop)
    (collect : List ρ → Index α) : Prop where
  /-- A game has an entry just if one of its rows yields one. -/
  listed (rows : List ρ) (n : Int64) :
    ((collect rows).get? (Decimal.ofInt64 n)).isSome = true
      ↔ ∃ row ∈ rows, number row = n ∧ ∃ entry, yields row entry
  /-- The entry of a game is that of the last of its rows that yields one. -/
  last (rows : List ρ) (n : Int64) (entry : α) :
    (collect rows).get? (Decimal.ofInt64 n) = some entry
      ↔ ∃ before row after, rows = before ++ row :: after ∧ number row = n ∧ yields row entry
        ∧ ∀ other ∈ after, number other = n → ∀ e, ¬yields other e
  /-- Nothing else has an entry. -/
  only (rows : List ρ) (key : String) (entry : α) :
    (collect rows).get? key = some entry → ∃ row ∈ rows, key = Decimal.ofInt64 (number row)
  /-- A row that yields no entry makes no difference, wherever it is. -/
  skipped (before after : List ρ) (row : ρ) :
    (∀ entry, ¬yields row entry) → collect (before ++ row :: after) = collect (before ++ after)
  /-- The rows of different games may come in any order. -/
  reordered (rows other : List ρ) :
    (∀ n, rows.filter (fun row ↦ number row = n) = other.filter fun row ↦ number row = n) →
      collect rows = collect other

/-- Every row files its entry, if it yields one, under the text of its number. -/
structure FilesByNumber {ρ α : Type} (number : ρ → Int64) (yields : ρ → α → Prop)
    (file : Index α → ρ → Index α) (entryOf : ρ → Option (String × α)) : Prop where
  files (index : Index α) (row : ρ) : file index row = index.insertAll (entryOf row).toList
  entry (row : ρ) (key : String) (value : α) :
    entryOf row = some (key, value) ↔ key = Decimal.ofInt64 (number row) ∧ yields row value

namespace FilesByNumber

variable {ρ α : Type} {number : ρ → Int64} {yields : ρ → α → Prop} {file : Index α → ρ → Index α}
  {entryOf : ρ → Option (String × α)}

theorem entry_ofInt64 (h : FilesByNumber number yields file entryOf) (row : ρ) (n : Int64)
    (value : α) :
    entryOf row = some (Decimal.ofInt64 n, value) ↔ number row = n ∧ yields row value := by
  rw [h.entry]
  refine and_congr_left fun _ ↦ ⟨fun hkey ↦ (Decimal.ofInt64_injective hkey).symm, ?_⟩
  rintro rfl
  rfl

theorem listed (h : FilesByNumber number yields file entryOf) (rows : List ρ) (n : Int64) :
    ((rows.foldl file .empty).get? (Decimal.ofInt64 n)).isSome = true
      ↔ ∃ row ∈ rows, number row = n ∧ ∃ entry, yields row entry := by
  rw [Index.get?_foldl_eq_findSome? h.files, List.findSome?_isSome_iff]
  simp only [List.mem_reverse, Option.isSome_iff_exists, Index.filedAt_eq_some_iff,
    h.entry_ofInt64, exists_and_left]

theorem last (h : FilesByNumber number yields file entryOf) (rows : List ρ) (n : Int64)
    (entry : α) :
    (rows.foldl file .empty).get? (Decimal.ofInt64 n) = some entry
      ↔ ∃ before row after, rows = before ++ row :: after ∧ number row = n ∧ yields row entry
        ∧ ∀ other ∈ after, number other = n → ∀ e, ¬yields other e := by
  rw [Index.get?_foldl_eq_some_iff h.files]
  simp only [ne_eq, h.entry_ofInt64, not_and, and_assoc, imp_forall_iff]

theorem only (h : FilesByNumber number yields file entryOf) {rows : List ρ} {key : String}
    {entry : α} (hfound : (rows.foldl file .empty).get? key = some entry) :
    ∃ row ∈ rows, key = Decimal.ofInt64 (number row) := by
  obtain ⟨before, row, after, rfl, hrow, -⟩ := (Index.get?_foldl_eq_some_iff h.files).mp hfound
  exact ⟨row, by simp, ((h.entry row key entry).mp hrow).1⟩

theorem skipped (h : FilesByNumber number yields file entryOf) {row : ρ}
    (hrow : ∀ entry, ¬yields row entry) (before after : List ρ) :
    (before ++ row :: after).foldl file .empty = (before ++ after).foldl file .empty := by
  refine Index.foldl_of_entryOf_eq_none h.files ?_ before after .empty
  rw [Option.eq_none_iff_forall_ne_some]
  rintro ⟨key, value⟩ hsome
  exact hrow value ((h.entry row key value).mp hsome).2

/-- The entry under a number depends on the rows with this number only. -/
theorem get?_filter (h : FilesByNumber number yields file entryOf) (rows : List ρ) (n : Int64) :
    ((rows.filter fun row ↦ number row = n).foldl file .empty).get? (Decimal.ofInt64 n)
      = (rows.foldl file .empty).get? (Decimal.ofInt64 n) := by
  refine Index.get?_foldl_filter h.files (fun row entry hrow ↦ ?_) rfl rows
  obtain ⟨key, value⟩ := entry
  rw [((h.entry row key value).mp hrow).1, Bool.eq_iff_iff, decide_eq_true_iff, beq_iff_eq]
  exact ⟨congrArg Decimal.ofInt64, Decimal.ofInt64_injective⟩

theorem reordered (h : FilesByNumber number yields file entryOf) {rows other : List ρ}
    (hfilters : ∀ n, rows.filter (fun row ↦ number row = n)
      = other.filter fun row ↦ number row = n) :
    rows.foldl file .empty = other.foldl file .empty := by
  refine Index.ext fun key ↦ ?_
  -- a key that is no number has no entry in either catalog
  by_cases hkey : ∃ n, key = Decimal.ofInt64 n
  · obtain ⟨n, rfl⟩ := hkey
    rw [← h.get?_filter rows, hfilters, h.get?_filter other]
  · have hnone (rows : List ρ) : (rows.foldl file .empty).get? key = none := by
      refine Option.eq_none_iff_forall_ne_some.mpr fun entry hfound ↦ ?_
      obtain ⟨row, -, hrow⟩ := h.only hfound
      exact hkey ⟨number row, hrow⟩
    rw [hnone, hnone]

/-- Filing rows under their numbers keeps the last good ones. -/
theorem keepsLast (h : FilesByNumber number yields file entryOf) :
    KeepsLast number yields fun rows ↦ rows.foldl file .empty where
  listed := h.listed
  last := h.last
  only _ _ _ := h.only
  skipped before after _ hrow := h.skipped hrow before after
  reordered _ _ := h.reordered

end FilesByNumber

/-! ## Both kinds of rows -/

/-- A row of an owned game yields an entry if it has a title that is not blank. The game is bought
once just if it is on sale and has a price. -/
def OwnershipRow.Yields (row : OwnershipRow) (entry : CatalogEntry) : Prop :=
  ∃ title ∈ row.title, Text.trim title ≠ "" ∧ entry.id = Decimal.ofInt64 row.id
    ∧ entry.title = Text.trim title
    ∧ (entry.license = .singlePurchase ↔ row.canBeBought = true ∧ 0 < row.minPrice)

/-- A row of an installed game yields an entry if its verdict can be read and the first executable
of it exists. -/
def InstallationRow.Yields (isFile : FileCheck) (row : InstallationRow) (entry : InstalledEntry) :
    Prop :=
  ∃ text ∈ row.verdict, ∃ verdict ∈ Verdict.read? text, ∃ first ∈ verdict.candidates.head?,
    isFile (verdict.basePath.join first) = true
      ∧ entry = ⟨Decimal.ofInt64 row.gameId, verdict.basePath.join first⟩

theorem License.eq_ofPrice_iff {license : License} {canBeBought : Bool} {minPrice : Int64} :
    license = ofPrice canBeBought minPrice
      ↔ (license = singlePurchase ↔ canBeBought = true ∧ 0 < minPrice) := by
  rw [ofPrice]
  split_ifs with hprice
  · simp [hprice]
  · rcases license with _ | _ <;> simp [hprice]

theorem CatalogEntry.ofRow_eq_ok_iff {row : OwnershipRow} {entry : CatalogEntry} :
    ofRow row = .ok entry ↔ row.Yields entry := by
  rw [ofRow]
  constructor
  · intro h
    split at h
    · exact absurd h (by simp)
    · rename_i trimmed htrimmed
      obtain ⟨title, htitle, rfl⟩ := Option.map_eq_some_iff.mp htrimmed
      split_ifs at h with hblank
      obtain rfl := Except.ok.inj h
      exact ⟨title, htitle, hblank, rfl, rfl, License.eq_ofPrice_iff.mp rfl⟩
  · rintro ⟨title, htitle, hblank, hid, htrimmed, hlicense⟩
    rw [Option.mem_def.mp htitle, Option.map_some]
    dsimp only
    rw [if_neg hblank, ← hid, ← htrimmed, ← License.eq_ofPrice_iff.mpr hlicense]

theorem executableOf_eq_ok_some_iff {gameId : Int64} {text : String} {executable : Path} :
    executableOf gameId text = .ok (some executable) ↔ ∃ verdict ∈ Verdict.read? text,
      ∃ first ∈ verdict.candidates.head?, verdict.basePath.join first = executable := by
  rw [executableOf]
  rcases Verdict.read? text with _ | verdict
  · simp
  · simp [Verdict.executable?]

theorem resolveRow_eq_ok_some_iff {isFile : FileCheck} {row : InstallationRow}
    {entry : InstalledEntry} :
    resolveRow row isFile = .ok (some entry) ↔ row.Yields isFile entry := by
  rw [resolveRow]
  constructor
  · intro h
    split at h
    · exact absurd h (by simp)
    · rename_i text htext
      split at h
      · exact absurd h (by simp)
      · exact absurd h (by simp)
      · rename_i executable hexecutable
        obtain ⟨verdict, hverdict, first, hfirst, rfl⟩ := executableOf_eq_ok_some_iff.mp hexecutable
        split at h
        · rename_i hfile
          obtain rfl := Option.some.inj (Except.ok.inj h)
          exact ⟨text, htext, verdict, hverdict, first, hfirst, hfile, rfl⟩
        · exact absurd h (by simp)
  · rintro ⟨text, htext, verdict, hverdict, first, hfirst, hfile, rfl⟩
    have hexecutable : executableOf row.gameId text = .ok (some (verdict.basePath.join first)) :=
      executableOf_eq_ok_some_iff.mpr ⟨verdict, hverdict, first, hfirst, rfl⟩
    rw [Option.mem_def.mp htext]
    dsimp only
    rw [hexecutable]
    dsimp only
    rw [if_pos hfile]

theorem filesByNumber_fileOwned :
    FilesByNumber OwnershipRow.id OwnershipRow.Yields fileOwned ownedEntryOf where
  files := fileOwned_eq
  entry row key entry := by
    rw [ownedEntryOf, ← CatalogEntry.ofRow_eq_ok_iff]
    rcases hrow : CatalogEntry.ofRow row with failure | found
    · simp [Except.toOption]
    · obtain ⟨-, -, -, hid, -⟩ := CatalogEntry.ofRow_eq_ok_iff.mp hrow
      simp [Except.toOption, hid, eq_comm]

theorem filesByNumber_fileInstalled (isFile : FileCheck) :
    FilesByNumber InstallationRow.gameId (InstallationRow.Yields isFile) (fileInstalled isFile)
      (installedEntryOf isFile) where
  files := fileInstalled_eq isFile
  entry row key entry := by
    rw [installedEntryOf, ← resolveRow_eq_ok_some_iff]
    rcases hrow : resolveRow row isFile with failure | _ | found
    · simp
    · simp
    · obtain ⟨-, -, -, -, -, -, -, rfl⟩ := resolveRow_eq_ok_some_iff.mp hrow
      simp [eq_comm]

/-- **Last good rows.** A game is listed just if one of its rows yields an entry, and its entry is
that of the last such row. There are no other entries, a row that yields none makes no difference,
and neither does the order of rows of different games. That is so for owned games, and for installed
games whatever files there are. -/
theorem classify_resolve_keepLast :
    KeepsLast OwnershipRow.id OwnershipRow.Yields classify
      ∧ ∀ isFile : FileCheck, KeepsLast InstallationRow.gameId (InstallationRow.Yields isFile)
          fun rows ↦ resolve rows isFile :=
  ⟨filesByNumber_fileOwned.keepsLast, fun isFile ↦ (filesByNumber_fileInstalled isFile).keepsLast⟩

/-- A good row between an older one and a blank one, and a row of another game; and a verdict that
can be read before one that cannot. -/
theorem classify_resolve_keepLast_mixed :
    let old : OwnershipRow := ⟨7, some "Old", 0, true⟩
    let other : OwnershipRow := ⟨-3, some "Other", 500, false⟩
    let good : OwnershipRow := ⟨7, some " New ", 500, true⟩
    let blank : OwnershipRow := ⟨7, some " \t", 500, true⟩
    let installed : InstallationRow :=
      ⟨7, some "\x7b\"basePath\":\"/g\",\"candidates\":[\x7b\"path\":\"a\"\x7d]\x7d"⟩
    let malformed : InstallationRow := ⟨7, some "\x7b\"basePath\":"⟩
    (classify [old, other, good, blank]).get? "7" = some ⟨"7", "New", .singlePurchase⟩
      ∧ classify [old, other, good, blank] = classify [other, old, good]
      ∧ (resolve [installed, malformed] (· == "/g/a")).get? "7" = some ⟨"7", "/g/a"⟩ := by
  intro old other good blank installed malformed
  obtain ⟨howned, hinstalled⟩ := classify_resolve_keepLast
  have hblank : ∀ entry, ¬blank.Yields entry := by
    rintro entry ⟨title, htitle, hvisible, -⟩
    obtain rfl := Option.some.inj htitle
    exact hvisible (by decide +kernel)
  have hmalformed : ∀ entry, ¬malformed.Yields (· == "/g/a") entry := by
    rintro entry ⟨text, htext, verdict, hverdict, -⟩
    obtain rfl := Option.some.inj htext
    exact absurd (Option.isSome_of_mem hverdict) (by decide +kernel)
  have hgood : good.Yields ⟨"7", "New", .singlePurchase⟩ :=
    ⟨_, rfl, by decide +kernel, by decide +kernel, by decide +kernel, by decide⟩
  have hread : installed.Yields (· == "/g/a") ⟨"7", "/g/a"⟩ := by
    refine ⟨_, rfl, ⟨"/g", ["a"]⟩, ?_, "a", rfl, ?_, ?_⟩
    · exact Option.mem_def.mpr (by decide +kernel)
    · decide +kernel
    · decide +kernel
  refine ⟨(howned.last _ 7 _).mpr ⟨[old, other], good, [blank], rfl, rfl, hgood, ?_⟩, ?_,
    ((hinstalled _).last _ 7 _).mpr ⟨[], installed, [malformed], rfl, rfl, hread, ?_⟩⟩
  · intro row hrow _
    rw [List.mem_singleton.mp hrow]
    exact hblank
  · calc classify [old, other, good, blank] = classify [old, other, good] :=
        howned.skipped [old, other, good] [] blank hblank
      _ = classify [other, old, good] := howned.reordered _ _ fun n ↦ by
        by_cases hseven : 7 = n
        · subst hseven
          decide
        · simp [List.filter_cons, old, other, good, hseven]
  · intro row hrow _
    rw [List.mem_singleton.mp hrow]
    exact hmalformed

end GameBridge
