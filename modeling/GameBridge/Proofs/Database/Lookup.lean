import GameBridge.Proofs.Database.Installations
import GameBridge.Proofs.Database.Ownership
import GameBridge.Proofs.Text.Integers

/-!
# The list of installations and the look-up of one

If the list of all installations can be read, every game in it is given by an integer. The list then
has a row for every record of the table, in ascending order of the games, and the rows of one game
in the order in which they were inserted (`Ordered`).

The look-up of one game goes through the table as it was inserted and stops at the first record of
the game. As the order of the list is stable, that is also the first row of the game in the list.
Which game is looked up is said by a text, and it is the integer that this text denotes, so the
result can be described without the query (`installation_firstOfList`).
-/

namespace GameBridge

theorem twoTo_pos (n : Nat) : 0 < twoTo n :=
  Nat.two_pow_pos n

namespace Database

/-! ## Records and rows -/

/-- A row says what a record holds. -/
structure CaveRecord.Holds (cave : CaveRecord) (row : InstallationRow) : Prop where
  gameId : cave.gameId = .integer row.gameId
  verdict : cave.verdict = match row.verdict with
    | some text => .text text
    | none => .null

/-- The row of a record. What is not an integer or not a text is left out. -/
def CaveRecord.row (cave : CaveRecord) : InstallationRow where
  gameId := match cave.gameId with
    | .integer n => n
    | _ => 0
  verdict := match cave.verdict with
    | .text text => some text
    | _ => none

theorem CaveRecord.Holds.row_eq {cave : CaveRecord} {row : InstallationRow} (h : cave.Holds row) :
    cave.row = row := by
  obtain ⟨n, verdict⟩ := row
  rw [CaveRecord.row, h.gameId, h.verdict]
  cases verdict <;> rfl

theorem integer_eq_ok_iff {place : Place} {cell : Cell} {n : Int64} :
    integer place cell = .ok n ↔ cell = .integer n := by
  cases cell <;> simp [integer, Place.refuse]

theorem text?_eq_ok_iff {place : Place} {cell : Cell} {content : Option String} :
    text? place cell = .ok content ↔ cell = match content with
      | some text => .text text
      | none => .null := by
  cases cell <;> cases content <;> simp [text?, Place.refuse]

theorem decodeCave_eq_ok_iff {cave : CaveRecord} {row : InstallationRow} :
    decodeCave cave = .ok row ↔ cave.Holds row := by
  obtain ⟨n, content⟩ := row
  rw [decodeCave]
  constructor
  · intro h
    cases hgame : integer ⟨0, "game_id"⟩ cave.gameId with
    | error fault => simp [hgame, bind, Except.bind] at h
    | ok m =>
      cases hverdict : text? ⟨1, "verdict"⟩ cave.verdict with
      | error fault => simp [hgame, hverdict, bind, Except.bind] at h
      | ok text =>
        simp only [hgame, hverdict, bind, Except.bind, pure, Except.pure, Except.ok.injEq,
          InstallationRow.mk.injEq] at h
        obtain ⟨rfl, rfl⟩ := h
        exact ⟨integer_eq_ok_iff.mp hgame, text?_eq_ok_iff.mp hverdict⟩
  · rintro ⟨hgame, hverdict⟩
    rw [integer_eq_ok_iff.mpr hgame, text?_eq_ok_iff.mpr hverdict]
    rfl

/-! ## The order of the list -/

/-- Rows in ascending order of the games, those of one game in the order in which they are
stored. -/
structure Ordered (stored rows : List InstallationRow) : Prop where
  perm : rows.Perm stored
  ascending : rows.Pairwise fun row other ↦ row.gameId ≤ other.gameId
  stable : ∀ n, rows.filter (·.gameId = n) = stored.filter (·.gameId = n)

theorem Cell.atMost_integer_iff {m n : Int64} :
    (Cell.integer m).atMost (.integer n) = true ↔ m ≤ n := by
  have hunit : (0 : Int) < twoTo 1074 := Int.natCast_pos.mpr (twoTo_pos 1074)
  rw [Cell.atMost_iff, Int64.le_iff_toInt_le]
  simp only [Cell.rank, Cell.units, Cell.bytes, Nat.lt_irrefl, false_or, true_and, List.le_refl,
    and_true]
  rw [← Int.le_iff_lt_or_eq]
  exact Int.mul_le_mul_right hunit

theorem ordered_mergeSort {caves : List CaveRecord} (h : ∀ cave ∈ caves, cave.Holds cave.row) :
    Ordered (caves.map CaveRecord.row)
      ((caves.mergeSort fun a b ↦ a.gameId.atMost b.gameId).map CaveRecord.row) where
  perm := (List.mergeSort_perm caves _).map _
  ascending := by
    have hsorted := List.pairwise_mergeSort
      (fun a b c : CaveRecord ↦ Cell.atMost_trans a.gameId b.gameId c.gameId)
      (fun a b ↦ Cell.atMost_total a.gameId b.gameId) caves
    rw [List.pairwise_map]
    refine hsorted.imp_of_mem fun {a b} ha hb hab ↦ ?_
    rw [(h a (List.mem_mergeSort.mp ha)).gameId, (h b (List.mem_mergeSort.mp hb)).gameId] at hab
    exact Cell.atMost_integer_iff.mp hab
  stable n := by
    rw [List.filter_map, List.filter_map]
    refine congrArg _ (filter_mergeSort (fun a b c ↦ Cell.atMost_trans a.gameId b.gameId c.gameId)
      (fun a b ↦ Cell.atMost_total a.gameId b.gameId) fun a ha b hb hna hnb ↦ ?_)
    -- both are records of the game `n`
    rw [(h a ha).gameId, (h b hb).gameId, of_decide_eq_true hna, of_decide_eq_true hnb]
    exact Cell.atMost_integer_iff.mpr (Int64.le_refl n)

theorem installations_of_caves {tables : Tables} {caves : List CaveRecord}
    (h : tables.caves = some caves) : installations tables
      = ((caves.mergeSort fun a b ↦ a.gameId.atMost b.gameId).mapM decodeCave).mapError
        (.queryFailed "decode caves row") := by
  rw [installations, h]
  rfl

/-- **The list.** If the installations can be read, the list of them has the rows of all records,
in order. -/
theorem ordered_of_installations {tables : Tables} {rows : List InstallationRow}
    (h : installations tables = .ok rows) : ∃ caves, tables.caves = some caves
      ∧ (∀ cave ∈ caves, cave.Holds cave.row) ∧ Ordered (caves.map CaveRecord.row) rows := by
  cases hcaves : tables.caves with
  | none => simp [installations, hcaves, rowsOf] at h
  | some caves =>
    rw [installations_of_caves hcaves] at h
    obtain ⟨found, hfound, hdecoded⟩ | ⟨before, cave, after, fault, -, -, -, hfault⟩ :=
      mapM_cases (f := decodeCave) (caves.mergeSort fun a b ↦ a.gameId.atMost b.gameId)
    · rw [hfound] at h
      obtain rfl : found = rows := Except.ok.inj h
      have hholds : List.Forall₂ CaveRecord.Holds
          (caves.mergeSort fun a b ↦ a.gameId.atMost b.gameId) found :=
        hdecoded.imp fun _ _ hrow ↦ decodeCave_eq_ok_iff.mp hrow
      have hrows : (caves.mergeSort fun a b ↦ a.gameId.atMost b.gameId).map CaveRecord.row
          = found := by
        rw [← List.forall₂_eq_eq_eq, List.forall₂_map_left_iff]
        exact hholds.imp fun _ _ hrow ↦ hrow.row_eq
      have hall : ∀ cave ∈ caves, cave.Holds cave.row := by
        intro cave hcave
        have hown : List.Forall₂ (fun cave _ ↦ cave.Holds cave.row)
            (caves.mergeSort fun a b ↦ a.gameId.atMost b.gameId) found :=
          hholds.imp fun _ _ hrow ↦ hrow.row_eq.symm ▸ hrow
        exact (List.forall₂_and_left _ _ |>.mp (hown.imp fun _ _ h ↦ ⟨h, h⟩)).1 cave
          (List.mem_mergeSort.mpr hcave)
      exact ⟨caves, rfl, hall, hrows ▸ ordered_mergeSort hall⟩
    · rw [hfault] at h
      exact absurd h (by simp [Except.mapError])

end Database

open Database

theorem ClientDatabase.tables_of_installations {db : ClientDatabase} {rows : List InstallationRow}
    (h : db.installations = .ok rows) :
    ∃ tables, db.file = .tables tables ∧ Database.installations tables = .ok rows := by
  rw [installations] at h
  cases hfile : db.file with
  | missing => simp [hfile, ask] at h
  | folder => simp [hfile, ask] at h
  | foreign => simp [hfile, ask] at h
  | tables tables =>
    rw [hfile] at h
    exact ⟨tables, rfl, h⟩

/-- The look-up of a text finds the first row of the number that is read from it. -/
theorem ClientDatabase.installation_eq_find? {db : ClientDatabase} {rows : List InstallationRow}
    (h : db.installations = .ok rows) (s : String) : db.installation s
      = .ok (rows.find? fun row ↦ Decimal.readInt64? s = some row.gameId) := by
  obtain ⟨tables, hfile, hlist⟩ := tables_of_installations h
  rw [installation, hfile]
  cases hread : Decimal.readInt64? s with
  | none =>
    have hnone : (rows.find? fun row ↦ (none : Option Int64) = some row.gameId) = none :=
      List.find?_eq_none.mpr fun row _ ↦ by simp
    rw [hnone]
  | some n =>
    have hsame : (fun row : InstallationRow ↦ decide (some n = some row.gameId))
        = fun row ↦ row.gameId == n := by
      funext row
      rw [Bool.eq_iff_iff, decide_eq_true_eq, Option.some.injEq, beq_iff_eq, eq_comm]
    rw [hsame]
    exact installation_of_installations hlist n

/-- **The first of the list.** If the installations can be read, they are the rows of all records,
in ascending order of the games and for each game in the order of insertion. Every look-up then
succeeds. It finds the first row of the game whose number the text denotes, and nothing if the text
denotes no number or there is no such row. -/
theorem ClientDatabase.installation_firstOfList {db : ClientDatabase}
    {rows : List InstallationRow} (h : db.installations = .ok rows) :
    (∃ tables caves, db.file = .tables tables ∧ tables.caves = some caves
      ∧ (∀ cave ∈ caves, cave.Holds cave.row) ∧ Ordered (caves.map CaveRecord.row) rows)
    ∧ ∀ s : String, ∃ found, db.installation s = .ok found
      ∧ (∀ row, found = some row ↔ ∃ before after, rows = before ++ row :: after
          ∧ Decimal.Denotes s.toList row.gameId.toInt
          ∧ ∀ other ∈ before, ¬Decimal.Denotes s.toList other.gameId.toInt)
      ∧ (found = none ↔ ∀ row ∈ rows, ¬Decimal.Denotes s.toList row.gameId.toInt) := by
  obtain ⟨tables, hfile, hlist⟩ := tables_of_installations h
  obtain ⟨caves, hcaves, hholds, hordered⟩ := ordered_of_installations hlist
  refine ⟨⟨tables, caves, hfile, hcaves, hholds, hordered⟩, fun s ↦ ?_⟩
  refine ⟨rows.find? fun row ↦ Decimal.readInt64? s = some row.gameId,
    installation_eq_find? h s, fun row ↦ ?_, ?_⟩
  · simp only [List.find?_eq_some_iff_append, decide_eq_true_eq, Bool.not_eq_true',
      decide_eq_false_iff_not, Decimal.readInt64?_eq_some_iff]
    constructor
    · rintro ⟨hrow, before, after, hsplit, hbefore⟩
      exact ⟨before, after, hsplit, hrow, hbefore⟩
    · rintro ⟨before, after, hsplit, hrow, hbefore⟩
      exact ⟨hrow, before, after, hsplit, hbefore⟩
  · simp only [List.find?_eq_none, decide_eq_true_eq, Decimal.readInt64?_eq_some_iff]

/-- The game 7 was put in twice, the first time as a text and after the game 12. It is found under
another spelling of its number. -/
theorem ClientDatabase.installation_firstOfList_seven :
    ∃ (db : ClientDatabase) (rows : List InstallationRow) (caves : List CaveRecord),
      caves = CaveRecord.ofRows [[.text "c", .text "12", .null],
        [.text "a", .text " 007 ", .text "[]"], [.text "b", .integer 7, .null]]
      ∧ db.installations = .ok rows ∧ Ordered (caves.map CaveRecord.row) rows
      ∧ rows = [⟨7, some "[]"⟩, ⟨7, none⟩, ⟨12, none⟩]
      ∧ Decimal.Denotes "+07".toList 7
      ∧ db.installation "+07" = .ok (some ⟨7, some "[]"⟩) := by
  let first : CaveRecord := ⟨.text "a", .integer 7, .text "[]"⟩
  let second : CaveRecord := ⟨.text "b", .integer 7, .null⟩
  let third : CaveRecord := ⟨.text "c", .integer 12, .null⟩
  let rows : List InstallationRow := [⟨7, some "[]"⟩, ⟨7, none⟩, ⟨12, none⟩]
  have hstored : CaveRecord.ofRows [[.text "c", .text "12", .null],
      [.text "a", .text " 007 ", .text "[]"], [.text "b", .integer 7, .null]]
      = [third, first, second] := by decide +kernel
  let tables : Tables := ⟨none, none, none, some [third, first, second], none, none⟩
  let db : ClientDatabase := ⟨"butler.db", .tables tables⟩
  have hsorted : [third, first, second].mergeSort (fun a b ↦ a.gameId.atMost b.gameId)
      = [first, second, third] := by
    have hle : ∀ m n : Int64, (Cell.integer m).atMost (.integer n) = decide (m ≤ n) :=
      fun m n ↦ Bool.eq_iff_iff.mpr (Cell.atMost_integer_iff.trans decide_eq_true_iff.symm)
    simp [List.mergeSort, hle, first, second, third]
  have hlist : db.installations = .ok rows := by
    refine (@installations_of_caves tables _ rfl).trans ?_
    rw [hsorted]
    rfl
  obtain ⟨⟨other, caves, hfile, hcaves, -, hordered⟩, hlookup⟩ := installation_firstOfList hlist
  obtain ⟨found, hfound, hsome, -⟩ := hlookup "+07"
  obtain rfl := DatabaseFile.tables.inj hfile
  obtain rfl := Option.some.inj hcaves
  have hseven : Decimal.Denotes "+07".toList 7 :=
    Decimal.readInt64?_eq_some_iff (n := 7).mp (by decide)
  obtain rfl := (hsome ⟨7, some "[]"⟩).mpr ⟨[], _, rfl, hseven, by simp⟩
  exact ⟨db, rows, _, hstored.symm, hlist, hordered, rfl, hseven, hfound⟩

end GameBridge
