import Mathlib.Data.List.Pairwise
import GameBridge.Database.Query
import GameBridge.GameId

/-!
# One installation and all of them

The list of all installations is ordered by the game, while the installation of one game is simply
the first one in the table. As the order is that of a stable sort, and all installations of a game
are alike to it, the two agree: the installation of a game is the first of its rows in the list.
-/

namespace GameBridge

/-! ## The order of cells -/

namespace Database.Cell

theorem atMost_iff {a b : Cell} :
    a.atMost b = true ↔ a.rank < b.rank ∨
      a.rank = b.rank ∧ (a.units < b.units ∨ a.units = b.units ∧ a.bytes ≤ b.bytes) := by
  rw [atMost]
  by_cases hrank : a.rank = b.rank
  · rw [if_pos hrank]
    by_cases hunits : a.units = b.units
    · simp [hrank, hunits]
    · simp [hrank, hunits]
  · simp [hrank]

theorem atMost_trans (a b c : Cell) (hab : a.atMost b = true) (hbc : b.atMost c = true) :
    a.atMost c = true := by
  rw [atMost_iff] at hab hbc ⊢
  rcases hab with hab | ⟨hab, hab'⟩
  · rcases hbc with hbc | ⟨hbc, -⟩
    · exact Or.inl (Nat.lt_trans hab hbc)
    · exact Or.inl (hbc ▸ hab)
  · rcases hbc with hbc | ⟨hbc, hbc'⟩
    · exact Or.inl (hab ▸ hbc)
    · refine Or.inr ⟨hab.trans hbc, ?_⟩
      rcases hab' with hab' | ⟨hab', hbytes⟩
      · rcases hbc' with hbc' | ⟨hbc', -⟩
        · exact Or.inl (Int.lt_trans hab' hbc')
        · exact Or.inl (hbc' ▸ hab')
      · rcases hbc' with hbc' | ⟨hbc', hbytes'⟩
        · exact Or.inl (hab' ▸ hbc')
        · exact Or.inr ⟨hab'.trans hbc', List.le_trans hbytes hbytes'⟩

theorem atMost_total (a b : Cell) : (a.atMost b || b.atMost a) = true := by
  rw [Bool.or_eq_true, atMost_iff, atMost_iff]
  rcases Nat.lt_trichotomy a.rank b.rank with hrank | hrank | hrank
  · exact Or.inl (Or.inl hrank)
  · rcases Int.lt_trichotomy a.units b.units with hunits | hunits | hunits
    · exact Or.inl (Or.inr ⟨hrank, Or.inl hunits⟩)
    · rcases List.le_total a.bytes b.bytes with hbytes | hbytes
      · exact Or.inl (Or.inr ⟨hrank, Or.inr ⟨hunits, hbytes⟩⟩)
      · exact Or.inr (Or.inr ⟨hrank.symm, Or.inr ⟨hunits.symm, hbytes⟩⟩)
    · exact Or.inr (Or.inr ⟨hrank.symm, Or.inl hunits⟩)
  · exact Or.inr (Or.inl hrank)

end Database.Cell

/-! ## Sorting -/

section Sorting

variable {α : Type} {le : α → α → Bool}

theorem filter_mergeSort (htrans : ∀ a b c, le a b = true → le b c = true → le a c = true)
    (htotal : ∀ a b, (le a b || le b a) = true) {p : α → Bool} {list : List α}
    (halike : ∀ a ∈ list, ∀ b ∈ list, p a = true → p b = true → le a b = true) :
    (list.mergeSort le).filter p = list.filter p := by
  have hpairwise : (list.filter p).Pairwise fun a b ↦ le a b = true := by
    refine List.pairwise_of_forall_mem_list fun a ha b hb ↦ ?_
    rw [List.mem_filter] at ha hb
    exact halike a ha.1 b hb.1 ha.2 hb.2
  have hsub : List.Sublist (list.filter p) (list.mergeSort le) :=
    List.sublist_mergeSort htrans htotal hpairwise List.filter_sublist
  have hfilter : List.Sublist (list.filter p) ((list.mergeSort le).filter p) := by
    have h := hsub.filter p
    rwa [List.filter_filter, List.filter_congr fun a _ ↦ Bool.and_self (p a)] at h
  exact (hfilter.eq_of_length ((List.mergeSort_perm list le).filter p).length_eq.symm).symm

private theorem find?_mergeSort (htrans : ∀ a b c, le a b = true → le b c = true → le a c = true)
    (htotal : ∀ a b, (le a b || le b a) = true) {p : α → Bool} {list : List α}
    (halike : ∀ a ∈ list, ∀ b ∈ list, p a = true → p b = true → le a b = true) :
    (list.mergeSort le).find? p = list.find? p := by
  rw [← List.head?_filter, ← List.head?_filter, filter_mergeSort htrans htotal halike]

end Sorting

/-! ## The rows of one game -/

namespace Database

theorem gameId_of_decodeCave {record : CaveRecord} {row : InstallationRow}
    (h : decodeCave record = .ok row) : record.gameId = .integer row.gameId := by
  rw [decodeCave] at h
  cases hid : record.gameId with
  | integer n =>
    rw [hid] at h
    cases hverdict : text? ⟨1, "verdict"⟩ record.verdict with
    | error fault => simp [integer, hverdict, bind, Except.bind] at h
    | ok verdict =>
      simp only [integer, hverdict, bind, Except.bind, pure, Except.pure] at h
      rw [← Except.ok.inj h]
  | null => simp [hid, integer, Place.refuse, bind, Except.bind] at h
  | real x => simp [hid, integer, Place.refuse, bind, Except.bind] at h
  | infinite negative => simp [hid, integer, Place.refuse, bind, Except.bind] at h
  | text s => simp [hid, integer, Place.refuse, bind, Except.bind] at h
  | blob b => simp [hid, integer, Place.refuse, bind, Except.bind] at h

theorem gameId_of_installation {tables : Tables} {n : Int64} {row : InstallationRow}
    (h : installation tables n = .ok (some row)) : row.gameId = n := by
  rw [installation] at h
  cases hcaves : rowsOf "caves" tables.caves with
  | error fault =>
    rw [hcaves] at h
    exact nomatch h
  | ok caves =>
    simp only [hcaves, bind, Except.bind] at h
    cases hfound : caves.find? fun cave ↦ cave.gameId.isNumber n with
    | none =>
      rw [hfound] at h
      exact nomatch h
    | some cave =>
      have hnumber := List.find?_some hfound
      rw [hfound] at h
      replace h : (some <$> decodeCave cave : Except QueryFault _).mapError
        (Failure.queryFailed "query cave for game") = .ok (some row) := h
      cases hrow : decodeCave cave with
      | error fault =>
        rw [hrow] at h
        exact nomatch h
      | ok found =>
        rw [hrow] at h
        obtain rfl : found = row := Option.some.inj (Except.ok.inj h)
        rw [gameId_of_decodeCave hrow] at hnumber
        exact beq_iff_eq.mp hnumber

/-- The records behind rows are found by the same number as the rows. -/
private theorem find?_of_mapM_decodeCave {caves : List CaveRecord} {rows : List InstallationRow}
    (h : caves.mapM decodeCave = .ok rows) (n : Int64) :
    (∀ cave ∈ caves, ∃ row, decodeCave cave = .ok row) ∧
      (caves.find? fun cave ↦ cave.gameId.isNumber n).mapM decodeCave
        = .ok (rows.find? fun row ↦ row.gameId == n) := by
  induction caves generalizing rows with
  | nil =>
    rw [List.mapM_nil] at h
    obtain rfl := Except.ok.inj h
    exact ⟨fun cave hmem ↦ absurd hmem List.not_mem_nil, rfl⟩
  | cons cave rest ih =>
    rw [List.mapM_cons] at h
    cases hrow : decodeCave cave with
    | error fault => simp [hrow, bind, Except.bind] at h
    | ok row =>
      cases hrest : rest.mapM decodeCave with
      | error fault => simp [hrow, hrest, bind, Except.bind] at h
      | ok others =>
        simp only [hrow, hrest, bind, Except.bind, pure, Except.pure] at h
        obtain rfl := Except.ok.inj h
        obtain ⟨hall, hfind⟩ := ih hrest
        refine ⟨fun other hmem ↦ ?_, ?_⟩
        · rcases List.mem_cons.mp hmem with rfl | hmem
          · exact ⟨row, hrow⟩
          · exact hall other hmem
        · have hnumber : cave.gameId.isNumber n = (row.gameId == n) := by
            rw [gameId_of_decodeCave hrow]
            rfl
          rw [List.find?_cons, List.find?_cons, hnumber]
          cases row.gameId == n with
          | false => exact hfind
          | true =>
            show (some <$> decodeCave cave : Except QueryFault _) = _
            rw [hrow]
            rfl

/-- **First of the rows.** The installation of a game is the first of its rows in the list of all
installations. -/
theorem installation_of_installations {tables : Tables} {rows : List InstallationRow}
    (h : installations tables = .ok rows) (n : Int64) :
    installation tables n = .ok (rows.find? fun row ↦ row.gameId == n) := by
  rw [installations] at h
  rw [installation]
  cases hcaves : rowsOf "caves" tables.caves with
  | error fault => simp [hcaves] at h
  | ok caves =>
    rw [hcaves] at h
    dsimp only at h
    cases hrows : (caves.mergeSort fun a b ↦ a.gameId.atMost b.gameId).mapM decodeCave with
    | error fault =>
      rw [hrows] at h
      exact nomatch h
    | ok found =>
      rw [hrows] at h
      obtain rfl : found = rows := Except.ok.inj h
      obtain ⟨hall, hfind⟩ := find?_of_mapM_decodeCave hrows n
      have hsorted : (caves.mergeSort fun a b ↦ a.gameId.atMost b.gameId).find?
            (fun cave ↦ cave.gameId.isNumber n)
          = caves.find? fun cave ↦ cave.gameId.isNumber n := by
        refine find?_mergeSort (fun a b c ↦ Cell.atMost_trans a.gameId b.gameId c.gameId)
          (fun a b ↦ Cell.atMost_total a.gameId b.gameId) fun a ha b hb hna hnb ↦ ?_
        -- both are the integer `n`
        obtain ⟨rowA, hrowA⟩ := hall a (List.mem_mergeSort.mpr ha)
        obtain ⟨rowB, hrowB⟩ := hall b (List.mem_mergeSort.mpr hb)
        rw [gameId_of_decodeCave hrowA, Cell.isNumber, beq_iff_eq] at hna
        rw [gameId_of_decodeCave hrowB, Cell.isNumber, beq_iff_eq] at hnb
        rw [gameId_of_decodeCave hrowA, gameId_of_decodeCave hrowB, hna, hnb]
        exact Cell.atMost_iff.mpr (Or.inr ⟨rfl, Or.inr ⟨rfl, List.le_refl _⟩⟩)
      rw [hsorted] at hfind
      simp only [bind, Except.bind, hfind]
      rfl

end Database

/-! ## Canonical ids -/

theorem GameId.canonical_of_read {raw : String} {n : Int64}
    (h : Decimal.readInt64? (canonical raw) = some n) : canonical raw = Decimal.ofInt64 n := by
  rw [canonical] at h ⊢
  cases hread : Decimal.readInt64? (Text.trim raw) with
  | none =>
    rw [hread] at h
    exact absurd (hread.symm.trans h) (by simp)
  | some m =>
    rw [hread] at h
    dsimp only at h ⊢
    rw [Decimal.readInt64?_ofInt64] at h
    rw [Option.some.inj h]

/-- The client's database has for each canonical id the first of its rows. -/
theorem ClientDatabase.installation_canonical {db : ClientDatabase} {rows : List InstallationRow}
    (h : db.installations = .ok rows) (raw : String) :
    db.installation (GameId.canonical raw)
      = .ok (rows.find? fun row ↦ Decimal.ofInt64 row.gameId == GameId.canonical raw) := by
  rw [installation]
  cases hread : Decimal.readInt64? (GameId.canonical raw) with
  | none =>
    -- a decimal text of a number can be read
    have hnone : (rows.find? fun row ↦ Decimal.ofInt64 row.gameId == GameId.canonical raw)
        = none := by
      refine List.find?_eq_none.mpr fun row _ hrow ↦ ?_
      rw [← beq_iff_eq.mp hrow, Decimal.readInt64?_ofInt64] at hread
      exact absurd hread (by simp)
    rw [hnone]
  | some n =>
    rw [GameId.canonical_of_read hread]
    have hsame : (fun row : InstallationRow ↦ Decimal.ofInt64 row.gameId == Decimal.ofInt64 n)
        = fun row ↦ row.gameId == n := by
      funext row
      exact Bool.eq_iff_iff.mpr (by
        rw [beq_iff_eq, beq_iff_eq]
        exact ⟨Decimal.ofInt64_injective, congrArg Decimal.ofInt64⟩)
    rw [hsame]
    rw [installations] at h
    unfold Database.ask at h ⊢
    cases hfile : db.file with
    | missing => simp [hfile] at h
    | folder => simp [hfile] at h
    | foreign => simp [hfile] at h
    | tables tables =>
      rw [hfile] at h
      exact Database.installation_of_installations h n

end GameBridge
