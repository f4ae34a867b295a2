import GameBridge.Proofs.Catalog.CanonicalIds
import GameBridge.Proofs.Catalog.LastRows
import GameBridge.Proofs.Text.Integers
import Mathlib.Data.List.DropRight

/-!
# Which ids name the same game

Two texts name the same game if they are equal once the white space around them is taken off, or if
both spell one 64-bit integer. The canonical form tells exactly this much (`canonical_eq_iff`), for
two reasons. A number is read back from its decimal text, so different numbers keep different
canonical forms. And a text that spells no number stays what it is, so it cannot be mistaken for the
decimal text of one, which spells it.

The catalogs file their entries under decimal texts. These are canonical forms, and looking a
canonical form up therefore finds a game under all spellings of its number and under nothing else.
-/

namespace GameBridge

/-! ## Trimming twice -/

namespace Text

theorem trimChars_trimChars (cs : List Char) : trimChars (trimChars cs) = trimChars cs := by
  have hsplit : ∀ l, trimChars l = (l.dropWhile isBlank).rdropWhile isBlank := fun _ ↦ rfl
  -- what is left begins like the text without the blanks in front
  have hfront : (trimChars cs).dropWhile isBlank = trimChars cs := by
    have hbegins : trimChars cs <+: cs.dropWhile isBlank := List.rdropWhile_prefix isBlank _
    have hhead := List.dropWhile_eq_self_iff.mp (List.dropWhile_idempotent isBlank (l := cs))
    rw [List.dropWhile_eq_self_iff]
    intro hpos
    rw [hbegins.getElem hpos]
    exact hhead (Nat.lt_of_lt_of_le hpos hbegins.length_le)
  rw [hsplit (trimChars cs), hfront, hsplit cs, List.rdropWhile_idempotent]

theorem trim_trim (s : String) : trim (trim s) = trim s := by
  rw [trim, toList_trim, trimChars_trimChars, trim]

end Text

namespace GameId

/-! ## Spellings -/

/-- A text spells a number if what is left after trimming denotes it. -/
def Spells (raw : String) (n : Int64) : Prop := Decimal.Denotes (Text.trim raw).toList n.toInt

theorem canonical_of_spells {raw : String} {n : Int64} (h : Spells raw n) :
    canonical raw = Decimal.ofInt64 n := by
  rw [canonical, Decimal.readInt64?_eq_some_iff.mpr h]

theorem canonical_of_not_spells {raw : String} (h : ∀ n, ¬Spells raw n) :
    canonical raw = Text.trim raw := by
  rw [canonical, Decimal.readInt64?_eq_none_iff.mpr h]

theorem trim_ofInt64 (n : Int64) : Text.trim (Decimal.ofInt64 n) = Decimal.ofInt64 n := by
  have hchars : Text.trimChars (Decimal.intChars n.toInt) = Decimal.intChars n.toInt :=
    Text.trimChars_eq_self fun c hc ↦ Decimal.isBlank_of_mem_intChars hc
  rw [Text.trim, Decimal.ofInt64, Decimal.toList_text, hchars, Decimal.text]

/-- A decimal text spells its number. -/
theorem spells_ofInt64 (n : Int64) : Spells (Decimal.ofInt64 n) n := by
  rw [Spells, trim_ofInt64]
  exact Decimal.readInt64?_eq_some_iff.mp (Decimal.readInt64?_ofInt64 n)

/-- White space around a text makes no difference to what it spells. -/
theorem spells_trim_iff {raw : String} {n : Int64} : Spells (Text.trim raw) n ↔ Spells raw n := by
  rw [Spells, Spells, Text.trim_trim]

/-- **Numbers.** The canonical form of a text is the decimal text of a number just if the text
spells this number. -/
theorem canonical_eq_ofInt64_iff {raw : String} {n : Int64} :
    canonical raw = Decimal.ofInt64 n ↔ Spells raw n := by
  refine ⟨fun h ↦ ?_, canonical_of_spells⟩
  by_cases hspells : ∃ m, Spells raw m
  · obtain ⟨m, hm⟩ := hspells
    obtain rfl := Decimal.ofInt64_injective ((canonical_of_spells hm).symm.trans h)
    exact hm
  · -- the text itself would be the decimal text
    rw [canonical_of_not_spells (not_exists.mp hspells)] at h
    rw [← spells_trim_iff, h]
    exact spells_ofInt64 n

/-! ## Canonical forms -/

/-- **Equal canonical forms.** Two texts have one canonical form just if they are equal after
trimming or spell the same number. -/
theorem canonical_eq_iff {raw other : String} :
    canonical raw = canonical other
      ↔ Text.trim raw = Text.trim other ∨ ∃ n, Spells raw n ∧ Spells other n := by
  constructor
  · intro h
    by_cases hspells : ∃ n, Spells raw n
    · obtain ⟨n, hn⟩ := hspells
      exact Or.inr ⟨n, hn, canonical_eq_ofInt64_iff.mp (h.symm.trans (canonical_of_spells hn))⟩
    · have hother : ∀ n, ¬Spells other n := fun n hn ↦
        hspells ⟨n, canonical_eq_ofInt64_iff.mp (h.trans (canonical_of_spells hn))⟩
      rw [canonical_of_not_spells (not_exists.mp hspells), canonical_of_not_spells hother] at h
      exact Or.inl h
  · rintro (h | ⟨n, hn, hother⟩)
    · rw [canonical, canonical, h]
    · rw [canonical_of_spells hn, canonical_of_spells hother]

theorem canonical_ofInt64 (n : Int64) : canonical (Decimal.ofInt64 n) = Decimal.ofInt64 n :=
  canonical_of_spells (spells_ofInt64 n)

theorem canonical_canonical (raw : String) : canonical (canonical raw) = canonical raw := by
  by_cases hspells : ∃ n, Spells raw n
  · obtain ⟨n, hn⟩ := hspells
    rw [canonical_of_spells hn, canonical_ofInt64]
  · have hraw : ∀ n, ¬Spells raw n := not_exists.mp hspells
    have htrimmed : ∀ n, ¬Spells (Text.trim raw) n := fun n hn ↦ hraw n (spells_trim_iff.mp hn)
    rw [canonical_of_not_spells hraw, canonical_of_not_spells htrimmed, Text.trim_trim]

end GameId

/-! ## Catalogs -/

namespace FilesByNumber

variable {ρ α : Type} {number : ρ → Int64} {yields : ρ → α → Prop} {file : Index α → ρ → Index α}
  {entryOf : ρ → Option (String × α)}

/-- A game is found under a text just if the text spells the number of a row that yields an
entry. -/
theorem isSome_get?_canonical_iff (h : FilesByNumber number yields file entryOf) (rows : List ρ)
    (raw : String) :
    ((rows.foldl file .empty).get? (GameId.canonical raw)).isSome = true
      ↔ ∃ row ∈ rows, GameId.Spells raw (number row) ∧ ∃ entry, yields row entry := by
  constructor
  · intro hfound
    obtain ⟨entry, hentry⟩ := Option.isSome_iff_exists.mp hfound
    obtain ⟨row, -, hkey⟩ := h.only hentry
    rw [hkey, h.listed] at hfound
    obtain ⟨other, hmem, hnumber, hyields⟩ := hfound
    exact ⟨other, hmem, GameId.canonical_eq_ofInt64_iff.mp (hnumber ▸ hkey), hyields⟩
  · rintro ⟨row, hmem, hspells, hyields⟩
    rw [GameId.canonical_of_spells hspells, h.listed]
    exact ⟨row, hmem, rfl, hyields⟩

end FilesByNumber

namespace Index

variable {α : Type} {id : α → String}

/-- The keys of an index are decimal texts of numbers. -/
def Numbered (index : Index α) : Prop :=
  ∀ key value, index.get? key = some value → ∃ n : Int64, key = Decimal.ofInt64 n

/-- Every entry is found under all spellings of the number in its id, and under nothing else. -/
def FoundBySpelling (id : α → String) (index : Index α) : Prop :=
  ∀ raw value, index.get? (GameId.canonical raw) = some value
    ↔ value ∈ index.values ∧ ∃ n : Int64, id value = Decimal.ofInt64 n ∧ GameId.Spells raw n

theorem FiledBy.foundBySpelling {index : Index α} (h : index.FiledBy id)
    (hnumbered : index.Numbered) : index.FoundBySpelling id := by
  intro raw value
  rw [h.lists.get?_iff]
  refine and_congr_right fun hmem ↦ ⟨fun hid ↦ ?_, ?_⟩
  · obtain ⟨n, hn⟩ := hnumbered _ _ ((h.lists.get?_iff _ _).mpr ⟨hmem, hid⟩)
    exact ⟨n, hid.trans hn, GameId.canonical_eq_ofInt64_iff.mp hn⟩
  · rintro ⟨n, hid, hspells⟩
    rw [hid, GameId.canonical_of_spells hspells]

theorem numbered_empty : (empty : Index α).Numbered := fun _ _ h ↦ by simp at h

theorem Numbered.insert {index : Index α} (h : index.Numbered) (n : Int64) (value : α) :
    (index.insert (Decimal.ofInt64 n) value).Numbered := by
  intro key other hother
  rw [get?_insert] at hother
  split at hother
  · rename_i hkey
    exact ⟨n, hkey⟩
  · exact h key other hother

theorem Numbered.insertAll {index other : Index α} (h : index.Numbered) (hother : other.Numbered) :
    (index.insertAll other.entries).Numbered := by
  intro key value hvalue
  rw [get?_insertAll, ofList_entries, Option.or_eq_some_iff] at hvalue
  rcases hvalue with hvalue | ⟨-, hvalue⟩
  · exact hother key value hvalue
  · exact h key value hvalue

end Index

theorem numbered_classify (rows : List OwnershipRow) : (classify rows).Numbered := by
  intro key entry h
  obtain ⟨row, -, hkey⟩ := filesByNumber_fileOwned.only h
  exact ⟨row.id, hkey⟩

theorem numbered_resolve (rows : List InstallationRow) (isFile : FileCheck) :
    (resolve rows isFile).Numbered := by
  intro key entry h
  obtain ⟨row, -, hkey⟩ := (filesByNumber_fileInstalled isFile).only h
  exact ⟨row.gameId, hkey⟩

end GameBridge
