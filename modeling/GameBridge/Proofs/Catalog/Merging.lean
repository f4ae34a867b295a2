import GameBridge.Catalog.Installation
import GameBridge.Catalog.Ownership
import GameBridge.Proofs.Text.ByteOrder

/-!
# Catalogs of many rows

Rows are filed one after the other, and of two entries with one id the later stays. Filing the rows
of two lists one after the other is therefore the same as filing each list by itself and then the
entries of the second catalog into the first: both are the union in which the second one counts.

Everything is filed under its own id. So the values of a catalog are in strictly ascending order of
the id, and as UTF-8 keeps the order of texts, that is also the order of the bytes of the ids.
-/

namespace GameBridge

/-! ## Unions -/

namespace Index

variable {α : Type}

/-- Of an entry that was there and one that is filed, the latter counts. -/
theorem get?_insertAll (index : Index α) (entries : List (String × α)) (key : String) :
    (index.insertAll entries).get? key = ((ofList entries).get? key).or (index.get? key) := by
  induction entries generalizing index with
  | nil => rfl
  | cons entry rest ih =>
    have hfirst : (ofList (entry :: rest)).get? key
        = ((ofList rest).get? key).or ((empty.insert entry.1 entry.2).get? key) := ih _
    rw [insertAll_cons, ih, hfirst, Option.or_assoc, get?_insert, get?_insert]
    by_cases hkey : key = entry.1
    · rw [if_pos hkey, if_pos hkey, Option.some_or]
    · rw [if_neg hkey, if_neg hkey, get?_empty, Option.none_or]

private theorem get?_ofList_of_ascending {entries : List (String × α)}
    (h : entries.Pairwise Precedes) (key : String) :
    (ofList entries).get? key = findEntry key entries := by
  induction entries with
  | nil => rfl
  | cons entry rest ih =>
    obtain ⟨k, v⟩ := entry
    obtain ⟨hhead, hrest⟩ := List.pairwise_cons.mp h
    have hnone : findEntry k rest = none := by
      cases hfind : findEntry k rest with
      | none => rfl
      | some value =>
        have hmem := (get?_eq_some_iff ⟨rest, hrest⟩ k value).mp hfind
        exact absurd (hhead _ hmem) (String.lt_irrefl k)
    rw [ofList, insertAll_cons, get?_insertAll, ih hrest, get?_insert, findEntry]
    by_cases hkey : key = k
    · rw [hkey, hnone, if_pos rfl, if_pos rfl, Option.none_or]
    · rw [if_neg hkey, if_neg hkey, get?_empty, Option.or_none]

theorem ofList_entries (index : Index α) : ofList index.entries = index :=
  ext fun key ↦ get?_ofList_of_ascending index.ascending key

/-- Filing entries is the same as filing the index of them. -/
theorem insertAll_entries_ofList (index : Index α) (entries : List (String × α)) :
    index.insertAll (ofList entries).entries = index.insertAll entries := by
  ext1 key
  rw [get?_insertAll, ofList_entries, ← get?_insertAll]

/-! ## Rows -/

section Rows

variable {ρ : Type} {file : Index α → ρ → Index α} {entryOf : ρ → Option (String × α)}

theorem foldl_eq_insertAll (h : ∀ index row, file index row = index.insertAll (entryOf row).toList)
    (index : Index α) (rows : List ρ) :
    rows.foldl file index = index.insertAll (rows.filterMap entryOf) := by
  induction rows generalizing index with
  | nil => rfl
  | cons row rest ih =>
    rw [List.foldl_cons, ih, h, ← insertAll_append, List.filterMap_cons]
    cases entryOf row <;> rfl

/-- Filing more rows is the union with the index of these rows. -/
theorem foldl_eq_insertAll_foldl
    (h : ∀ index row, file index row = index.insertAll (entryOf row).toList) (index : Index α)
    (rows : List ρ) : rows.foldl file index = index.insertAll (rows.foldl file empty).entries := by
  rw [foldl_eq_insertAll h, foldl_eq_insertAll h, ← ofList, insertAll_entries_ofList]

/-- What is filed under a key depends on the rows with this key only. -/
theorem get?_foldl_filter {p : ρ → Bool} {key : String}
    (h : ∀ index row, file index row = index.insertAll (entryOf row).toList)
    (hp : ∀ row entry, entryOf row = some entry → p row = (entry.1 == key)) {index other : Index α}
    (hsame : index.get? key = other.get? key) (rows : List ρ) :
    ((rows.filter p).foldl file index).get? key = (rows.foldl file other).get? key := by
  induction rows generalizing index other with
  | nil => exact hsame
  | cons row rest ih =>
    rw [List.filter_cons, List.foldl_cons]
    split
    · rw [List.foldl_cons]
      refine ih ?_
      rw [h, h, get?_insertAll, get?_insertAll, hsame]
    · rename_i hother
      refine ih ?_
      rw [h, hsame]
      cases hentry : entryOf row with
      | none => rfl
      | some entry =>
        rw [hp row entry hentry, beq_iff_eq] at hother
        rw [Option.toList_some, insertAll_cons, insertAll_nil, get?_insert, if_neg (Ne.symm hother)]

end Rows

end Index

/-- The entry of a row of an owned game. -/
def ownedEntryOf (row : OwnershipRow) : Option (String × CatalogEntry) :=
  (CatalogEntry.ofRow row).toOption.map fun entry ↦ (entry.id, entry)

theorem fileOwned_eq (index : Index CatalogEntry) (row : OwnershipRow) :
    fileOwned index row = index.insertAll (ownedEntryOf row).toList := by
  rw [fileOwned, ownedEntryOf]
  cases CatalogEntry.ofRow row <;> rfl

/-- **Merging.** The catalog of two lists of rows is the union of their catalogs. -/
theorem classify_append (rows more : List OwnershipRow) :
    classify (rows ++ more) = (classify rows).insertAll (classify more).entries := by
  rw [classify, List.foldl_append]
  exact Index.foldl_eq_insertAll_foldl fileOwned_eq _ more

/-- The entry of a row of an installed game. -/
def installedEntryOf (isFile : FileCheck) (row : InstallationRow) :
    Option (String × InstalledEntry) :=
  match resolveRow row isFile with
  | .ok (some entry) => some (entry.id, entry)
  | _ => none

theorem fileInstalled_eq (isFile : FileCheck) (index : Index InstalledEntry)
    (row : InstallationRow) :
    fileInstalled isFile index row = index.insertAll (installedEntryOf isFile row).toList := by
  rw [fileInstalled, installedEntryOf]
  rcases resolveRow row isFile with failure | _ | entry <;> rfl

/-- Whether a row installs a game: it names an executable of it, and that exists. -/
def InstallationRow.installs (isFile : FileCheck) (id : String) (row : InstallationRow) : Bool :=
  match resolveRow row isFile with
  | .ok (some entry) => entry.id == id
  | _ => false

/-- Where a game is installed depends only on the rows that install it. -/
theorem get?_resolve_filter (rows : List InstallationRow) (isFile : FileCheck) (id : String) :
    (resolve (rows.filter (InstallationRow.installs isFile id)) isFile).get? id
      = (resolve rows isFile).get? id := by
  refine Index.get?_foldl_filter (fileInstalled_eq isFile) (fun row entry hentry ↦ ?_) rfl rows
  rw [installedEntryOf] at hentry
  rw [InstallationRow.installs]
  split at hentry
  · obtain rfl := Option.some.inj hentry
    rfl
  · exact absurd hentry (by simp)

/-! ## Ids -/

namespace Index

variable {α : Type} {id : α → String}

/-- Every value is filed under its own id. -/
def FiledBy (id : α → String) (index : Index α) : Prop :=
  ∀ key value, index.get? key = some value → id value = key

theorem filedBy_empty : (empty : Index α).FiledBy id := fun _ _ h ↦ by simp at h

theorem FiledBy.insert {index : Index α} (h : index.FiledBy id) (value : α) :
    (index.insert (id value) value).FiledBy id := by
  intro key other hother
  rw [get?_insert] at hother
  split at hother
  · rename_i hkey
    rw [← Option.some.inj hother, hkey]
  · exact h key other hother

theorem FiledBy.insertAll {index other : Index α} (h : index.FiledBy id)
    (hother : other.FiledBy id) : (index.insertAll other.entries).FiledBy id := by
  intro key value hvalue
  rw [get?_insertAll, ofList_entries, Option.or_eq_some_iff] at hvalue
  rcases hvalue with hvalue | ⟨-, hvalue⟩
  · exact hother key value hvalue
  · exact h key value hvalue

/-- A list of the values of an index: all of them, each once, in strictly ascending order of the
bytes of their ids. -/
structure Lists (id : α → String) (index : Index α) (values : List α) : Prop where
  get?_iff : ∀ key value, index.get? key = some value ↔ value ∈ values ∧ id value = key
  ascending : (values.map fun value ↦ Text.bytes (id value)).Pairwise (· < ·)
  length : values.length = index.size

theorem FiledBy.lists {index : Index α} (h : index.FiledBy id) : index.Lists id index.values where
  get?_iff key value := by
    constructor
    · intro hvalue
      exact ⟨List.mem_map_of_mem ((get?_eq_some_iff index key value).mp hvalue), h key value hvalue⟩
    · rintro ⟨hmem, rfl⟩
      obtain ⟨⟨key, value⟩, hentry, rfl⟩ := List.mem_map.mp hmem
      have hget := (get?_eq_some_iff index key value).mpr hentry
      rw [h key value hget, hget]
  ascending := by
    rw [values, List.map_map, List.pairwise_map]
    refine index.ascending.imp_of_mem fun {a b} ha hb hab ↦ ?_
    have hkey : ∀ entry ∈ index.entries, id entry.2 = entry.1 := fun entry hentry ↦
      h _ _ ((get?_eq_some_iff index entry.1 entry.2).mpr hentry)
    rw [Function.comp_apply, Function.comp_apply, Text.bytes_lt_bytes_iff, hkey a ha, hkey b hb]
    exact hab
  length := List.length_map ..

end Index

theorem filedBy_classify (rows : List OwnershipRow) : (classify rows).FiledBy CatalogEntry.id := by
  refine List.foldlRecOn rows fileOwned Index.filedBy_empty fun index h row _ ↦ ?_
  rw [fileOwned]
  split
  · exact h.insert _
  · exact h

theorem filedBy_resolve (rows : List InstallationRow) (isFile : FileCheck) :
    (resolve rows isFile).FiledBy InstalledEntry.id := by
  refine List.foldlRecOn rows (fileInstalled isFile) Index.filedBy_empty fun index h row _ ↦ ?_
  rw [fileInstalled]
  split
  · exact h.insert _
  · exact h

end GameBridge
