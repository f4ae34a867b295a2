/-!
# Entries filed under text keys

An `Index` files values under text keys in strictly ascending order of the key, comparing keys
code point by code point. Caches, stored values and the members of a JSON object are all kept
this way, so listing one is always in the same order and two of them with the same content are
equal.

The order is part of the type. What an operation does is said through `get?`; `Index.ext` turns
agreement of every look-up into equality.
-/

namespace GameBridge

/-! ## Sorted entry lists -/

/-- The value filed under `key` in a list of entries, the first one if there are several. -/
def findEntry {α : Type} (key : String) : List (String × α) → Option α
  | [] => none
  | (k, v) :: rest => if key = k then some v else findEntry key rest

/-- Files `value` under `key` in an ascending list, replacing what was there. -/
def insertEntry {α : Type} (key : String) (value : α) : List (String × α) → List (String × α)
  | [] => [(key, value)]
  | (k, v) :: rest =>
    if key < k then (key, value) :: (k, v) :: rest
    else if key = k then (key, value) :: rest
    else (k, v) :: insertEntry key value rest

/-- The strict order on entries that an index keeps. -/
def Precedes {α : Type} (a b : String × α) : Prop := a.1 < b.1

theorem mem_insertEntry {α : Type} {key : String} {value : α} {entry : String × α}
    {entries : List (String × α)} (h : entry ∈ insertEntry key value entries) :
    entry = (key, value) ∨ entry ∈ entries := by
  induction entries with
  | nil => simpa [insertEntry] using h
  | cons head rest ih =>
    obtain ⟨k, v⟩ := head
    rw [insertEntry] at h
    split at h
    · simpa using h
    · split at h
      · rcases List.mem_cons.mp h with h | h
        · exact Or.inl h
        · exact Or.inr (List.mem_cons_of_mem _ h)
      · rcases List.mem_cons.mp h with h | h
        · exact Or.inr (h ▸ List.mem_cons_self)
        · exact (ih h).imp_right (List.mem_cons_of_mem _)

private theorem lt_of_not_lt_of_ne {a b : String} (h : ¬a < b) (hne : ¬a = b) : b < a := by
  rcases Decidable.em (b < a) with hb | hb
  · exact hb
  · exact absurd (String.le_antisymm (String.not_lt.mp hb) (String.not_lt.mp h)) hne

theorem pairwise_insertEntry {α : Type} (key : String) (value : α) {entries : List (String × α)}
    (h : entries.Pairwise Precedes) : (insertEntry key value entries).Pairwise Precedes := by
  induction entries with
  | nil => simp [insertEntry]
  | cons head rest ih =>
    obtain ⟨k, v⟩ := head
    have hrest := List.pairwise_cons.mp h
    rw [insertEntry]
    split
    · rename_i hlt
      refine List.pairwise_cons.mpr ⟨fun entry hmem ↦ ?_, h⟩
      rcases List.mem_cons.mp hmem with rfl | hmem
      · exact hlt
      · exact String.lt_trans hlt (hrest.1 entry hmem)
    · rename_i hnlt
      split
      · rename_i heq
        subst heq
        exact List.pairwise_cons.mpr ⟨fun entry hmem ↦ hrest.1 entry hmem, hrest.2⟩
      · rename_i hne
        refine List.pairwise_cons.mpr ⟨fun entry hmem ↦ ?_, ih hrest.2⟩
        rcases mem_insertEntry hmem with rfl | hmem
        · exact lt_of_not_lt_of_ne hnlt hne
        · exact hrest.1 entry hmem

theorem findEntry_insertEntry {α : Type} (key : String) (value : α) (k : String)
    (entries : List (String × α)) :
    findEntry k (insertEntry key value entries)
      = if k = key then some value else findEntry k entries := by
  induction entries with
  | nil => simp [insertEntry, findEntry]
  | cons head rest ih =>
    obtain ⟨k', v⟩ := head
    rw [insertEntry]
    split
    · simp [findEntry]
    · split
      · rename_i heq
        subst heq
        by_cases hk : k = key <;> simp [findEntry, hk]
      · rename_i hne
        by_cases hk : k = k'
        · subst hk
          simp [findEntry, Ne.symm hne]
        · simp [findEntry, hk, ih]

/-! ## The index -/

/-- Values filed under text keys, listed in strictly ascending order of the key. -/
structure Index (α : Type) where
  /-- The entries, in ascending order. -/
  entries : List (String × α)
  /-- Every key comes strictly before the keys after it. -/
  ascending : entries.Pairwise Precedes

namespace Index

variable {α : Type}

instance [DecidableEq α] : DecidableEq (Index α) := fun a b ↦
  if h : a.entries = b.entries then
    isTrue (by cases a; cases b; cases h; rfl)
  else
    isFalse (fun e ↦ h (congrArg Index.entries e))

/-- The index with no entries. -/
def empty : Index α := ⟨[], List.Pairwise.nil⟩

instance : Inhabited (Index α) := ⟨empty⟩

/-- The value filed under `key`. -/
def get? (index : Index α) (key : String) : Option α := findEntry key index.entries

/-- Files `value` under `key`, replacing what was there. -/
def insert (index : Index α) (key : String) (value : α) : Index α :=
  ⟨insertEntry key value index.entries, pairwise_insertEntry key value index.ascending⟩

/-- Files the entries one after the other: of two with one key the later stays. -/
def insertAll (index : Index α) (entries : List (String × α)) : Index α :=
  entries.foldl (fun index entry ↦ index.insert entry.1 entry.2) index

/-- The index of a list of entries, in which the last of equal keys counts. -/
def ofList (entries : List (String × α)) : Index α := empty.insertAll entries

/-- The values in ascending order of their keys. -/
def values (index : Index α) : List α := index.entries.map Prod.snd

/-- How many entries there are. -/
def size (index : Index α) : Nat := index.entries.length

@[simp] theorem get?_empty (key : String) : (empty : Index α).get? key = none := rfl

@[simp] theorem get?_insert (index : Index α) (key : String) (value : α) (k : String) :
    (index.insert key value).get? k = if k = key then some value else index.get? k :=
  findEntry_insertEntry key value k index.entries

@[simp] theorem insertAll_nil (index : Index α) : index.insertAll [] = index := rfl

@[simp] theorem insertAll_cons (index : Index α) (entry : String × α)
    (entries : List (String × α)) :
    index.insertAll (entry :: entries) = (index.insert entry.1 entry.2).insertAll entries := rfl

theorem insertAll_append (index : Index α) (a b : List (String × α)) :
    index.insertAll (a ++ b) = (index.insertAll a).insertAll b :=
  List.foldl_append ..

private theorem findEntry_eq_none_of_precedes {key : String} {entries : List (String × α)}
    (h : ∀ entry ∈ entries, key < entry.1) : findEntry key entries = none := by
  induction entries with
  | nil => rfl
  | cons head rest ih =>
    obtain ⟨k, v⟩ := head
    have hk : key ≠ k := fun e ↦
      String.lt_irrefl k (e ▸ h (k, v) List.mem_cons_self)
    rw [findEntry, if_neg hk]
    exact ih fun entry hmem ↦ h entry (List.mem_cons_of_mem _ hmem)

/-- The look-ups are the entries. -/
theorem get?_eq_some_iff (index : Index α) (key : String) (value : α) :
    index.get? key = some value ↔ (key, value) ∈ index.entries := by
  obtain ⟨entries, h⟩ := index
  show findEntry key entries = some value ↔ (key, value) ∈ entries
  induction entries with
  | nil => simp [findEntry]
  | cons head rest ih =>
    obtain ⟨k, v⟩ := head
    have hrest := List.pairwise_cons.mp h
    by_cases hk : key = k
    · subst hk
      have hnone := findEntry_eq_none_of_precedes (α := α) hrest.1
      constructor
      · intro hv
        rw [findEntry, if_pos rfl] at hv
        exact Option.some.inj hv ▸ List.mem_cons_self
      · intro hmem
        rcases List.mem_cons.mp hmem with heq | hmem
        · rw [findEntry, if_pos rfl, (Prod.mk.inj heq).2]
        · rw [(ih hrest.2).mpr hmem] at hnone
          exact absurd hnone (by simp)
    · rw [findEntry, if_neg hk, ih hrest.2, List.mem_cons]
      constructor
      · exact Or.inr
      · rintro (heq | hmem)
        · exact absurd (Prod.mk.inj heq).1 hk
        · exact hmem

private theorem entries_eq_of_find {a b : List (String × α)} (ha : a.Pairwise Precedes)
    (hb : b.Pairwise Precedes) (h : ∀ key, findEntry key a = findEntry key b) : a = b := by
  induction a generalizing b with
  | nil =>
    cases b with
    | nil => rfl
    | cons head rest =>
      have := h head.1
      simp [findEntry] at this
  | cons head rest ih =>
    obtain ⟨k, v⟩ := head
    have hrest := List.pairwise_cons.mp ha
    cases b with
    | nil =>
      have := h k
      simp [findEntry] at this
    | cons head' rest' =>
      obtain ⟨k', v'⟩ := head'
      have hrest' := List.pairwise_cons.mp hb
      have hk : k = k' := by
        rcases Decidable.em (k = k') with he | hne
        · exact he
        rcases Decidable.em (k < k') with hlt | hnlt
        · have hsome := h k
          rw [findEntry, if_pos rfl, findEntry, if_neg hne,
            findEntry_eq_none_of_precedes fun entry hmem ↦
              String.lt_trans hlt (hrest'.1 entry hmem)] at hsome
          exact absurd hsome (by simp)
        · have hlt := lt_of_not_lt_of_ne hnlt hne
          have hsome := h k'
          rw [findEntry, if_neg (Ne.symm hne), findEntry, if_pos rfl,
            findEntry_eq_none_of_precedes fun entry hmem ↦
              String.lt_trans hlt (hrest.1 entry hmem)] at hsome
          exact absurd hsome (by simp)
      subst hk
      have hv : v = v' := by
        have := h k
        simpa [findEntry] using this
      subst hv
      have htail : rest = rest' := by
        refine ih hrest.2 hrest'.2 fun key ↦ ?_
        by_cases hkey : key = k
        · subst hkey
          rw [findEntry_eq_none_of_precedes hrest.1, findEntry_eq_none_of_precedes hrest'.1]
        · have := h key
          rwa [findEntry, if_neg hkey, findEntry, if_neg hkey] at this
      rw [htail]

/-- **Extensionality.** Two indexes that answer every look-up alike are equal. -/
@[ext] theorem ext {a b : Index α} (h : ∀ key, a.get? key = b.get? key) : a = b := by
  obtain ⟨entriesA, ha⟩ := a
  obtain ⟨entriesB, hb⟩ := b
  have : entriesA = entriesB := entries_eq_of_find ha hb h
  subst this
  rfl

/-- Values are filed under different keys in either order. -/
theorem insert_comm (index : Index α) {key other : String} (hne : key ≠ other) (value next : α) :
    (index.insert key value).insert other next = (index.insert other next).insert key value := by
  ext k
  simp only [get?_insert]
  by_cases hkey : k = key
  · rw [hkey, if_neg hne, if_pos rfl, if_pos rfl]
  · rw [if_neg hkey, if_neg hkey]

end Index

end GameBridge
