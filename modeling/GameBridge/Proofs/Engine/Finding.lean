import GameBridge.Proofs.Catalog.Identity
import GameBridge.Proofs.Engine.Contents

/-!
# Finding a game in the caches

Whatever a cache of an engine holds was made from rows with numbers, in a refresh or when a launch
asked for one game. So its keys are decimal texts of numbers at any time, and a game in it is found
under every spelling of its number and under no other text (`foundBySpelling_run`).

With what is known of canonical forms and of catalogs, this says that the canonical form is a
complete invariant: it identifies just the texts that name the same game.
-/

namespace GameBridge

theorem numbered_merge {α : Type} {entries fresh : Index α} (h : entries.Numbered)
    (hfresh : fresh.Numbered) (policy : Staleness) : (policy.merge entries fresh).Numbered := by
  cases policy with
  | sticky => exact h.insertAll hfresh
  | prune => exact hfresh

theorem numbered_ownedContents (policy : Staleness) (lists : List (List OwnershipRow)) :
    (ownedContents policy lists).Numbered := by
  rw [← foldl_merge_classify]
  exact List.foldlRecOn lists _ Index.numbered_empty fun _ h rows _ ↦
    numbered_merge h (numbered_classify rows) policy

theorem numbered_installedContents (policy : Staleness) {changes : List InstalledChange}
    (h : ∀ entry, .lookedUp entry ∈ changes → ∃ n, entry.id = Decimal.ofInt64 n) :
    (installedContents policy changes).Numbered := by
  refine List.foldlRecOn changes _ Index.numbered_empty fun entries hentries change hchange ↦ ?_
  cases change with
  | refreshed rows isFile => exact numbered_merge hentries (numbered_resolve rows isFile) policy
  | lookedUp entry =>
    obtain ⟨n, hn⟩ := h entry hchange
    rw [InstalledChange.apply, hn]
    exact hentries.insert n entry

namespace Engine

/-! ## Entries of single games -/

theorem mem_given {α : Type} {times : Nat} {answer : Except Fault α} {a : α}
    (h : a ∈ given times answer) : answer = .ok a := by
  cases answer with
  | error fault => exact absurd h List.not_mem_nil
  | ok b => rw [List.eq_of_mem_replicate h]

/-- What is left behind in a run is left behind by one of its events. -/
theorem exists_of_mem_collect [Room] {α : Type} {leaves : Engine → Event → List α} {a : α}
    {engine : Engine} {events : List Event} (h : a ∈ collect leaves engine events) :
    ∃ before event, a ∈ leaves before event := by
  induction events generalizing engine with
  | nil => exact absurd h List.not_mem_nil
  | cons event rest ih =>
    rcases List.mem_append.mp h with hfirst | hrest
    · exact ⟨engine, event, hfirst⟩
    · exact ih hrest

theorem exists_number_of_lookUp {engine : Engine} {id : String} {entry : InstalledEntry}
    (h : engine.lookUp id = .ok entry) : ∃ n, entry.id = Decimal.ofInt64 n := by
  rw [lookUp] at h
  split at h
  · exact absurd h (by simp)
  · exact absurd h (by simp)
  · rename_i row _
    split at h
    · exact absurd h (by simp)
    · exact absurd h (by simp)
    · rename_i found hfound
      obtain rfl := Except.ok.inj h
      obtain ⟨-, -, -, -, -, -, -, rfl⟩ := resolveRow_eq_ok_some_iff.mp hfound
      exact ⟨row.gameId, rfl⟩

theorem exists_number_of_installedChanges [Room] {engine : Engine} {event : Event}
    {entry : InstalledEntry} (h : .lookedUp entry ∈ engine.installedChanges event) :
    ∃ n, entry.id = Decimal.ofInt64 n := by
  rcases List.mem_append.mp h with hlist | hsingle
  · -- a list is no single game
    have hanswer := mem_given hlist
    rw [installedAnswer] at hanswer
    cases hrows : engine.world.source.answer engine.world.source.installations with
    | error fault => rw [hrows] at hanswer; exact absurd hanswer (by simp [Except.map])
    | ok rows => rw [hrows] at hanswer; exact absurd hanswer (by simp [Except.map])
  · split at hsingle
    · rename_i raw _
      have hanswer := mem_given hsingle
      rw [lookUpAnswer] at hanswer
      cases hentry : engine.lookUp (GameId.canonical raw) with
      | error fault => rw [hentry] at hanswer; exact absurd hanswer (by simp [Except.map])
      | ok found =>
        rw [hentry] at hanswer
        obtain rfl := InstalledChange.lookedUp.inj (Except.ok.inj hanswer)
        exact exists_number_of_lookUp hentry
    · exact absurd hsingle List.not_mem_nil

/-! ## Runs -/

/-- **Caches.** After any run, the games in both caches are found under the spellings of their
numbers, and under nothing else. -/
theorem foundBySpelling_run [Room] (settings : Settings) (store : Store) (world : World)
    (events : List Event) :
    ((start settings store world).run events).owned.entries.FoundBySpelling CatalogEntry.id
      ∧ ((start settings store world).run events).installed.entries.FoundBySpelling
        InstalledEntry.id := by
  rw [(owned_run_start settings store world events).1,
    (installed_run_start settings store world events).1]
  refine ⟨(filedBy_ownedContents _ _).foundBySpelling (numbered_ownedContents _ _),
    (filedBy_installedContents _ _).foundBySpelling (numbered_installedContents _ ?_)⟩
  intro entry hentry
  obtain ⟨before, event, hleft⟩ := exists_of_mem_collect hentry
  exact exists_number_of_installedChanges hleft

end Engine

/-- **A complete invariant.** Two texts have the same canonical form just if they are equal after
trimming or spell one number. A canonical form is its own, and so is every decimal text. Therefore
every game of a catalog is found under all spellings of its number and under no other text, and it
is in the catalog just if one of its rows yields an entry. The caches of an engine have this
property after any run. -/
theorem GameId.canonical_completeInvariant [Room] :
    (∀ raw other, canonical raw = canonical other
        ↔ Text.trim raw = Text.trim other ∨ ∃ n, Spells raw n ∧ Spells other n)
      ∧ (∀ raw, canonical (canonical raw) = canonical raw)
      ∧ (∀ n, canonical (Decimal.ofInt64 n) = Decimal.ofInt64 n)
      ∧ (∀ rows, (classify rows).FoundBySpelling CatalogEntry.id
        ∧ ∀ raw, ((classify rows).get? (canonical raw)).isSome = true
          ↔ ∃ row ∈ rows, Spells raw row.id ∧ ∃ entry, row.Yields entry)
      ∧ (∀ isFile rows, (resolve rows isFile).FoundBySpelling InstalledEntry.id
        ∧ ∀ raw, ((resolve rows isFile).get? (canonical raw)).isSome = true
          ↔ ∃ row ∈ rows, Spells raw row.gameId ∧ ∃ entry, row.Yields isFile entry)
      ∧ ∀ settings store world events,
        let engine := (Engine.start settings store world).run events
        engine.owned.entries.FoundBySpelling CatalogEntry.id
          ∧ engine.installed.entries.FoundBySpelling InstalledEntry.id := by
  refine ⟨fun _ _ ↦ canonical_eq_iff, canonical_canonical, canonical_ofInt64, fun rows ↦ ⟨?_, ?_⟩,
    fun isFile rows ↦ ⟨?_, ?_⟩, Engine.foundBySpelling_run⟩
  · exact (filedBy_classify rows).foundBySpelling (numbered_classify rows)
  · exact filesByNumber_fileOwned.isSome_get?_canonical_iff rows
  · exact (filedBy_resolve rows isFile).foundBySpelling (numbered_resolve rows isFile)
  · exact (filesByNumber_fileInstalled isFile).isSome_get?_canonical_iff rows

end GameBridge
