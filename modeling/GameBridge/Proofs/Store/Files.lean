import GameBridge.Capacity
import GameBridge.Proofs.Json.Files
import GameBridge.Proofs.Store.Replacing

/-!
# A store and its file

A store with a file is opened, its entries are set and looked up, and between any two of these
steps the disk may be changed by others. Along such a run memory is what was read when the store was
opened and what was set since. Every entry that is set brings the file up to the memory, however the
file was changed before, since a save writes all entries and reading them back gives the same ones.

An entry that cannot be set changes nothing in memory. On the disk it may leave folders behind, and
a temporary file. What the path refers to stays as it was, with two exceptions: the folders that
were made can complete the way of a path that goes back from a folder that was missing, and a file
that is its own temporary file is cut when the disk has no room for all entries.
-/

namespace GameBridge.Store

/-! ## Runs -/

/-- A store that is open. -/
structure Session where
  /-- The store. -/
  store : Store
  /-- The entries that the file held when it was opened. -/
  loaded : Index String
  /-- The entries that were set since, the last one first. -/
  sets : List (String × String)

/-- The disk, and the store if it is open. -/
structure Shelf where
  /-- The disk. -/
  disk : Disk
  /-- The store. -/
  session : Option Session

/-- What can happen to a store and its file. -/
inductive FileEvent where
  /-- The store is opened. If that fails, the one that was open before is kept. -/
  | start
  | set (key value : String)
  | get (key : String)
  /-- The disk is changed by others. -/
  | change (disk : Disk)

/-- Whether an event is one of the store's own. -/
def FileEvent.isOwn : FileEvent → Bool
  | .change _ => false
  | _ => true

namespace Shelf

/-- The store was not opened yet. -/
def closed (disk : Disk) : Shelf := ⟨disk, none⟩

/-- Opens the store. -/
def start (path : Path) (shelf : Shelf) : Shelf :=
  match ofFile shelf.disk path with
  | .error _ => shelf
  | .ok store => { shelf with session := some ⟨store, store.entries, []⟩ }

/-- Sets an entry, if the store is open. -/
def set [Room] (shelf : Shelf) (key value : String) : Shelf :=
  match shelf.session with
  | none => shelf
  | some session =>
    match session.store.put shelf.disk key value with
    | (.error _, store, disk) => ⟨disk, some { session with store }⟩
    | (.ok (), store, disk) =>
      ⟨disk, some { session with store, sets := (key, value) :: session.sets }⟩

/-- The shelf after an event. -/
def perform [Room] (path : Path) (shelf : Shelf) : FileEvent → Shelf
  | .start => shelf.start path
  | .set key value => shelf.set key value
  | .get _ => shelf
  | .change disk => { shelf with disk }

/-- The shelf after a sequence of events. -/
def run [Room] (path : Path) (shelf : Shelf) (events : List FileEvent) : Shelf :=
  events.foldl (perform path) shelf

end Shelf

/-! ## Memory -/

/-- Memory is what was loaded and what was set since. -/
structure Session.Sound (path : Path) (session : Session) : Prop where
  backing : session.store.backing = .file path
  get? : ∀ key, session.store.get? key
    = (findEntry key session.sets).or (session.loaded.get? key)

namespace Shelf

variable {path : Path} {shelf : Shelf}

/-- The store is sound, if it is open. -/
def Sound (path : Path) (shelf : Shelf) : Prop := ∀ session ∈ shelf.session, session.Sound path

theorem sound_start (h : shelf.Sound path) : (shelf.start path).Sound path := by
  rw [start]
  cases hopen : ofFile shelf.disk path with
  | error failure => exact h
  | ok store =>
    intro session hsession
    obtain rfl := Option.some.inj hsession
    refine ⟨?_, fun key ↦ rfl⟩
    rw [ofFile] at hopen
    cases hload : load shelf.disk path with
    | error failure => rw [hload] at hopen; exact absurd hopen (by simp [Except.map])
    | ok entries =>
      rw [hload] at hopen
      rw [← Except.ok.inj hopen]

theorem sound_set [Room] (h : shelf.Sound path) (key value : String) :
    (shelf.set key value).Sound path := by
  rw [set]
  cases hsession : shelf.session with
  | none => exact h
  | some session =>
    have hsound := h session hsession
    dsimp only
    rcases put_cases session.store shelf.disk key value with ⟨disk, hput⟩ | ⟨failure, disk, hput⟩
    · rw [hput]
      intro after hafter
      obtain rfl := Option.some.inj hafter
      refine ⟨hsound.backing, fun other ↦ ?_⟩
      have hother := hsound.get? other
      rw [Store.get?] at hother ⊢
      dsimp only
      rw [Index.get?_insert, findEntry]
      by_cases hkey : other = key
      · rw [if_pos hkey, if_pos hkey, Option.some_or]
      · rw [if_neg hkey, if_neg hkey, hother]
    · rw [hput]
      intro after hafter
      obtain rfl := Option.some.inj hafter
      exact ⟨hsound.backing, hsound.get?⟩

theorem sound_perform [Room] (h : shelf.Sound path) (event : FileEvent) :
    (shelf.perform path event).Sound path := by
  cases event with
  | start => exact sound_start h
  | set key value => exact sound_set h key value
  | get key => exact h
  | change disk => exact h

theorem sound_run [Room] (path : Path) (disk : Disk) (events : List FileEvent) :
    ((closed disk).run path events).Sound path := by
  refine List.foldlRecOn events (perform path) ?_ fun shelf h event _ ↦ sound_perform h event
  intro session hsession
  exact absurd hsession (by simp [closed])

end Shelf

/-! ## The file -/

theorem ofFile_of_nodeAt? {disk : Disk} {path : Path} {entries : Index String}
    (h : disk.nodeAt? path = some (.file (Json.indexBytes entries))) :
    ofFile disk path = .ok ⟨entries, .file path⟩ := by
  rw [ofFile, load, Disk.contentAt_eq_ok_iff.mpr h]
  dsimp only
  rw [parse?_indexBytes]
  rfl

theorem nodeAt?_of_put [Room] {store after : Store} {disk now : Disk} {path : Path}
    {key value : String} (hbacking : store.backing = .file path)
    (hput : store.put disk key value = (.ok (), after, now)) :
    now.nodeAt? path = some (.file (Json.indexBytes after.entries))
      ∧ (path.extension ≠ temporaryExtension → now.nodeAt? (temporary path) = none) := by
  rcases put_of_file hbacking disk key value with ⟨done, hsave, hdone⟩ | ⟨fault, done, hsave, hdone⟩
  · obtain ⟨rfl, rfl⟩ := Prod.mk.inj (Prod.mk.inj (hdone.symm.trans hput)).2
    exact nodeAt?_of_save hsave
  · exact absurd (Prod.mk.inj (hdone.symm.trans hput)).1 (by simp)

/-- **An entry that was set** is in the file with all others, and there is no temporary file. -/
theorem ofFile_of_put [Room] {store after : Store} {disk now : Disk} {path : Path}
    {key value : String} (hbacking : store.backing = .file path)
    (hput : store.put disk key value = (.ok (), after, now)) :
    ofFile now path = .ok after
      ∧ (path.extension ≠ temporaryExtension → now.contains (temporary path) = false) := by
  obtain ⟨hfile, htemporary⟩ := nodeAt?_of_put hbacking hput
  refine ⟨?_, fun hextension ↦ ?_⟩
  · rw [ofFile_of_nodeAt? hfile, store_of_put hput, hbacking]
  · rw [Disk.contains_eq_isSome_nodeAt?, htemporary hextension]
    rfl

/-- **An entry that cannot be set** changes nothing in memory, and leaves at the path what is there
once the folders are made. -/
theorem nodeAt?_of_put_fails [Room] {store after : Store} {disk now : Disk} {path : Path}
    {key value : String} {failure : Failure} (hbacking : store.backing = .file path)
    (hput : store.put disk key value = (.error failure, after, now)) :
    after = store ∧ (path.extension ≠ temporaryExtension ∨ store.Fits disk key value →
      now.nodeAt? path = (prepare disk path).2.nodeAt? path) := by
  rcases put_of_file hbacking disk key value with ⟨done, hsave, hdone⟩ | ⟨fault, done, hsave, hdone⟩
  · exact absurd (Prod.mk.inj (hdone.symm.trans hput)).1 (by simp)
  · obtain ⟨rfl, rfl⟩ := Prod.mk.inj (Prod.mk.inj (hdone.symm.trans hput)).2
    rw [fits_of_file hbacking]
    exact ⟨rfl, nodeAt?_of_save_fails hsave⟩

/-- The text that the file holds under a key, which a store that is opened would have. -/
def onDisk? (disk : Disk) (path : Path) (key : String) : Option String :=
  (ofFile disk path).toOption.bind fun store ↦ store.get? key

theorem onDisk?_of_ofFile {store : Store} {disk : Disk} {path : Path}
    (h : ofFile disk path = .ok store) (key : String) : onDisk? disk path key = store.get? key := by
  rw [onDisk?, h]
  rfl

theorem onDisk?_eq_some_iff {disk : Disk} {path : Path} {key value : String} :
    onDisk? disk path key = some value ↔ ∃ content entries,
      disk.nodeAt? path = some (.file content) ∧ parse? content = some entries
        ∧ entries.get? key = some value := by
  simp only [← Disk.contentAt_eq_ok_iff]
  rw [onDisk?, ofFile, load]
  rcases disk.contentAt path with fault | content
  · cases fault <;> simp [Except.map, Except.toOption, Store.get?]
  · rcases hparse : parse? content with _ | entries
    · simp [Except.map, Except.toOption, hparse]
    · simp [Except.map, Except.toOption, hparse, Store.get?]

theorem onDisk?_of_nodeAt? {disk now : Disk} {path : Path}
    (h : now.nodeAt? path = disk.nodeAt? path) (key : String) :
    onDisk? now path key = onDisk? disk path key := by
  refine Option.ext fun value ↦ ?_
  rw [onDisk?_eq_some_iff, onDisk?_eq_some_iff, h]

namespace Shelf

variable {path : Path} {shelf : Shelf}

@[simp] theorem disk_start (path : Path) (shelf : Shelf) :
    (shelf.start path).disk = shelf.disk := by
  rw [start]
  cases ofFile shelf.disk path <;> rfl

theorem start_of_error {failure : Failure} (h : ofFile shelf.disk path = .error failure) :
    shelf.start path = shelf := by
  rw [start, h]

/-- A file that cannot be read stays as it is: without a store that is open there is nothing to set
entries of, and opening it again fails again. -/
theorem run_of_error [Room] {failure : Failure} (h : ofFile shelf.disk path = .error failure)
    (hclosed : shelf.session = none) {events : List FileEvent}
    (hown : ∀ event ∈ events, event.isOwn = true) : shelf.run path events = shelf := by
  induction events with
  | nil => rfl
  | cons event rest ih =>
    have hevent : shelf.perform path event = shelf := by
      cases event with
      | start => exact start_of_error h
      | set key value => rw [perform, set, hclosed]
      | get key => rfl
      | change disk => exact absurd (hown _ List.mem_cons_self) (by simp [FileEvent.isOwn])
    rw [run, List.foldl_cons, hevent]
    exact ih fun other hmem ↦ hown other (List.mem_cons_of_mem _ hmem)

/-- **A store agrees with its file**, at any point of any run. An entry that is looked up is the one
set last since the store was opened, or else the one loaded then. After an entry was set, the file
holds just what memory holds, and there is no temporary file. An entry that cannot be set changes
neither memory nor what the path refers to, apart from what the folders do that were made, and
unless the file is its own temporary file and the disk has no room for it. Opening changes nothing
on the disk, and a file that cannot be read stays until others change it. -/
theorem files_run [Room] (path : Path) (disk : Disk) (events : List FileEvent) :
    let shelf := (closed disk).run path events
    (∀ session ∈ shelf.session,
        (∀ key, session.store.get? key
          = (findEntry key session.sets).or (session.loaded.get? key))
        ∧ (∀ key value after now, session.store.put shelf.disk key value = (.ok (), after, now) →
            ofFile now path = .ok after
              ∧ (path.extension ≠ temporaryExtension → now.contains (temporary path) = false))
        ∧ ∀ key value failure after now,
            session.store.put shelf.disk key value = (.error failure, after, now) →
              after = session.store
                ∧ (path.extension ≠ temporaryExtension ∨ session.store.Fits shelf.disk key value →
                  now.nodeAt? path = (prepare shelf.disk path).2.nodeAt? path
                    ∧ (shelf.disk.contains path = true ∨ hasFolder shelf.disk path = true
                      ∨ ".." ∉ path.names → now.nodeAt? path = shelf.disk.nodeAt? path)))
      ∧ (shelf.start path).disk = shelf.disk
      ∧ ∀ failure, ofFile shelf.disk path = .error failure →
          shelf.start path = shelf
            ∧ (shelf.session = none → ∀ more : List FileEvent,
                (∀ event ∈ more, event.isOwn = true) → shelf.run path more = shelf) := by
  intro shelf
  have hsound : shelf.Sound path := sound_run path disk events
  refine ⟨fun session hsession ↦ ?_, disk_start path shelf, fun failure hopen ↦ ?_⟩
  · obtain ⟨hbacking, hget⟩ := hsound session hsession
    refine ⟨hget, fun key value after now hput ↦ ofFile_of_put hbacking hput, ?_⟩
    intro key value failure after now hput
    obtain ⟨hmemory, hnode⟩ := nodeAt?_of_put_fails hbacking hput
    exact ⟨hmemory, fun h ↦ ⟨hnode h, fun hkept ↦ (hnode h).trans (nodeAt?_prepare hkept)⟩⟩
  · exact ⟨start_of_error hopen, fun hclosed _ hown ↦ run_of_error hopen hclosed hown⟩

/-! ## Something in the way -/

/-- A store that was opened before there was a file, and a folder that takes the place of the file
after an entry was set: the entry and no temporary file are there before, and what cannot be set
after leaves the folder and the entry. -/
theorem files_blocked :
    let path := "d/c.json"
    let opened := (closed .emptyFolder).run path [.start]
    let blocked : Disk := .folder [("d", .folder [("c.json", .emptyFolder)])]
    let shelf := (closed .emptyFolder).run path [.start, .set "k" "v", .change blocked]
    (∃ session ∈ opened.session, ∃ after now,
        session.store.put opened.disk "k" "v" = (.ok (), after, now)
          ∧ ofFile now path = .ok after ∧ now.contains (temporary path) = false)
      ∧ ∃ session ∈ shelf.session, ∃ failure after now,
          session.store.put shelf.disk "k" "w" = (.error failure, after, now)
            ∧ after.get? "k" = some "v"
            ∧ now.nodeAt? path = shelf.disk.nodeAt? path := by
  intro path opened blocked shelf
  have hopened : opened.session.isSome = true := by decide +kernel
  have hshelf : shelf.session.isSome = true := by decide +kernel
  obtain ⟨first, hfirst⟩ := Option.isSome_iff_exists.mp hopened
  obtain ⟨session, hsession⟩ := Option.isSome_iff_exists.mp hshelf
  obtain ⟨-, hset, -⟩ := (files_run path .emptyFolder [.start]).1 first hfirst
  obtain ⟨hget, -, hfails⟩ :=
    (files_run path .emptyFolder [.start, .set "k" "v", .change blocked]).1 session hsession
  refine ⟨⟨first, hfirst, ?_⟩, session, hsession, ?_⟩
  · have hput : (opened.session.map fun session ↦ (session.store.put opened.disk "k" "v").1)
        = some (.ok ()) := by decide +kernel
    rw [hfirst] at hput
    refine ⟨_, _, Prod.ext (Option.some.inj hput) rfl, ?_⟩
    obtain ⟨hfile, htemporary⟩ := hset "k" "v" _ _ (Prod.ext (Option.some.inj hput) rfl)
    exact ⟨hfile, htemporary (by decide +kernel)⟩
  · have hput : (shelf.session.map fun session ↦ (session.store.put shelf.disk "k" "w").1)
        = some (.error (.writeFailed "k" SaveFault.commit.message)) := by decide +kernel
    have hentry : (shelf.session.map fun session ↦
        (findEntry "k" session.sets).or (session.loaded.get? "k")) = some (some "v") := by
      decide +kernel
    rw [hsession] at hput hentry
    obtain ⟨hmemory, hnode⟩ := hfails "k" "w" _ _ _ (Prod.ext (Option.some.inj hput) rfl)
    refine ⟨_, _, _, Prod.ext (Option.some.inj hput) rfl, ?_,
      (hnode (Or.inl (by decide +kernel))).2 (Or.inl (by decide +kernel))⟩
    rw [hmemory, hget]
    exact Option.some.inj hentry

/-- An entry that cannot be set, and a path that goes back from a missing folder: the folder is
made, and the path comes to refer to a file that was there before. And a file that is its own
temporary file, on a disk with room for four bytes, which are left of it. -/
theorem files_back :
    (let path := "a/../c.json"
      let disk : Disk := .folder [("c.json", .file []), ("c.tmp", .emptyFolder)]
      let shelf := (closed disk).run path [.start]
      let after := shelf.set "k" "v"
      (shelf.session.map fun session ↦ (session.store.put shelf.disk "k" "v").1)
          = some (.error (.writeFailed "k" SaveFault.write.message))
        ∧ shelf.disk.contentAt path = .error .notFound
        ∧ after.disk.contentAt path = .ok [])
      ∧ let _ : Room := .ofCapacity 4
        let path := "c.tmp"
        let content := Json.indexBytes .empty
        let shelf := (closed (.folder [("c.tmp", .file content)])).run path [.start]
        let after := shelf.set "k" "v"
        (shelf.session.map fun session ↦ (session.store.put shelf.disk "k" "v").1)
            = some (.error (.writeFailed "k" SaveFault.write.message))
          ∧ shelf.disk.contentAt path = .ok content
          ∧ after.disk.contentAt path = .ok (Text.bytes "\x7b\n  ") := by
  decide +kernel

end Shelf

end GameBridge.Store
