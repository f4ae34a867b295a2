import GameBridge.Proofs.Disk.Containing
import GameBridge.Store

/-!
# Setting entries

Setting an entry either stores it or leaves the entries as they were; in both cases the other
entries are untouched. That is `Store.put_cases`, from which everything about a single step follows.

A sequence of steps needs one thing more. How a save ends depends on the folders of the disk and on
the room for the content, and the folders it made itself make no difference. So as long as there is
room, saving again ends in the same way, be it something else that is saved, and setting an entry
does not change whether the next one can be set: that is `Store.put_fst_put`. On a disk that is
nearly full the first of two entries can be stored and the second one not.
-/

namespace GameBridge

open Node (SameFolders)

/-! ## Places for files -/

namespace Disk

/-- Whether a file can be written at a path. -/
def takes (disk : Disk) (path : Path) : Bool :=
  match disk.slot path with
  | .error _ => false
  | .ok (place, name) => !disk.holdsFolder (place ++ [name]) && !path.endsWithSeparator

theorem takes_iff {disk : Disk} {path : Path} :
    disk.takes path = true ↔ ∃ place name, disk.slot path = .ok (place, name)
      ∧ disk.holdsFolder (place ++ [name]) = false ∧ path.endsWithSeparator = false := by
  rw [takes]
  cases disk.slot path with
  | error fault => simp
  | ok found =>
    obtain ⟨place, name⟩ := found
    dsimp only
    rw [Bool.and_eq_true, Bool.not_eq_true', Bool.not_eq_true']
    constructor
    · rintro ⟨hfree, hslash⟩
      exact ⟨place, name, rfl, hfree, hslash⟩
    · rintro ⟨place', name', hfound, hrest⟩
      obtain ⟨rfl, rfl⟩ := Prod.mk.inj (Except.ok.inj hfound)
      exact hrest

private theorem takes_of_takes {a b : Disk} (hab : SameFolders a b) {path : Path}
    (h : a.takes path = true) : b.takes path = true := by
  obtain ⟨place, name, hslot, hfree, hslash⟩ := takes_iff.mp h
  exact takes_iff.mpr ⟨place, name, slot_eq_of_within hab.within hslot,
    (hab _).symm.trans hfree, hslash⟩

theorem takes_of_sameFolders {a b : Disk} (hab : SameFolders a b) (path : Path) :
    a.takes path = b.takes path :=
  Bool.eq_iff_iff.mpr ⟨takes_of_takes hab, takes_of_takes hab.symm⟩

section Write

variable [Room] {disk written : Disk} {path : Path} {content : List UInt8}

/-- A file is written where the disk takes one, if there is room for the content. -/
theorem exists_write_iff :
    (∃ written, disk.write path content = .ok written)
      ↔ disk.takes path = true ∧ disk.roomFor path content = content := by
  simp only [write_eq_ok_iff, takes_iff]
  constructor
  · rintro ⟨written, place, name, hslot, hfree, hslash, hroom, -⟩
    exact ⟨⟨place, name, hslot, hfree, hslash⟩, hroom⟩
  · rintro ⟨⟨place, name, hslot, hfree, hslash⟩, hroom⟩
    exact ⟨_, place, name, hslot, hfree, hslash, hroom, rfl⟩

theorem takes_of_write (h : disk.write path content = .ok written) : disk.takes path = true :=
  (exists_write_iff.mp ⟨written, h⟩).1

theorem not_takes_or_roomFor_of_write {fault : DiskFault}
    (h : disk.write path content = .error fault) :
    disk.takes path = false ∨ disk.roomFor path content ≠ content := by
  rw [← Bool.not_eq_true, ← not_and_or, ← exists_write_iff, h]
  simp

/-! ## What there is room for -/

theorem roomFor_prefix (disk : Disk) (path : Path) (content : List UInt8) :
    disk.roomFor path content <+: content := by
  rw [roomFor]
  split
  · exact List.prefix_rfl
  · split
    · exact List.prefix_rfl
    · exact List.take_prefix ..

theorem roomFor_of_prefix {beginning : List UInt8}
    (h : beginning <+: disk.roomFor path content) :
    disk.roomFor path beginning = beginning := by
  rw [roomFor] at h ⊢
  split at h
  · rfl
  · split at h
    · rfl
    · exact List.take_of_length_le (h.length_le.trans (List.length_take_le ..))

theorem write_roomFor_iff :
    (∃ written, disk.write path (disk.roomFor path content) = .ok written)
      ↔ disk.takes path = true := by
  rw [exists_write_iff, roomFor_of_prefix List.prefix_rfl]
  exact and_iff_left rfl

theorem write_leftover (h : disk.takes path = true) :
    disk.write path (disk.roomFor path content) = .ok (disk.leftover path content) := by
  obtain ⟨written, hwrite⟩ := write_roomFor_iff.mpr h
  rw [leftover, hwrite]
  rfl

theorem leftover_of_not_takes (h : disk.takes path = false) :
    disk.leftover path content = disk := by
  rw [leftover]
  cases hwrite : disk.write path (disk.roomFor path content) with
  | error fault => rfl
  | ok written => exact absurd (write_roomFor_iff.mp ⟨written, hwrite⟩) (by simp [h])

theorem sameFolders_leftover (disk : Disk) (path : Path) (content : List UInt8) :
    SameFolders (disk.leftover path content) disk := by
  cases h : disk.takes path with
  | false => rw [leftover_of_not_takes h]; exact SameFolders.refl disk
  | true => exact sameFolders_of_write (write_leftover h)

/-! ## Moving -/

/-- A file that was just written can be moved to where the disk takes one. -/
private theorem exists_rename_iff {source target : Path}
    (h : disk.write source content = .ok written) :
    (∃ done, written.rename source target = .ok done) ↔ disk.takes target = true := by
  have hsame := sameFolders_of_write h
  obtain ⟨place, name, hslot, hfree, hslash, -, rfl⟩ := write_eq_ok_iff.mp h
  have hslot' := slot_eq_of_within hsame.symm.within hslot
  have hfile : (Node.place (.file content) disk (place ++ [name])).at? (place ++ [name])
      = some (.file content) := Node.at?_place_self (slot_eq_ok_iff.mp hslot).2.2.2.1
  rw [← takes_of_sameFolders hsame]
  simp only [rename_eq_ok_iff, takes_iff, hslash, Bool.false_or]
  constructor
  · rintro ⟨done, s, g, -, -, hg, -, hgoal, hnoSlash, -⟩
    exact ⟨g.1, g.2, hg, hgoal, hnoSlash⟩
  · rintro ⟨targetPlace, targetName, hg, hgoal, hnoSlash⟩
    exact ⟨_, (place, name), (targetPlace, targetName), content, hslot', hg, hfile, hgoal,
      hnoSlash, rfl⟩

theorem takes_of_rename {done : Disk} {source target : Path}
    (hwrite : disk.write source content = .ok written)
    (h : written.rename source target = .ok done) : disk.takes target = true :=
  (exists_rename_iff hwrite).mp ⟨done, h⟩

theorem takes_eq_false_of_rename {source target : Path} {fault : DiskFault}
    (hwrite : disk.write source content = .ok written)
    (h : written.rename source target = .error fault) : disk.takes target = false := by
  rw [Bool.eq_false_iff, ne_eq, ← exists_rename_iff hwrite, h]
  simp

end Write

end Disk

namespace Store

variable [Room]

/-! ## The steps of a save -/

/-- How far a save got, and what it came to. -/
inductive Steps (disk : Disk) (path : Path) (content : List UInt8) : Option SaveFault × Disk → Prop
  | folder {fault : DiskFault} {prepared : Disk}
    (hprepare : prepare disk path = (some fault, prepared)) :
    Steps disk path content (some .folder, prepared)
  | write {fault : DiskFault} {prepared : Disk} (hprepare : prepare disk path = (none, prepared))
    (hwrite : prepared.write (temporary path) content = .error fault) :
    Steps disk path content (some .write, prepared.leftover (temporary path) content)
  | commit {fault : DiskFault} {prepared written : Disk}
    (hprepare : prepare disk path = (none, prepared))
    (hwrite : prepared.write (temporary path) content = .ok written)
    (hrename : written.rename (temporary path) path = .error fault) :
    Steps disk path content (some .commit, written)
  | through {prepared written done : Disk} (hprepare : prepare disk path = (none, prepared))
    (hwrite : prepared.write (temporary path) content = .ok written)
    (hrename : written.rename (temporary path) path = .ok done) :
    Steps disk path content (none, done)

theorem steps_save (disk : Disk) (path : Path) (content : List UInt8) :
    Steps disk path content (save disk path content) := by
  rw [save]
  rcases hprepare : prepare disk path with ⟨_ | fault, prepared⟩
  · dsimp only
    cases hwrite : prepared.write (temporary path) content with
    | error fault => exact .write hprepare hwrite
    | ok written =>
      dsimp only
      cases hrename : written.rename (temporary path) path with
      | error fault => exact .commit hprepare hwrite hrename
      | ok done => exact .through hprepare hwrite hrename
  · exact .folder hprepare

/-! ## Saving again -/

/-- How a save ends on a disk that has the folder of the file. -/
def faultOf (disk : Disk) (path : Path) (content : List UInt8) : Option SaveFault :=
  if disk.takes (temporary path) = false ∨ disk.roomFor (temporary path) content ≠ content then
    some .write
  else if disk.takes path = false then some .commit
  else none

/-- A save that has its folder ends as the disk says, and leaves all folders where they are. -/
theorem save_of_prepare {disk prepared : Disk} {path : Path}
    (h : prepare disk path = (none, prepared)) (content : List UInt8) :
    (save disk path content).1 = faultOf prepared path content
      ∧ SameFolders prepared (save disk path content).2 := by
  have hsteps := steps_save disk path content
  generalize save disk path content = result at hsteps
  rw [faultOf]
  cases hsteps with
  | folder hprepare => exact absurd (Prod.mk.inj (hprepare.symm.trans h)).1 (by simp)
  | write hprepare hwrite =>
    obtain ⟨-, rfl⟩ := Prod.mk.inj (hprepare.symm.trans h)
    rw [if_pos (Disk.not_takes_or_roomFor_of_write hwrite)]
    exact ⟨rfl, (Disk.sameFolders_leftover _ _ _).symm⟩
  | commit hprepare hwrite hrename =>
    obtain ⟨-, rfl⟩ := Prod.mk.inj (hprepare.symm.trans h)
    obtain ⟨htakes, hroom⟩ := Disk.exists_write_iff.mp ⟨_, hwrite⟩
    rw [if_neg (by simp [htakes, hroom]), if_pos (Disk.takes_eq_false_of_rename hwrite hrename)]
    exact ⟨rfl, (Disk.sameFolders_of_write hwrite).symm⟩
  | through hprepare hwrite hrename =>
    obtain ⟨-, rfl⟩ := Prod.mk.inj (hprepare.symm.trans h)
    obtain ⟨htakes, hroom⟩ := Disk.exists_write_iff.mp ⟨_, hwrite⟩
    rw [if_neg (by simp [htakes, hroom]),
      if_neg (by simp [Disk.takes_of_rename hwrite hrename])]
    exact ⟨rfl, (Disk.sameFolders_of_write hwrite).symm.trans
      (Disk.sameFolders_of_rename hrename).symm⟩

/-- A save that does not get its folder ends there. -/
theorem save_of_not_prepare {disk prepared : Disk} {path : Path} {fault : DiskFault}
    (h : prepare disk path = (some fault, prepared)) (content : List UInt8) :
    save disk path content = (some .folder, prepared) := by
  rw [save, h]

omit [Room] in
/-- The folder of a file that was made is there on every disk with the same folders. -/
theorem prepare_of_sameFolders {disk prepared after : Disk} {path : Path}
    (h : prepare disk path = (none, prepared)) (hsame : SameFolders prepared after) :
    prepare after path = (none, after) := by
  rw [prepare] at h ⊢
  cases hparent : path.parent? with
  | none => rfl
  | some folder =>
    rw [hparent] at h
    exact Disk.makeFolders_of_sameFolders h hsame

omit [Room] in
/-- The folder of a file that could not be made cannot be made then either. -/
theorem prepare_again {disk prepared : Disk} {path : Path} {fault : DiskFault}
    (h : prepare disk path = (some fault, prepared)) :
    ∃ other, prepare prepared path = (some other, prepared) := by
  rw [prepare] at h ⊢
  cases hparent : path.parent? with
  | none =>
    rw [hparent] at h
    exact absurd (Prod.mk.inj h).1 (by simp)
  | some folder =>
    rw [hparent] at h
    exact (Disk.makeFolders_again h).2.2

/-- Whether the temporary file for a content finds room once the folders are made. -/
def HasRoom (disk : Disk) (path : Path) (content : List UInt8) : Prop :=
  (prepare disk path).2.roomFor (temporary path) content = content

instance (disk : Disk) (path : Path) (content : List UInt8) :
    Decidable (HasRoom disk path content) := inferInstanceAs (Decidable (_ = _))

/-- **Saving again.** A save ends like the one before it, whatever is saved, if there is room for
the one and the other. -/
theorem save_again {disk : Disk} {path : Path} {other next : List UInt8} (content : List UInt8)
    (hother : HasRoom disk path other) (hnext : HasRoom (save disk path content).2 path next) :
    (save (save disk path content).2 path next).1 = (save disk path other).1 := by
  rcases hprepare : prepare disk path with ⟨fault | fault, prepared⟩
  · obtain ⟨-, hsame⟩ := save_of_prepare hprepare content
    have hagain := prepare_of_sameFolders hprepare hsame
    rw [HasRoom, hprepare] at hother
    rw [HasRoom, hagain] at hnext
    rw [(save_of_prepare hagain next).1, (save_of_prepare hprepare other).1, faultOf, faultOf,
      hother, hnext, Disk.takes_of_sameFolders hsame, Disk.takes_of_sameFolders hsame]
    simp
  · obtain ⟨fault', hagain⟩ := prepare_again hprepare
    rw [save_of_not_prepare hprepare content, save_of_not_prepare hprepare other,
      save_of_not_prepare hagain next]

section After

variable {disk after : Disk} {path : Path} {content : List UInt8}

theorem prepare_after (h : save disk path content = (none, after)) :
    prepare after path = (none, after) := by
  rcases hprepare : prepare disk path with ⟨fault | fault, prepared⟩
  · have hsame := (save_of_prepare hprepare content).2
    rw [h] at hsame
    exact prepare_of_sameFolders hprepare hsame
  · rw [save_of_not_prepare hprepare content] at h
    exact absurd (Prod.mk.inj h).1 (by simp)

/-- After a save that went through the next one goes through, or there is no room for it. -/
theorem save_after (h : save disk path content = (none, after)) (next : List UInt8) :
    (save after path next).1
      = if after.roomFor (temporary path) next = next then none else some .write := by
  rcases hprepare : prepare disk path with ⟨fault | fault, prepared⟩
  · obtain ⟨hfault, hsame⟩ := save_of_prepare hprepare content
    rw [h] at hfault hsame
    rw [(save_of_prepare (prepare_after h) next).1, faultOf, ← Disk.takes_of_sameFolders hsame,
      ← Disk.takes_of_sameFolders hsame]
    rw [faultOf] at hfault
    grind
  · rw [save_of_not_prepare hprepare content] at h
    exact absurd (Prod.mk.inj h).1 (by simp)

end After

/-! ## One entry -/

/-- **Setting an entry of a store with a file** is saving the file with the entry. -/
theorem put_of_file {store : Store} {path : Path} (hbacking : store.backing = .file path)
    (disk : Disk) (key value : String) :
    (∃ after, save disk path (Json.indexBytes (store.entries.insert key value)) = (none, after)
        ∧ store.put disk key value
          = (.ok (), ⟨store.entries.insert key value, .file path⟩, after)) ∨
      ∃ fault after,
        save disk path (Json.indexBytes (store.entries.insert key value)) = (some fault, after)
          ∧ store.put disk key value = (.error (.writeFailed key fault.message), store, after) := by
  rw [put, hbacking]
  dsimp only
  rcases save disk path (Json.indexBytes (store.entries.insert key value)) with ⟨_ | fault, after⟩
  · exact Or.inl ⟨after, rfl, rfl⟩
  · exact Or.inr ⟨fault, after, rfl, rfl⟩

/-- **Setting an entry of a store without a file** does nothing to the disk. -/
theorem disk_put_of_memory {store : Store} {failing : Bool}
    (hbacking : store.backing = .memory failing) (disk : Disk) (key value : String) :
    (store.put disk key value).2.2 = disk := by
  rw [put, hbacking]
  rcases failing with _ | _
  · rfl
  · rfl

section Put

variable (store : Store) (disk : Disk) (key value : String)

theorem put_cases :
    (∃ after, store.put disk key value
        = (.ok (), { store with entries := store.entries.insert key value }, after)) ∨
      ∃ failure after, store.put disk key value = (.error failure, store, after) := by
  rcases hbacking : store.backing with failing | path
  · cases failing with
    | true => exact Or.inr ⟨_, disk, by rw [put, hbacking]⟩
    | false => exact Or.inl ⟨disk, by rw [put, hbacking]⟩
  · rcases put_of_file hbacking disk key value with ⟨after, -, hput⟩ | ⟨fault, after, -, hput⟩
    · exact Or.inl ⟨after, hput⟩
    · exact Or.inr ⟨_, after, hput⟩

/-- A store in which an entry could be set has that entry, and is the same otherwise. -/
theorem store_of_put {store after : Store} {disk now : Disk} {key value : String}
    (h : store.put disk key value = (.ok (), after, now)) :
    after = { store with entries := store.entries.insert key value } := by
  obtain ⟨last, hput⟩ | ⟨failure, last, hput⟩ := put_cases store disk key value
  · exact (Prod.mk.inj (Prod.mk.inj (h.symm.trans hput)).2).1
  · exact absurd (Prod.mk.inj (h.symm.trans hput)).1 (by simp)

theorem get?_put_of_ne {other : String} (h : other ≠ key) :
    (store.put disk key value).2.1.get? other = store.get? other := by
  rcases put_cases store disk key value with ⟨after, hput⟩ | ⟨failure, after, hput⟩
  · rw [hput, get?, get?, Index.get?_insert, if_neg h]
  · rw [hput]

variable {store disk key value}

theorem get?_put_self (h : (store.put disk key value).1 = .ok ()) :
    (store.put disk key value).2.1.get? key = some value := by
  rcases put_cases store disk key value with ⟨after, hput⟩ | ⟨failure, after, hput⟩
  · rw [hput, get?, Index.get?_insert, if_pos rfl]
  · rw [hput] at h
    exact absurd h (by simp)

end Put

/-! ## One entry after the other -/

private theorem put_fst_of_file {store : Store} {path : Path}
    (hbacking : store.backing = .file path) (disk : Disk) (key value : String) :
    (store.put disk key value).1 =
      match (save disk path (Json.indexBytes (store.entries.insert key value))).1 with
      | none => .ok ()
      | some fault => .error (.writeFailed key fault.message) := by
  rcases put_of_file hbacking disk key value with ⟨after, hsave, hput⟩ | ⟨fault, after, hsave, hput⟩
  · rw [hsave, hput]
  · rw [hsave, hput]

theorem put_fst_eq_ok_iff_of_file {store : Store} {path : Path}
    (hbacking : store.backing = .file path) (disk : Disk) (key value : String) :
    (store.put disk key value).1 = .ok ()
      ↔ (save disk path (Json.indexBytes (store.entries.insert key value))).1 = none := by
  rw [put_fst_of_file hbacking]
  cases (save disk path (Json.indexBytes (store.entries.insert key value))).1 <;> simp

private theorem put_snd_of_file {store : Store} {path : Path}
    (hbacking : store.backing = .file path) (disk : Disk) (key value : String) :
    (store.put disk key value).2.1.backing = .file path
      ∧ (store.put disk key value).2.2
        = (save disk path (Json.indexBytes (store.entries.insert key value))).2 := by
  rcases put_of_file hbacking disk key value with ⟨after, hsave, hput⟩ | ⟨fault, after, hsave, hput⟩
  · rw [hsave, hput]
    exact ⟨rfl, rfl⟩
  · rw [hsave, hput]
    exact ⟨hbacking, rfl⟩

/-- Whether the disk has room for the file of a store with one more entry. Without a file there is
nothing to find room for. -/
def Fits (store : Store) (disk : Disk) (key value : String) : Prop :=
  match store.backing with
  | .memory _ => True
  | .file path => HasRoom disk path (Json.indexBytes (store.entries.insert key value))

theorem fits_of_file {store : Store} {path : Path} (hbacking : store.backing = .file path)
    (disk : Disk) (key value : String) :
    store.Fits disk key value
      ↔ HasRoom disk path (Json.indexBytes (store.entries.insert key value)) := by
  rw [Fits, hbacking]

/-- Whether the disk has room for the file of a store, whatever becomes of the one and the other. -/
def Roomy (store : Store) : Prop :=
  ∀ path, store.backing = .file path → ∀ disk content, HasRoom disk path content

theorem Roomy.fits {store after : Store} (h : store.Roomy)
    (hbacking : after.backing = store.backing) (disk : Disk) (key value : String) :
    after.Fits disk key value := by
  rcases hafter : after.backing with failing | path
  · simp only [Fits, hafter]
  · exact (fits_of_file hafter disk key value).mpr (h path (hbacking.symm.trans hafter) disk _)

theorem Roomy.put {store : Store} (h : store.Roomy) (disk : Disk) (key value : String) :
    (store.put disk key value).2.1.Roomy := by
  obtain ⟨after, hput⟩ | ⟨failure, after, hput⟩ := put_cases store disk key value
  · rw [hput]
    exact h
  · rw [hput]
    exact h

theorem Roomy.failing {store : Store} (h : store.Roomy) (fail : Bool) :
    (store.failing fail).Roomy := by
  intro path hbacking
  rw [Store.failing] at hbacking
  cases hkeeps : store.backing with
  | memory _ =>
    rw [hkeeps] at hbacking
    exact absurd hbacking (by simp)
  | file other =>
    rw [hkeeps] at hbacking
    exact h path hbacking

theorem roomy_of_unlimited (h : ∀ disk place, Room.limit disk place = none) (store : Store) :
    store.Roomy := by
  intro path _ disk content
  rw [HasRoom, Disk.roomFor]
  split
  · rfl
  · simp only [h]

/-- **One entry after the other.** Whether and why an entry cannot be set is not changed by setting
another one before, whether or not that could be set, as long as there is room. -/
theorem put_fst_put {store : Store} {disk : Disk} {key next : String} (first value : String)
    (hfits : store.Fits disk key next)
    (hnext : (store.put disk first value).2.1.Fits (store.put disk first value).2.2 key next) :
    ((store.put disk first value).2.1.put (store.put disk first value).2.2 key next).1
      = (store.put disk key next).1 := by
  rcases hbacking : store.backing with failing | path
  · cases failing with
    | true => simp only [put, hbacking]
    | false => simp only [put, hbacking]
  · obtain ⟨hafter, hdisk⟩ := put_snd_of_file hbacking disk first value
    rw [fits_of_file hbacking] at hfits
    rw [fits_of_file hafter, hdisk] at hnext
    rw [put_fst_of_file hafter, put_fst_of_file hbacking, hdisk, save_again _ hfits hnext]

/-- After an entry that was set the next one can be set just if there is room for it. -/
theorem put_fst_after {store after : Store} {disk now : Disk} {key value : String}
    (h : store.put disk key value = (.ok (), after, now)) (other next : String) :
    (after.put now other next).1 = .ok () ↔ after.Fits now other next := by
  rcases hbacking : store.backing with failing | path
  · cases failing with
    | true =>
      rw [put, hbacking] at h
      exact absurd (Prod.mk.inj h).1 (by simp)
    | false =>
      rw [store_of_put h]
      simp [put, Fits, hbacking]
  · obtain ⟨now', hsave, hput⟩ | ⟨fault, now', -, hput⟩ := put_of_file hbacking disk key value
    · obtain ⟨rfl, rfl⟩ := Prod.mk.inj (Prod.mk.inj (hput.symm.trans h)).2
      rw [put_fst_eq_ok_iff_of_file rfl, fits_of_file rfl, HasRoom, save_after hsave,
        prepare_after hsave]
      simp
    · exact absurd (Prod.mk.inj (hput.symm.trans h)).1 (by simp)

end Store

end GameBridge
