import GameBridge.Proofs.Disk.Looking
import GameBridge.Proofs.Store.Saving

/-!
# What a save leaves at the path

The temporary file lies beside the file: the two paths lead to the same folder, and differ in the
last name unless the file itself has the extension of temporary files. A save that goes through puts
the content at the path and leaves no temporary file. A save that fails can have made folders and
can have written the temporary file, or the beginning that there was room for. The temporary file
does not change what the path refers to, unless it is the file itself, and nor do new folders,
except that a path that goes back from a missing folder may come to refer to something when that
folder is made.
-/

namespace GameBridge

open Node (SameFolders)

namespace Store

/-! ## The two paths -/

/-- **Side by side.** Where the temporary file has a slot, the path ends in the same folder, under
another name if its extension is another one. -/
theorem ends_of_temporary {disk : Disk} {path : Path} {place : Route} {last : String}
    (htemporary : disk.slot (temporary path) = .ok (place, last)) :
    ∃ name dots, disk.Ends path place name dots
      ∧ (path.extension ≠ temporaryExtension → last ≠ name) := by
  obtain ⟨-, hlast, hfollow, hplace, hdot, hup, -⟩ := Disk.slot_eq_ok_iff.mp htemporary
  have hnone : '/' ∉ temporaryExtension.toList := by decide
  rw [temporary] at hlast hfollow
  rcases path.names_replaceExtension hnone with
    ⟨hdots, hself⟩ | hback | ⟨name, replaced, dots, hdots, hnames, hne, hne', hreplaced, hextension⟩
  · rw [hself] at hlast
    exact absurd (Path.getLast?_names_of_dots hdots hlast) (not_or.mpr ⟨hdot, hup⟩)
  · rw [hback, List.getLast?_concat] at hlast
    exact absurd (Option.some.inj hlast).symm hup
  · rw [hreplaced, List.getLast?_concat] at hlast
    rw [hreplaced, List.dropLast_concat] at hfollow
    obtain rfl := Option.some.inj hlast
    exact ⟨name, dots, ⟨⟨_, hnames, hfollow⟩, hdots, hplace, hne, hne'⟩, hextension⟩

/-! ## Saves that fail -/

/-- Whether the folder of a file is there, so that a save makes none. -/
def hasFolder (disk : Disk) (path : Path) : Bool :=
  path.parent?.all fun folder ↦ folder = "" || disk.isFolder folder

theorem prepare_of_hasFolder {disk : Disk} {path : Path} (h : hasFolder disk path = true) :
    prepare disk path = (none, disk) := by
  rw [prepare]
  rw [hasFolder] at h
  cases hparent : path.parent? with
  | none => rfl
  | some folder =>
    rw [hparent, Option.all_some, Bool.or_eq_true, decide_eq_true_eq] at h
    rcases h with rfl | hfolder
    · exact Disk.makeFolders_empty disk
    · exact Disk.makeFolders_of_isFolder hfolder

theorem hasFolder_of_contains {disk : Disk} {path : Path} (h : disk.contains path = true) :
    hasFolder disk path = true := by
  rw [hasFolder, Option.all_eq_true]
  intro folder hparent
  rw [Bool.or_eq_true, decide_eq_true_eq, or_iff_not_imp_left]
  intro hne
  obtain ⟨goal, hfind⟩ := Disk.exists_find_of_contains h
  exact Disk.isFolder_parent_of_find hparent hne hfind

/-- Making the folder of a file does not change what the path refers to, if it refers to something,
the folder is there, or the path does not go back. -/
theorem nodeAt?_prepare {disk : Disk} {path : Path}
    (h : disk.contains path = true ∨ hasFolder disk path = true ∨ ".." ∉ path.names) :
    (prepare disk path).2.nodeAt? path = disk.nodeAt? path := by
  rcases h with hcontains | hfolder | hup
  · rw [prepare_of_hasFolder (hasFolder_of_contains hcontains)]
  · rw [prepare_of_hasFolder hfolder]
  · rw [prepare]
    cases hparent : path.parent? with
    | none => rfl
    | some folder => exact Disk.nodeAt?_makeFolders_parent hparent hup

section Fails

variable [Room] {disk after : Disk} {path : Path} {content : List UInt8}

theorem nodeAt?_of_write_temporary (hwrite : disk.write (temporary path) content = .ok after)
    (h : path.extension ≠ temporaryExtension ∨ disk.takes path = false) :
    after.nodeAt? path = disk.nodeAt? path := by
  have hsame := Disk.sameFolders_of_write hwrite
  obtain ⟨place, last, hslot, hfree, -, -, rfl⟩ := Disk.write_eq_ok_iff.mp hwrite
  obtain ⟨name, dots, hends, hother⟩ := ends_of_temporary hslot
  refine (hends.of_sameFolders hsame.symm).nodeAt?_congr hends fun htext hshort ↦ ?_
  by_cases hne : name = last
  · subst hne
    have hrefused : disk.takes path = false := h.resolve_left fun hextension ↦ hother hextension rfl
    -- neither the new file nor an old one in its place is a folder, which the path needs
    have hneeds : Disk.needsFolder path dots = true := by
      refine (Bool.not_eq_false _).mp fun hneeds ↦ ?_
      rw [Disk.needsFolder, Bool.or_eq_false_iff, Bool.not_eq_false', List.isEmpty_iff] at hneeds
      obtain ⟨rfl, hslash⟩ := hneeds
      have htakes : disk.takes path = true :=
        Disk.takes_iff.mpr ⟨place, name, hends.slot_of_nil htext hshort, hfree, hslash⟩
      exact absurd htakes (by simp [hrefused])
    rw [Node.at?_place_self hends.folder, hneeds]
    cases hold : disk.at? (place ++ [name]) with
    | none => rfl
    | some node =>
      cases node with
      | file old => rfl
      | folder children =>
        exact absurd (Node.holdsFolder_iff.mpr ⟨children, hold⟩) (by simp [hfree])
  · rw [Node.at?_place_sibling _ hne]

theorem nodeAt?_leftover {fault : DiskFault}
    (hwrite : disk.write (temporary path) content = .error fault)
    (h : path.extension ≠ temporaryExtension ∨ disk.roomFor (temporary path) content = content) :
    (disk.leftover (temporary path) content).nodeAt? path = disk.nodeAt? path := by
  cases htakes : disk.takes (temporary path) with
  | false => rw [Disk.leftover_of_not_takes htakes]
  | true =>
    refine nodeAt?_of_write_temporary (Disk.write_leftover htakes) (Or.inl (h.resolve_right ?_))
    exact (Disk.not_takes_or_roomFor_of_write hwrite).resolve_left (by simp [htakes])

/-- **A save that fails** leaves at the path what is there once the folders are made, except where
the file is its own temporary file and there is no room. -/
theorem nodeAt?_of_save_fails {fault : SaveFault}
    (hsave : save disk path content = (some fault, after))
    (h : path.extension ≠ temporaryExtension ∨ HasRoom disk path content) :
    after.nodeAt? path = (prepare disk path).2.nodeAt? path := by
  have hsteps := steps_save disk path content
  rw [hsave] at hsteps
  rw [HasRoom] at h
  cases hsteps with
  | folder hprepare => rw [hprepare]
  | write hprepare hwrite =>
    rw [hprepare] at h ⊢
    exact nodeAt?_leftover hwrite h
  | commit hprepare hwrite hrename =>
    rw [hprepare]
    exact nodeAt?_of_write_temporary hwrite
      (Or.inr (Disk.takes_eq_false_of_rename hwrite hrename))

end Fails

/-! ## Saves that go through -/

theorem at?_of_move {disk after : Disk} {place : Route} {last name : String}
    {content : List UInt8} (hfolder : disk.holdsFolder place = true)
    (hfile : disk.at? (place ++ [last]) = some (.file content))
    (hmove : after = if place ++ [last] = place ++ [name] then disk
      else Node.place (.file content) (Node.remove disk (place ++ [last])) (place ++ [name])) :
    after.at? (place ++ [name]) = some (.file content)
      ∧ (last ≠ name → after.at? (place ++ [last]) = none) := by
  by_cases hsame : last = name
  · rw [hsame, if_pos rfl] at hmove
    rw [hmove, ← hsame]
    exact ⟨hfile, fun hne ↦ absurd rfl hne⟩
  · have hroute : place ++ [last] ≠ place ++ [name] := by simpa using hsame
    have hnoFolder : disk.holdsFolder (place ++ [last]) = false :=
      Node.holdsFolder_eq_false fun children hchildren ↦ by simp [hfile] at hchildren
    have hremoved : Node.holdsFolder (Node.remove disk (place ++ [last])) place = true := by
      rw [Node.sameFolders_remove hnoFolder]
      exact hfolder
    rw [if_neg hroute] at hmove
    rw [hmove]
    refine ⟨Node.at?_place_self hremoved, fun hne ↦ ?_⟩
    rw [Node.at?_place_sibling _ hne, Node.at?_remove_self]

/-- **A save that goes through** puts the content at the path. There is no temporary file then,
unless the file has the extension of temporary files itself. -/
theorem nodeAt?_of_save [Room] {disk after : Disk} {path : Path} {content : List UInt8}
    (hsave : save disk path content = (none, after)) :
    after.nodeAt? path = some (.file content)
      ∧ (path.extension ≠ temporaryExtension → after.nodeAt? (temporary path) = none) := by
  have hsteps := steps_save disk path content
  rw [hsave] at hsteps
  cases hsteps with
  | @through prepared written _ hprepare hwrite hrename =>
    have hwritten := (Disk.sameFolders_of_write hwrite).symm
    have hafter := (Disk.sameFolders_of_rename hrename).symm
    obtain ⟨place, last, hslot, hfree, -, -, hplaced⟩ := Disk.write_eq_ok_iff.mp hwrite
    obtain ⟨name, dots, hends, hother⟩ := ends_of_temporary hslot
    have hfile : written.at? (place ++ [last]) = some (.file content) := by
      rw [hplaced]
      exact Node.at?_place_self hends.folder
    have hslotWritten := Disk.slot_eq_of_within hwritten.within hslot
    have hendsWritten := hends.of_sameFolders hwritten
    obtain ⟨s, g, moved, hs, hg, hmoved, -, hslash, hmove⟩ := Disk.rename_eq_ok_iff.mp hrename
    obtain rfl := Except.ok.inj (hs.symm.trans hslotWritten)
    obtain ⟨rfl, rfl⟩ := hendsWritten.slot_eq hg
    obtain rfl : moved = content := by
      rw [hfile] at hmoved
      exact (Node.file.inj (Option.some.inj hmoved)).symm
    rw [Bool.or_eq_false_iff] at hslash
    obtain ⟨hpath, htemporary⟩ := at?_of_move hendsWritten.folder hfile hmove
    refine ⟨?_, fun hextension ↦ ?_⟩
    · rw [Disk.nodeAt?_of_slot (Disk.slot_eq_of_within hafter.within hg), hpath, hslash.2]
      rfl
    · rw [Disk.nodeAt?_of_slot (Disk.slot_eq_of_within hafter.within hslotWritten),
        htemporary (hother hextension)]
      rfl

end Store

end GameBridge
