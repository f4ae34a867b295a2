import GameBridge.Proofs.Disk.Folders
import GameBridge.Proofs.Disk.Names

/-!
# Making the containing folder again

A path that can be followed leads through its containing folder. So where the containing folder
cannot be made, the folder cannot be made either, whatever was made before that came out: making
folders is tried again with the same outcome. `makeFolders_again` says so.
-/

namespace GameBridge.Disk

open Node (SameFolders)

/-! ## The text of a path -/

theorem checkText_eq_ok_iff {path : Path} :
    checkText path = .ok () ↔ path.toList.contains '\x00' = false
      ∧ path.utf8ByteSize ≤ maxPathBytes ∧ path ≠ "" := by
  rw [checkText]
  by_cases hzero : path.toList.contains '\x00' = true
  · rw [if_pos hzero]
    exact iff_of_false (by simp) fun h ↦ absurd hzero (by simp only [h.1, Bool.false_eq_true,
      not_false_eq_true])
  by_cases hlong : maxPathBytes < path.utf8ByteSize
  · rw [if_neg hzero, if_pos hlong]
    exact iff_of_false (by simp) fun h ↦ Nat.not_le.mpr hlong h.2.1
  by_cases hempty : path = ""
  · rw [if_neg hzero, if_neg hlong, if_pos hempty]
    exact iff_of_false (by simp) fun h ↦ h.2.2 hempty
  · rw [if_neg hzero, if_neg hlong, if_neg hempty]
    exact iff_of_true rfl ⟨Bool.eq_false_iff.mpr hzero, Nat.not_lt.mp hlong, hempty⟩

theorem checkText_of_beginning {path parent : Path} (h : checkText path = .ok ())
    (hbegin : parent.toList <+: path.toList) (hne : parent ≠ "") : checkText parent = .ok () := by
  obtain ⟨hzero, hlong, -⟩ := checkText_eq_ok_iff.mp h
  obtain ⟨rest, hrest⟩ := hbegin
  have hpath : path = parent ++ String.ofList rest := by
    apply String.toList_inj.mp
    rw [String.toList_append, String.toList_ofList, hrest]
  refine checkText_eq_ok_iff.mpr ⟨?_, ?_, hne⟩
  · rw [← hrest, List.contains_eq_any_beq, List.any_append, Bool.or_eq_false_iff] at hzero
    rw [List.contains_eq_any_beq]
    exact hzero.1
  · rw [hpath, String.utf8ByteSize_append] at hlong
    omega

/-! ## The way to a path -/

/-- Whoever follows the names of a path to a folder comes through the containing folder. -/
private theorem isFolder_of_follow {disk : Disk} {path parent : Path} {rest : List String}
    {goal : Route} (htext : checkText path = .ok ()) (hparent : path.parent? = some parent)
    (hne : parent ≠ "") (h : disk.follow [] (parent.names ++ rest) = .ok goal)
    (hgoal : disk.holdsFolder goal = true) : disk.isFolder parent = true := by
  rw [follow_append] at h
  cases hplace : disk.follow [] parent.names with
  | error fault => rw [hplace] at h; exact absurd h (by simp [Except.bind])
  | ok place =>
    rw [hplace] at h
    exact isFolder_iff.mpr ⟨checkText_of_beginning htext (Path.prefix_of_parent? hparent) hne,
      place, hplace, holdsFolder_of_follow h hgoal⟩

theorem isFolder_parent {disk : Disk} {path parent : Path} (hparent : path.parent? = some parent)
    (hne : parent ≠ "") (h : disk.isFolder path = true) : disk.isFolder parent = true := by
  obtain ⟨rest, hnames, -⟩ := Path.names_of_parent? hparent
  obtain ⟨htext, goal, hfollow, hgoal⟩ := isFolder_iff.mp h
  rw [hnames] at hfollow
  exact isFolder_of_follow htext hparent hne hfollow hgoal

theorem isFolder_parent_of_slot {disk : Disk} {path parent : Path} {found : Route × String}
    (hparent : path.parent? = some parent) (hne : parent ≠ "") (h : disk.slot path = .ok found) :
    disk.isFolder parent = true := by
  obtain ⟨place, name⟩ := found
  obtain ⟨rest, hnames, hrest, -⟩ := Path.names_of_parent? hparent
  obtain ⟨htext, -, hfollow, hplace, -⟩ := slot_eq_ok_iff.mp h
  rw [hnames, List.dropLast_append_of_ne_nil hrest] at hfollow
  exact isFolder_of_follow htext hparent hne hfollow hplace

theorem isFolder_parent_of_makeFolder {disk made : Disk} {path parent : Path}
    (hparent : path.parent? = some parent) (hne : parent ≠ "")
    (h : disk.makeFolder path = .ok made) : disk.isFolder parent = true := by
  cases hslot : disk.slot path with
  | error fault => rw [makeFolder, hslot] at h; exact absurd h (by simp [bind, Except.bind])
  | ok found => exact isFolder_parent_of_slot hparent hne hslot

/-! ## Making folders that cannot be made -/

/-- Making a folder is over with the first try, unless the folder above is missing. -/
private theorem makeFolders_of_error {disk : Disk} {path : Path} {fault : DiskFault}
    (hne : path ≠ "") (h : disk.makeFolder path = .error fault) (hfault : fault ≠ .notFound) :
    disk.makeFolders path = (if disk.isFolder path then none else some fault, disk) := by
  obtain ⟨above, hchain⟩ := exists_chain_eq_cons path
  rw [makeFolders, hchain, makeChain, if_neg hne, h]
  cases fault with
  | notFound => exact absurd rfl hfault
  | notFolder => rfl
  | isFolder => rfl
  | occupied => rfl
  | nameTooLong => rfl
  | zeroCharacter => rfl
  | noSpace => rfl

/-- If the folder above is missing, it is made first. -/
private theorem makeFolders_of_notFound {disk : Disk} {path parent : Path}
    (hparent : path.parent? = some parent) (hne : path ≠ "")
    (h : disk.makeFolder path = .error .notFound) :
    disk.makeFolders path =
      match disk.makeFolders parent with
      | (some fault, above) => (some fault, above)
      | (none, above) =>
        match above.makeFolder path with
        | .ok made => (none, made)
        | .error fault => (if above.isFolder path then none else some fault, above) := by
  rw [makeFolders, Path.chain_of_parent? hparent, makeChain, if_neg hne, h]
  rfl

private theorem makeFolders_of_notFound_of_top {disk : Disk} {path : Path}
    (hparent : path.parent? = none) (hne : path ≠ "")
    (h : disk.makeFolder path = .error .notFound) :
    disk.makeFolders path = (some .notFound, disk) := by
  rw [makeFolders, Path.chain_of_top hparent, makeChain, if_neg hne, h]
  rfl

theorem makeFolders_of_makeFolder {disk made : Disk} {path : Path} (hne : path ≠ "")
    (h : disk.makeFolder path = .ok made) : disk.makeFolders path = (none, made) := by
  obtain ⟨above, hchain⟩ := exists_chain_eq_cons path
  rw [makeFolders, hchain, makeChain, if_neg hne, h]

/-- A disk that refuses a folder and does not have it refuses to make it. -/
private theorem makeFolders_of_refused {disk : Disk} {path : Path} {fault : DiskFault}
    (hne : path ≠ "") (h : disk.makeFolder path = .error fault)
    (hmissing : disk.isFolder path = false)
    (habove : ∀ parent, path.parent? = some parent → (disk.makeFolders parent).2 = disk) :
    ∃ other, disk.makeFolders path = (some other, disk) := by
  by_cases hfault : fault = .notFound
  · rw [hfault] at h
    cases hparent : path.parent? with
    | none => exact ⟨_, makeFolders_of_notFound_of_top hparent hne h⟩
    | some parent =>
      have hdisk := habove parent hparent
      rw [makeFolders_of_notFound hparent hne h]
      rcases hmake : disk.makeFolders parent with ⟨result, above⟩
      rw [hmake] at hdisk
      obtain rfl : above = disk := hdisk
      cases result with
      | some other => exact ⟨other, rfl⟩
      | none => exact ⟨.notFound, by simp only [h, hmissing, Bool.false_eq_true, if_false]⟩
  · rw [makeFolders_of_error hne h hfault, hmissing]
    exact ⟨fault, rfl⟩

private theorem isFolder_eq_false_of_notFound {disk : Disk} {path : Path}
    (h : disk.makeFolder path = .error .notFound) : disk.isFolder path = false := by
  refine Bool.eq_false_iff.mpr fun hfolder ↦ ?_
  rcases makeFolder_of_isFolder hfolder with hmake | hmake
  · exact absurd (h.symm.trans hmake) (by simp)
  · exact absurd (h.symm.trans hmake) (by simp)

/-- Making folders fails in one of three ways: no folder was made, or those above could not be made,
or those above are there and the last one is refused. -/
private theorem makeFolders_fails {disk after : Disk} {path : Path} {fault : DiskFault}
    (h : disk.makeFolders path = (some fault, after)) :
    path ≠ "" ∧ ((after = disk ∧ disk.isFolder path = false) ∨
      ∃ parent, path.parent? = some parent ∧
        ((∃ other, disk.makeFolders parent = (some other, after)) ∨
          disk.makeFolders parent = (none, after) ∧ after.isFolder path = false
            ∧ ∃ next, after.makeFolder path = .error next)) := by
  have hne : path ≠ "" := by
    rintro rfl
    rw [makeFolders_empty] at h
    exact absurd (Prod.mk.inj h).1 (by simp)
  -- a fault is only reported where there is no folder
  have hreported : ∀ {now : Disk} {found : DiskFault},
      (if now.isFolder path then none else some found, now) = (some fault, after) →
        after = now ∧ now.isFolder path = false := by
    intro now found heq
    obtain ⟨hresult, rfl⟩ := Prod.mk.inj heq
    refine ⟨rfl, Bool.eq_false_iff.mpr fun hfolder ↦ ?_⟩
    rw [if_pos hfolder] at hresult
    exact absurd hresult (by simp)
  refine ⟨hne, ?_⟩
  cases hmake : disk.makeFolder path with
  | ok made =>
    rw [makeFolders_of_makeFolder hne hmake] at h
    exact absurd (Prod.mk.inj h).1 (by simp)
  | error first =>
    by_cases hfirst : first = .notFound
    · rw [hfirst] at hmake
      cases hparent : path.parent? with
      | none =>
        rw [makeFolders_of_notFound_of_top hparent hne hmake] at h
        exact Or.inl ⟨(Prod.mk.inj h).2.symm, isFolder_eq_false_of_notFound hmake⟩
      | some parent =>
        refine Or.inr ⟨parent, rfl, ?_⟩
        rw [makeFolders_of_notFound hparent hne hmake] at h
        rcases habove : disk.makeFolders parent with ⟨other | other, above⟩
        · rw [habove] at h
          dsimp only at h
          cases hnext : above.makeFolder path with
          | ok made =>
            rw [hnext] at h
            exact absurd (Prod.mk.inj h).1 (by simp)
          | error next =>
            rw [hnext] at h
            obtain ⟨rfl, hmissing⟩ := hreported h
            exact Or.inr ⟨rfl, hmissing, next, hnext⟩
        · rw [habove] at h
          obtain ⟨-, rfl⟩ := Prod.mk.inj h
          exact Or.inl ⟨other, rfl⟩
    · rw [makeFolders_of_error hne hmake hfirst] at h
      exact Or.inl (hreported h)

/-- **Trying again.** Where folders could not be made the last one is missing, and making them again
fails without making any. -/
theorem makeFolders_again {disk after : Disk} {path : Path} {fault : DiskFault}
    (h : disk.makeFolders path = (some fault, after)) :
    path ≠ "" ∧ after.isFolder path = false
      ∧ ∃ other, after.makeFolders path = (some other, after) := by
  obtain ⟨hne, ⟨rfl, hmissing⟩ | ⟨parent, hparent, ⟨other, habove⟩ |
    ⟨habove, hmissing, next, hnext⟩⟩⟩ := makeFolders_fails h
  · exact ⟨hne, hmissing, fault, h⟩
  · -- the folder above is still missing, so there is no place for this one
    obtain ⟨hparentNe, hparentMissing, again, hagain⟩ := makeFolders_again habove
    have hno : ¬after.isFolder parent = true := by simp [hparentMissing]
    have hmissing : after.isFolder path = false :=
      Bool.eq_false_iff.mpr fun hfolder ↦ hno (isFolder_parent hparent hparentNe hfolder)
    refine ⟨hne, hmissing, ?_⟩
    cases hnext : after.makeFolder path with
    | ok made => exact absurd (isFolder_parent_of_makeFolder hparent hparentNe hnext) hno
    | error next =>
      refine makeFolders_of_refused hne hnext hmissing fun parent' hparent' ↦ ?_
      obtain rfl := Option.some.inj (hparent.symm.trans hparent')
      rw [hagain]
  · have hstay := makeFolders_of_sameFolders habove (SameFolders.refl after)
    refine ⟨hne, hmissing, makeFolders_of_refused hne hnext hmissing fun parent' hparent' ↦ ?_⟩
    obtain rfl := Option.some.inj (hparent.symm.trans hparent')
    rw [hstay]
termination_by path.length
decreasing_by exact Path.length_of_parent? hparent

end GameBridge.Disk
