import GameBridge.Disk

/-!
# The folders of a disk

Where a path leads depends on the disk only through its folders: every name on the way has to be
one. Replacing and removing files leaves all folders where they are, so a path that could be
followed before can be followed after, and it leads to the same place.

This is what makes a second save as good as the first: `slot_eq_of_within` for the files, and
`makeFolders_of_sameFolders` for the containing folder, which is made once and found from then on.
-/

namespace GameBridge

/-! ## Looking up routes -/

namespace Node

@[simp] theorem at?_nil (node : Node) : node.at? [] = some node := by
  cases node <;> rfl

@[simp] theorem at?_file_cons (content : List UInt8) (name : String) (rest : Route) :
    (Node.file content).at? (name :: rest) = none := rfl

@[simp] theorem at?_folder_cons (children : List (String × Node)) (name : String) (rest : Route) :
    (Node.folder children).at? (name :: rest) = (findEntry name children).bind (·.at? rest) := by
  rw [at?, look]
  cases findEntry name children <;> rfl

theorem at?_append (node : Node) (a b : Route) :
    node.at? (a ++ b) = (node.at? a).bind (·.at? b) := by
  induction a generalizing node with
  | nil => simp
  | cons name rest ih =>
    cases node with
    | file content => simp
    | folder children =>
      rw [List.cons_append, at?_folder_cons, at?_folder_cons]
      cases findEntry name children with
      | none => rfl
      | some child => exact ih child

/-- Whether there is a folder at the end of a route. -/
def holdsFolder (node : Node) (route : Route) : Bool := (node.at? route).any isFolder

theorem holdsFolder_iff {node : Node} {route : Route} :
    node.holdsFolder route = true ↔ ∃ children, node.at? route = some (.folder children) := by
  rw [holdsFolder]
  cases h : node.at? route with
  | none => simp
  | some child => cases child <;> simp [isFolder]

theorem holdsFolder_eq_false {node : Node} {route : Route}
    (h : ∀ children, node.at? route ≠ some (.folder children)) :
    node.holdsFolder route = false := by
  rw [Bool.eq_false_iff, ne_eq, holdsFolder_iff]
  rintro ⟨children, hchildren⟩
  exact h children hchildren

theorem holdsFolder_file (content : List UInt8) (route : Route) :
    (Node.file content).holdsFolder route = false := by
  cases route <;> rfl

theorem holdsFolder_folder_nil (children : List (String × Node)) :
    (Node.folder children).holdsFolder [] = true := rfl

theorem holdsFolder_folder_cons (children : List (String × Node)) (name : String) (rest : Route) :
    (Node.folder children).holdsFolder (name :: rest)
      = (findEntry name children).any (·.holdsFolder rest) := by
  rw [holdsFolder, at?_folder_cons]
  cases findEntry name children <;> rfl

theorem findEntry_eraseEntry (name k : String) (children : List (String × Node)) :
    findEntry k (eraseEntry name children) = if k = name then none else findEntry k children := by
  induction children with
  | nil => simp [eraseEntry, findEntry]
  | cons head rest ih =>
    obtain ⟨k', v⟩ := head
    by_cases hk' : name = k'
    · rw [eraseEntry, if_pos hk', ih, findEntry]
      by_cases hk : k = name
      · rw [if_pos hk, if_pos hk]
      · rw [if_neg hk, if_neg hk, if_neg fun e ↦ hk (e.trans hk'.symm)]
    · rw [eraseEntry, if_neg hk', findEntry, findEntry, ih]
      by_cases hk : k = k'
      · rw [if_pos hk, if_pos hk, if_neg fun e ↦ hk' (e.symm.trans hk)]
      · rw [if_neg hk, if_neg hk]

section Place

variable {new : Node} {children : List (String × Node)} {name : String}

theorem place_of_some {child : Node} (rest : Route) (h : findEntry name children = some child) :
    place new (.folder children) (name :: rest)
      = .folder (insertEntry name (place new child rest) children) := by
  rw [place]
  exact h

theorem place_of_none (h : findEntry name children = none) :
    place new (.folder children) [name] = .folder (insertEntry name new children) := by
  unfold place
  rw [h]

theorem place_of_missing (next : String) (rest : Route) (h : findEntry name children = none) :
    place new (.folder children) (name :: next :: rest) = .folder children := by
  unfold place
  rw [h]

/-- What is put under a name of a folder is found there. -/
theorem at?_place_self {node : Node} {route : Route} (h : node.holdsFolder route = true) :
    (place new node (route ++ [name])).at? (route ++ [name]) = some new := by
  induction route generalizing node with
  | nil =>
    cases node with
    | file content => exact absurd h (by simp [holdsFolder_file])
    | folder children =>
      rw [List.nil_append]
      cases hchild : findEntry name children with
      | none => simp [place_of_none hchild, findEntry_insertEntry]
      | some child => simp [place_of_some [] hchild, findEntry_insertEntry, place]
  | cons first rest ih =>
    cases node with
    | file content => exact absurd h (by simp [holdsFolder_file])
    | folder children =>
      rw [holdsFolder_folder_cons] at h
      cases hchild : findEntry first children with
      | none => simp [hchild] at h
      | some child =>
        rw [hchild] at h
        rw [List.cons_append, place_of_some _ hchild, at?_folder_cons, findEntry_insertEntry,
          if_pos rfl]
        exact ih h

end Place

/-! ## Files come and go, folders stay -/

/-- Every folder of the one disk is a folder of the other. -/
def FoldersWithin (a b : Node) : Prop :=
  ∀ route, a.holdsFolder route = true → b.holdsFolder route = true

/-- Two disks with folders at the same routes. -/
def SameFolders (a b : Node) : Prop := ∀ route, a.holdsFolder route = b.holdsFolder route

namespace SameFolders

variable {a b c : Node}

theorem refl (a : Node) : SameFolders a a := fun _ ↦ rfl

theorem symm (h : SameFolders a b) : SameFolders b a := fun route ↦ (h route).symm

theorem trans (hab : SameFolders a b) (hbc : SameFolders b c) : SameFolders a c :=
  fun route ↦ (hab route).trans (hbc route)

theorem within (h : SameFolders a b) : FoldersWithin a b := fun route hroute ↦ h route ▸ hroute

end SameFolders

/-- Where there is no folder, putting a node there changes no folder but those of the new node. -/
private theorem holdsFolder_place (new : Node) {node : Node} {route : Route}
    (h : node.holdsFolder route = false) (q : Route) :
    (place new node route).holdsFolder q = node.holdsFolder q ∨
      ∃ rest, (place new node route).holdsFolder q = new.holdsFolder rest
        ∧ node.holdsFolder q = false := by
  induction route generalizing node q with
  | nil =>
    cases node with
    | file old => exact Or.inr ⟨q, by rw [place], holdsFolder_file old q⟩
    | folder children => exact absurd h (by simp [holdsFolder_folder_nil])
  | cons name rest ih =>
    cases node with
    | file old => exact Or.inl rfl
    | folder children =>
      rw [holdsFolder_folder_cons] at h
      cases hchild : findEntry name children with
      | some child =>
        rw [hchild] at h
        rw [place_of_some rest hchild]
        cases q with
        | nil => exact Or.inl rfl
        | cons k q =>
          rw [holdsFolder_folder_cons, holdsFolder_folder_cons, findEntry_insertEntry]
          by_cases hk : k = name
          · rw [if_pos hk, hk, hchild]
            exact ih h q
          · rw [if_neg hk]
            exact Or.inl rfl
      | none =>
        cases rest with
        | nil =>
          rw [place_of_none hchild]
          cases q with
          | nil => exact Or.inl rfl
          | cons k q =>
            rw [holdsFolder_folder_cons, holdsFolder_folder_cons, findEntry_insertEntry]
            by_cases hk : k = name
            · rw [if_pos hk, hk, hchild]
              exact Or.inr ⟨q, rfl, rfl⟩
            · rw [if_neg hk]
              exact Or.inl rfl
        | cons next rest =>
          rw [place_of_missing next rest hchild]
          exact Or.inl rfl

/-- Putting a node where there is no folder hides none. -/
theorem foldersWithin_place (new : Node) {node : Node} {route : Route}
    (h : node.holdsFolder route = false) : FoldersWithin node (place new node route) := by
  intro q hq
  rcases holdsFolder_place new h q with heq | ⟨rest, -, hfalse⟩
  · rwa [heq]
  · exact absurd hq (by simp [hfalse])

/-- Putting a file where there is no folder makes none either. -/
theorem sameFolders_place_file (content : List UInt8) {node : Node} {route : Route}
    (h : node.holdsFolder route = false) : SameFolders (place (.file content) node route) node := by
  intro q
  rcases holdsFolder_place (.file content) h q with heq | ⟨rest, heq, hfalse⟩
  · exact heq
  · rw [heq, hfalse, holdsFolder_file]

theorem sameFolders_remove {node : Node} {route : Route} (h : node.holdsFolder route = false) :
    SameFolders (node.remove route) node := by
  intro q
  induction route generalizing node q with
  | nil => cases node <;> rfl
  | cons name rest ih =>
    cases node with
    | file content => rfl
    | folder children =>
      rw [holdsFolder_folder_cons] at h
      cases rest with
      | nil =>
        rw [remove]
        cases q with
        | nil => rfl
        | cons k q =>
          rw [holdsFolder_folder_cons, holdsFolder_folder_cons, findEntry_eraseEntry]
          by_cases hk : k = name
          · rw [if_pos hk, hk]
            cases hchild : findEntry name children with
            | none => rfl
            | some child =>
              rw [hchild] at h
              cases child with
              | file content => exact (holdsFolder_file content q).symm
              | folder below => exact absurd h (by simp [holdsFolder_folder_nil])
          · rw [if_neg hk]
      | cons next rest =>
        rw [remove]
        cases hchild : findEntry name children with
        | none => rfl
        | some child =>
          rw [hchild] at h
          cases q with
          | nil => rfl
          | cons k q =>
            rw [holdsFolder_folder_cons, holdsFolder_folder_cons, findEntry_insertEntry]
            by_cases hk : k = name
            · rw [if_pos hk, hk, hchild]
              exact ih h q
            · rw [if_neg hk]

end Node

namespace Disk

open Node (FoldersWithin SameFolders)

/-! ## Following paths -/

theorem follow_append (disk : Disk) (place : Route) (a b : List String) :
    disk.follow place (a ++ b) = (disk.follow place a).bind (disk.follow · b) := by
  induction a generalizing place with
  | nil => rfl
  | cons name rest ih =>
    rw [List.cons_append, follow, follow]
    split
    · split
      · exact ih place
      · split
        · exact ih place.dropLast
        · split
          · rfl
          · split
            · exact ih (place ++ [name])
            · rfl
    · rfl

/-- Names are followed from one folder to another. -/
theorem holdsFolder_of_follow {disk : Disk} {place goal : Route} {names : List String}
    (h : disk.follow place names = .ok goal) (hgoal : disk.holdsFolder goal = true) :
    disk.holdsFolder place = true := by
  cases names with
  | nil =>
    rw [follow, Except.ok.injEq] at h
    rwa [h]
  | cons name rest =>
    rw [follow] at h
    split at h
    · rename_i children hplace
      exact Node.holdsFolder_iff.mpr ⟨children, hplace⟩
    · exact absurd h (by simp)

/-- A name in a folder is one in every disk with the same folders, if a folder has that name. -/
private theorem isSome_findEntry_of_holdsFolder {disk : Disk} {place : Route} {name : String}
    {children : List (String × Node)} (hplace : disk.at? place = some (.folder children))
    (h : disk.holdsFolder (place ++ [name]) = true) : (findEntry name children).isSome = true := by
  obtain ⟨below, hbelow⟩ := Node.holdsFolder_iff.mp h
  rw [Node.at?_append, hplace, Option.bind_some, Node.at?_folder_cons] at hbelow
  cases hchild : findEntry name children with
  | none => simp [hchild] at hbelow
  | some child => rfl

/-- The name of a folder in a folder leads to it. -/
private theorem follow_folder {disk : Disk} {place : Route} {name : String}
    (hplace : disk.holdsFolder place = true) (h : disk.holdsFolder (place ++ [name]) = true)
    (hdot : name ≠ ".") (hdots : name ≠ "..") (hshort : ¬maxNameBytes < name.utf8ByteSize) :
    disk.follow place [name] = .ok (place ++ [name]) := by
  obtain ⟨children, hchildren⟩ := Node.holdsFolder_iff.mp hplace
  rw [follow, hchildren]
  simp only [if_neg hdot, if_neg hdots, if_neg hshort,
    isSome_findEntry_of_holdsFolder hchildren h, if_true, follow]

/-- **Stability.** Names that lead to a folder lead there on every disk that has all folders. -/
theorem follow_eq_of_within {a b : Disk} (hab : FoldersWithin a b) {place goal : Route}
    {names : List String} (h : a.follow place names = .ok goal)
    (hgoal : a.holdsFolder goal = true) : b.follow place names = .ok goal := by
  induction names generalizing place with
  | nil => exact h
  | cons name rest ih =>
    have hplace := hab place (holdsFolder_of_follow h hgoal)
    obtain ⟨children, hchildren⟩ := Node.holdsFolder_iff.mp hplace
    rw [follow] at h ⊢
    rw [hchildren]
    split at h
    · by_cases hdot : name = "."
      · rw [if_pos hdot] at h ⊢
        exact ih h
      rw [if_neg hdot] at h ⊢
      by_cases hdots : name = ".."
      · rw [if_pos hdots] at h ⊢
        exact ih h
      rw [if_neg hdots] at h ⊢
      by_cases hlong : maxNameBytes < name.utf8ByteSize
      · rw [if_pos hlong] at h
        exact absurd h (by simp)
      rw [if_neg hlong] at h ⊢
      split at h
      · have hname := hab _ (holdsFolder_of_follow h hgoal)
        rw [if_pos (isSome_findEntry_of_holdsFolder hchildren hname)]
        exact ih h
      · exact absurd h (by simp)
    · exact absurd h (by simp)

/-! ## Slots -/

/-- What is left to check once the folder is found. -/
private theorem slot_of_follow {disk : Disk} {path : Path} {place : Route} {name : String}
    (htext : checkText path = .ok ()) (hlast : path.names.getLast? = some name)
    (hfollow : disk.follow [] path.names.dropLast = .ok place) :
    disk.slot path =
      if disk.holdsFolder place = false then .error .notFolder
      else if name = "." ∨ name = ".." then .error .isFolder
      else if maxNameBytes < name.utf8ByteSize then .error .nameTooLong
      else .ok (place, name) := by
  simp only [slot, htext, hlast, hfollow, bind, Except.bind]
  split
  · rename_i children hfolder
    rw [Node.holdsFolder_iff.mpr ⟨children, hfolder⟩, if_neg (by decide : ¬true = false)]
  · rename_i hfolder
    rw [if_pos (Node.holdsFolder_eq_false hfolder)]

/-- Where a path would put a new node, spelled out. -/
theorem slot_eq_ok_iff {disk : Disk} {path : Path} {place : Route} {name : String} :
    disk.slot path = .ok (place, name) ↔
      checkText path = .ok () ∧ path.names.getLast? = some name
        ∧ disk.follow [] path.names.dropLast = .ok place ∧ disk.holdsFolder place = true
        ∧ name ≠ "." ∧ name ≠ ".." ∧ ¬maxNameBytes < name.utf8ByteSize := by
  cases htext : checkText path with
  | error fault => simp [slot, htext, bind, Except.bind]
  | ok u =>
    cases hlast : path.names.getLast? with
    | none => simp [slot, htext, hlast, bind, Except.bind]
    | some last =>
      cases hfollow : disk.follow [] path.names.dropLast with
      | error fault => simp [slot, htext, hlast, hfollow, bind, Except.bind]
      | ok folder =>
        rw [slot_of_follow htext hlast hfollow]
        grind

theorem slot_eq_of_within {a b : Disk} (hab : FoldersWithin a b) {path : Path}
    {found : Route × String} (h : a.slot path = .ok found) : b.slot path = .ok found := by
  obtain ⟨place, name⟩ := found
  obtain ⟨htext, hlast, hfollow, hplace, hrest⟩ := slot_eq_ok_iff.mp h
  exact slot_eq_ok_iff.mpr ⟨htext, hlast, follow_eq_of_within hab hfollow hplace,
    hab place hplace, hrest⟩

/-! ## Folders that are there -/

/-- Whether a path refers to a folder, spelled out. -/
theorem isFolder_iff {disk : Disk} {path : Path} :
    disk.isFolder path = true ↔
      checkText path = .ok () ∧
        ∃ place, disk.follow [] path.names = .ok place ∧ disk.holdsFolder place = true := by
  rw [isFolder, nodeAt?, find]
  cases checkText path with
  | error fault => simp [bind, Except.bind, Except.toOption]
  | ok u =>
    cases disk.follow [] path.names with
    | error fault => simp [bind, Except.bind, Except.toOption]
    | ok place =>
      simp only [bind, Except.bind]
      cases hplace : disk.at? place with
      | none => simp [Except.toOption, hplace, Node.holdsFolder]
      | some node =>
        cases node with
        | file content => by_cases hslash : path.endsWithSeparator <;>
            simp [Except.toOption, hplace, hslash, Node.isFolder, Node.holdsFolder]
        | folder children => simp [Except.toOption, hplace, Node.isFolder, Node.holdsFolder]

theorem isFolder_of_within {a b : Disk} (hab : FoldersWithin a b) {path : Path}
    (h : a.isFolder path = true) : b.isFolder path = true := by
  obtain ⟨htext, place, hfollow, hplace⟩ := isFolder_iff.mp h
  exact isFolder_iff.mpr ⟨htext, place, follow_eq_of_within hab hfollow hplace,
    hab place hplace⟩

/-- The names of a path are those in front of the last one, and the last one. -/
private theorem names_eq_dropLast_append {path : Path} {name : String}
    (h : path.names.getLast? = some name) : path.names = path.names.dropLast ++ [name] := by
  obtain ⟨front, hfront⟩ := List.getLast?_eq_some_iff.mp h
  rw [hfront, List.dropLast_concat]

theorem makeFolder_of_isFolder {disk : Disk} {path : Path} (h : disk.isFolder path = true) :
    disk.makeFolder path = .error .isFolder ∨ disk.makeFolder path = .error .occupied := by
  obtain ⟨htext, goal, hfollow, hgoal⟩ := isFolder_iff.mp h
  cases hlast : path.names.getLast? with
  | none =>
    left
    rw [makeFolder, slot, htext, hlast]
    rfl
  | some name =>
    rw [names_eq_dropLast_append hlast, follow_append] at hfollow
    cases hfront : disk.follow [] path.names.dropLast with
    | error fault => rw [hfront] at hfollow; exact absurd hfollow (by simp [Except.bind])
    | ok place =>
      rw [hfront] at hfollow
      have hname : disk.follow place [name] = .ok goal := hfollow
      obtain ⟨children, hplace⟩ :=
        Node.holdsFolder_iff.mp (holdsFolder_of_follow hname hgoal)
      by_cases hdots : name = "." ∨ name = ".."
      · left
        rw [makeFolder, slot, htext, hlast]
        simp only [bind, Except.bind, hfront, hplace, if_pos hdots]
      · right
        obtain ⟨hdot, hdots'⟩ := not_or.mp hdots
        rw [follow, hplace] at hname
        simp only [if_neg hdot, if_neg hdots'] at hname
        split at hname
        · exact absurd hname (by simp)
        · rename_i hshort
          split at hname
          · rename_i hchild
            have hslot : disk.slot path = .ok (place, name) := slot_eq_ok_iff.mpr
              ⟨htext, hlast, hfront, Node.holdsFolder_iff.mpr ⟨children, hplace⟩, hdot, hdots',
                hshort⟩
            have hoccupied : disk.occupied (place ++ [name]) = true := by
              rw [Node.occupied, Node.at?_append, hplace, Option.bind_some, Node.at?_folder_cons]
              simpa using hchild
            rw [makeFolder, hslot]
            simp only [bind, Except.bind, hoccupied, if_true]
          · exact absurd hname (by simp)

theorem isFolder_of_makeFolder {disk made : Disk} {path : Path}
    (h : disk.makeFolder path = .ok made) : made.isFolder path = true := by
  rw [makeFolder] at h
  cases hslot : disk.slot path with
  | error fault => rw [hslot] at h; exact absurd h (by simp [bind, Except.bind])
  | ok found =>
    obtain ⟨place, name⟩ := found
    obtain ⟨htext, hlast, hfollow, hplace, hdot, hdots, hshort⟩ := slot_eq_ok_iff.mp hslot
    rw [hslot] at h
    simp only [bind, Except.bind] at h
    split at h
    · exact absurd h (by simp)
    · rename_i hfree
      obtain rfl := Except.ok.inj h
      have hnone : disk.at? (place ++ [name]) = none := by
        simpa [Node.occupied] using hfree
      have hwithin : FoldersWithin disk (Node.place .emptyFolder disk (place ++ [name])) :=
        Node.foldersWithin_place _ (by rw [Node.holdsFolder, hnone, Option.any_none])
      have hfound : (Node.place .emptyFolder disk (place ++ [name])).at? (place ++ [name])
          = some .emptyFolder := Node.at?_place_self hplace
      refine isFolder_iff.mpr ⟨htext, place ++ [name], ?_,
        Node.holdsFolder_iff.mpr ⟨[], hfound⟩⟩
      rw [names_eq_dropLast_append hlast, follow_append,
        follow_eq_of_within hwithin hfollow hplace]
      exact follow_folder (hwithin place hplace) (Node.holdsFolder_iff.mpr ⟨[], hfound⟩) hdot hdots
        hshort

/-! ## Making folders -/

theorem exists_chain_eq_cons (path : Path) : ∃ above, path.chain = path :: above := by
  rw [Path.chain]
  split
  · exact ⟨[], rfl⟩
  · exact ⟨_, rfl⟩

/-- The first folder of a chain is there once the chain was made. -/
private theorem isFolder_of_makeChain {disk made : Disk} {path : Path} {above : List Path}
    (h : disk.makeChain (path :: above) = (none, made)) :
    path = "" ∨ made.isFolder path = true := by
  have hfound : ∀ {fault : DiskFault} {now : Disk},
      (if now.isFolder path then none else some fault, now) = ((none : Option DiskFault), made) →
        made.isFolder path = true := by
    intro fault now heq
    obtain ⟨hnone, rfl⟩ := Prod.mk.inj heq
    by_cases hfolder : now.isFolder path = true
    · exact hfolder
    · rw [if_neg hfolder] at hnone
      exact absurd hnone (by simp)
  rw [makeChain] at h
  by_cases hempty : path = ""
  · exact Or.inl hempty
  rw [if_neg hempty] at h
  right
  split at h
  · rename_i hmade
    rw [← (Prod.mk.inj h).2]
    exact isFolder_of_makeFolder hmade
  · split at h
    · exact absurd (Prod.mk.inj h).1 (by simp)
    · split at h
      · rename_i hmade
        rw [← (Prod.mk.inj h).2]
        exact isFolder_of_makeFolder hmade
      · exact hfound h
  · exact hfound h

theorem makeFolders_of_isFolder {disk : Disk} {path : Path} (h : disk.isFolder path = true) :
    disk.makeFolders path = (none, disk) := by
  obtain ⟨above, hchain⟩ := exists_chain_eq_cons path
  rw [makeFolders, hchain, makeChain]
  by_cases hempty : path = ""
  · rw [if_pos hempty]
  rw [if_neg hempty]
  rcases makeFolder_of_isFolder h with hmake | hmake
  · simp only [hmake, h, if_true]
  · simp only [hmake, h, if_true]

theorem makeFolders_empty (disk : Disk) : disk.makeFolders "" = (none, disk) := by
  obtain ⟨above, hchain⟩ := exists_chain_eq_cons ""
  rw [makeFolders, hchain, makeChain, if_pos rfl]

/-- **A made folder stays made.** Where the folders are those of a disk on which a folder was just
made, making it again changes nothing. -/
theorem makeFolders_of_sameFolders {disk made after : Disk} {path : Path}
    (h : disk.makeFolders path = (none, made)) (hsame : SameFolders made after) :
    after.makeFolders path = (none, after) := by
  obtain ⟨above, hchain⟩ := exists_chain_eq_cons path
  rw [makeFolders, hchain] at h
  rcases isFolder_of_makeChain h with hempty | hfolder
  · rw [hempty, makeFolders_empty]
  · exact makeFolders_of_isFolder (isFolder_of_within hsame.within hfolder)

/-! ## Writing and renaming -/

section Write

variable [Room] {disk after : Disk} {path : Path} {content : List UInt8} {place : Route}
  {name : String}

private theorem write_of_slot (h : disk.slot path = .ok (place, name)) :
    disk.write path content =
      if disk.holdsFolder (place ++ [name]) = true then .error .isFolder
      else if path.endsWithSeparator = true then .error .isFolder
      else if disk.roomFor path content ≠ content then .error .noSpace
      else .ok (Node.place (.file content) disk (place ++ [name])) := by
  simp only [write, h, bind, Except.bind]
  split
  · rename_i children hfolder
    rw [if_pos (Node.holdsFolder_iff.mpr ⟨children, hfolder⟩)]
  · rename_i hfolder
    rw [Node.holdsFolder_eq_false hfolder, if_neg Bool.false_ne_true]

/-- Writing a file, spelled out. -/
theorem write_eq_ok_iff :
    disk.write path content = .ok after ↔
      ∃ place name, disk.slot path = .ok (place, name)
        ∧ disk.holdsFolder (place ++ [name]) = false ∧ path.endsWithSeparator = false
        ∧ disk.roomFor path content = content
        ∧ after = Node.place (.file content) disk (place ++ [name]) := by
  cases hslot : disk.slot path with
  | error fault => simp [write, hslot, bind, Except.bind]
  | ok found =>
    obtain ⟨place, name⟩ := found
    rw [write_of_slot hslot]
    grind

theorem sameFolders_of_write (h : disk.write path content = .ok after) :
    SameFolders after disk := by
  obtain ⟨place, name, -, hfree, -, -, rfl⟩ := write_eq_ok_iff.mp h
  exact Node.sameFolders_place_file content hfree

end Write

section Rename

variable {disk after : Disk} {source target : Path} {s g : Route × String}

private theorem rename_of_slots (hs : disk.slot source = .ok s) (hg : disk.slot target = .ok g)
    {content : List UInt8} (hfile : disk.at? (s.1 ++ [s.2]) = some (.file content)) :
    disk.rename source target =
      if (source.endsWithSeparator || target.endsWithSeparator) = true then .error .notFolder
      else if s.1 ++ [s.2] = g.1 ++ [g.2] then .ok disk
      else if disk.holdsFolder (g.1 ++ [g.2]) = true then .error .isFolder
      else .ok (Node.place (.file content) (Node.remove disk (s.1 ++ [s.2])) (g.1 ++ [g.2])) := by
  simp only [rename, hs, hg, hfile, bind, Except.bind]
  split
  · rfl
  split
  · rfl
  split
  · rename_i children hfolder
    rw [if_pos (Node.holdsFolder_iff.mpr ⟨children, hfolder⟩)]
  · rename_i hfolder
    rw [Node.holdsFolder_eq_false hfolder, if_neg Bool.false_ne_true]

private theorem exists_file_of_rename (hs : disk.slot source = .ok s)
    (hg : disk.slot target = .ok g) (h : disk.rename source target = .ok after) :
    ∃ content, disk.at? (s.1 ++ [s.2]) = some (.file content) := by
  simp only [rename, hs, hg, bind, Except.bind] at h
  rcases hnode : disk.at? (s.1 ++ [s.2]) with _ | content | children
  · exact absurd h (by simp [hnode])
  · exact ⟨content, rfl⟩
  · exact absurd h (by simp [hnode])

/-- Renaming a file, spelled out. -/
theorem rename_eq_ok_iff :
    disk.rename source target = .ok after ↔
      ∃ s g content, disk.slot source = .ok s ∧ disk.slot target = .ok g
        ∧ disk.at? (s.1 ++ [s.2]) = some (.file content)
        ∧ disk.holdsFolder (g.1 ++ [g.2]) = false
        ∧ (source.endsWithSeparator || target.endsWithSeparator) = false
        ∧ after = if s.1 ++ [s.2] = g.1 ++ [g.2] then disk
            else Node.place (.file content) (Node.remove disk (s.1 ++ [s.2])) (g.1 ++ [g.2]) := by
  cases hs : disk.slot source with
  | error fault => simp [rename, hs, bind, Except.bind]
  | ok s =>
    cases hg : disk.slot target with
    | error fault => simp [rename, hs, hg, bind, Except.bind]
    | ok g =>
      constructor
      · intro h
        obtain ⟨content, hfile⟩ := exists_file_of_rename hs hg h
        -- a file that is moved onto itself is no folder either
        have hself : disk.holdsFolder (s.1 ++ [s.2]) = false :=
          Node.holdsFolder_eq_false fun children hchildren ↦ by simp [hfile] at hchildren
        rw [rename_of_slots hs hg hfile] at h
        exact ⟨s, g, content, rfl, rfl, hfile, by grind⟩
      · rintro ⟨s', g', content, hs', hg', hfile, hfree, hslash, rfl⟩
        obtain rfl := Except.ok.inj hs'
        obtain rfl := Except.ok.inj hg'
        rw [rename_of_slots hs hg hfile, hslash, hfree]
        grind

theorem sameFolders_of_rename (h : disk.rename source target = .ok after) :
    SameFolders after disk := by
  obtain ⟨s, g, content, -, -, hfile, hfree, -, rfl⟩ := rename_eq_ok_iff.mp h
  have hremove : SameFolders (Node.remove disk (s.1 ++ [s.2])) disk :=
    Node.sameFolders_remove (Node.holdsFolder_eq_false fun children hchildren ↦ by
      rw [hfile] at hchildren
      exact absurd hchildren (by simp))
  split
  · exact Node.SameFolders.refl disk
  · exact (Node.sameFolders_place_file content ((hremove _).trans hfree)).trans hremove

end Rename

end Disk

end GameBridge
