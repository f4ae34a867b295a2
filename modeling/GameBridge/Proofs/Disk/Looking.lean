import GameBridge.Proofs.Disk.Containing

/-!
# What a path refers to

A path leads through the folders in front of its last name, and then depends on nothing but the
node under that name. So what is done to another name of the same folder makes no difference to it,
which is `Node.at?_place_sibling`.

Making folders can make a difference, as a path with the name `..` may refer to nothing for no
other reason than that a folder on the way is missing. Without that name there is none: a new folder
is empty, so that nothing can be below it.
-/

namespace GameBridge

/-! ## Nodes beside others -/

namespace Node

theorem at?_place_sibling (new : Node) {node : Node} {route : Route} {name other : String}
    (h : other ≠ name) :
    (place new node (route ++ [name])).at? (route ++ [other]) = node.at? (route ++ [other]) := by
  induction route generalizing node with
  | nil =>
    cases node with
    | file content => rfl
    | folder children =>
      cases hchild : findEntry name children with
      | none => simp [place_of_none hchild, findEntry_insertEntry, h]
      | some child => simp [place_of_some [] hchild, findEntry_insertEntry, h]
  | cons first rest ih =>
    cases node with
    | file content => rfl
    | folder children =>
      rw [List.cons_append, List.cons_append]
      cases hchild : findEntry first children with
      | none =>
        obtain ⟨next, more, hnext⟩ := List.exists_cons_of_ne_nil
          (List.append_ne_nil_of_right_ne_nil rest (List.cons_ne_nil name []))
        rw [hnext, place_of_missing next more hchild]
      | some child =>
        rw [place_of_some _ hchild, at?_folder_cons, at?_folder_cons, findEntry_insertEntry,
          if_pos rfl, hchild]
        exact ih

private theorem insertEntry_insertEntry {α : Type} (key : String) (value next : α)
    (entries : List (String × α)) :
    insertEntry key next (insertEntry key value entries) = insertEntry key next entries := by
  induction entries with
  | nil => simp [insertEntry]
  | cons head rest ih =>
    obtain ⟨k, v⟩ := head
    by_cases hlt : key < k
    · simp [insertEntry, hlt]
    · by_cases heq : key = k
      · simp [insertEntry, heq]
      · simp [insertEntry, hlt, heq, ih]

theorem place_place (old new : Node) (node : Node) (route : Route) :
    place new (place old node route) route = place new node route := by
  induction route generalizing node with
  | nil => cases node <;> cases old <;> rfl
  | cons name rest ih =>
    cases node with
    | file content => rfl
    | folder children =>
      have hfound (child : Node) : findEntry name (insertEntry name child children) = some child :=
        by rw [findEntry_insertEntry, if_pos rfl]
      cases hchild : findEntry name children with
      | some child =>
        rw [place_of_some rest hchild, place_of_some rest hchild, place_of_some rest (hfound _),
          insertEntry_insertEntry, ih]
      | none =>
        cases rest with
        | nil =>
          rw [place_of_none hchild, place_of_none hchild, place_of_some [] (hfound old),
            insertEntry_insertEntry, place]
        | cons next more =>
          rw [place_of_missing next more hchild, place_of_missing next more hchild]

private theorem eraseEntry_insertEntry (name : String) (new : Node)
    (children : List (String × Node)) :
    eraseEntry name (insertEntry name new children) = eraseEntry name children := by
  induction children with
  | nil => simp [insertEntry, eraseEntry]
  | cons head rest ih =>
    obtain ⟨k, v⟩ := head
    by_cases hlt : name < k
    · simp [insertEntry, eraseEntry, hlt]
    · by_cases heq : name = k
      · simp [insertEntry, eraseEntry, heq]
      · simp [insertEntry, eraseEntry, hlt, heq, ih]

theorem remove_place (new node : Node) (route : Route) (name : String) :
    (place new node (route ++ [name])).remove (route ++ [name])
      = node.remove (route ++ [name]) := by
  induction route generalizing node with
  | nil =>
    cases node with
    | file content => rfl
    | folder children =>
      cases hchild : findEntry name children with
      | none => simp [place_of_none hchild, remove, eraseEntry_insertEntry]
      | some child => simp [place_of_some [] hchild, remove, eraseEntry_insertEntry]
  | cons first rest ih =>
    obtain ⟨next, more, hnext⟩ := List.exists_cons_of_ne_nil
      (List.append_ne_nil_of_right_ne_nil rest (List.cons_ne_nil name []))
    rw [hnext] at ih
    rw [List.cons_append, hnext]
    cases node with
    | file content => rfl
    | folder children =>
      cases hchild : findEntry first children with
      | none => rw [place_of_missing next more hchild]
      | some child =>
        rw [place_of_some _ hchild, remove, findEntry_insertEntry, if_pos rfl]
        simp only [ih, remove, hchild, insertEntry_insertEntry]

theorem at?_remove_self (node : Node) (route : Route) (name : String) :
    (node.remove (route ++ [name])).at? (route ++ [name]) = none := by
  induction route generalizing node with
  | nil =>
    cases node with
    | file content => rfl
    | folder children => simp [remove, findEntry_eraseEntry]
  | cons first rest ih =>
    cases node with
    | file content =>
      rw [List.cons_append]
      rfl
    | folder children =>
      obtain ⟨next, more, hnext⟩ := List.exists_cons_of_ne_nil
        (List.append_ne_nil_of_right_ne_nil rest (List.cons_ne_nil name []))
      rw [List.cons_append, hnext, remove]
      cases hchild : findEntry first children with
      | none => rw [at?_folder_cons, hchild]; rfl
      | some child =>
        dsimp only
        rw [at?_folder_cons, findEntry_insertEntry, if_pos rfl, Option.bind_some, ← hnext]
        exact ih child

end Node

namespace Disk

open Node (SameFolders)
open GameBridge.Path (Dots)

/-! ## Something and nothing -/

private theorem isSome_at?_dropLast {disk : Disk} {place : Route} (h : (disk.at? place).isSome) :
    (disk.at? place.dropLast).isSome := by
  rcases List.eq_nil_or_concat place with rfl | ⟨front, last, rfl⟩
  · exact h
  · rw [List.concat_eq_append] at h ⊢
    rw [List.dropLast_concat]
    rw [Node.at?_append] at h
    cases hfront : disk.at? front with
    | none => simp [hfront] at h
    | some node => rfl

private theorem isSome_at?_of_follow {disk : Disk} {place goal : Route} {names : List String}
    (hplace : (disk.at? place).isSome) (h : disk.follow place names = .ok goal) :
    (disk.at? goal).isSome := by
  induction names generalizing place with
  | nil =>
    rw [follow, Except.ok.injEq] at h
    exact h ▸ hplace
  | cons name rest ih =>
    rw [follow] at h
    split at h
    · rename_i children hchildren
      split at h
      · exact ih hplace h
      · split at h
        · exact ih (isSome_at?_dropLast hplace) h
        · split at h
          · exact absurd h (by simp)
          · split at h
            · rename_i hchild
              refine ih ?_ h
              rw [Node.at?_append, hchildren, Option.bind_some, Node.at?_folder_cons]
              simpa using hchild
            · exact absurd h (by simp)
    · exact absurd h (by simp)

theorem follow_of_find {disk : Disk} {path : Path} {goal : Route} (h : disk.find path = .ok goal) :
    checkText path = .ok () ∧ disk.follow [] path.names = .ok goal := by
  rw [find] at h
  cases htext : checkText path with
  | error fault => rw [htext] at h; exact absurd h (by simp [bind, Except.bind])
  | ok u =>
    cases hfollow : disk.follow [] path.names with
    | error fault => rw [htext, hfollow] at h; exact absurd h (by simp [bind, Except.bind])
    | ok place =>
      simp only [htext, hfollow, bind, Except.bind] at h
      split at h
      · split at h
        · exact absurd h (by simp)
        · exact ⟨rfl, h⟩
      · exact ⟨rfl, h⟩

theorem exists_find_of_contains {disk : Disk} {path : Path} (h : disk.contains path = true) :
    ∃ goal, disk.find path = .ok goal := by
  rw [contains] at h
  cases hfind : disk.find path with
  | error fault => rw [hfind] at h; exact absurd h (by simp [Except.toOption])
  | ok goal => exact ⟨goal, rfl⟩

/-- Whoever gets to the end of a path comes through the containing folder. -/
theorem isFolder_parent_of_find {disk : Disk} {path parent : Path} {goal : Route}
    (hparent : path.parent? = some parent) (hne : parent ≠ "") (h : disk.find path = .ok goal) :
    disk.isFolder parent = true := by
  obtain ⟨htext, hfollow⟩ := follow_of_find h
  obtain ⟨rest, hnames, hrest, -⟩ := Path.names_of_parent? hparent
  rw [hnames, follow_append] at hfollow
  cases hplace : disk.follow [] parent.names with
  | error fault => rw [hplace] at hfollow; exact absurd hfollow (by simp [Except.bind])
  | ok place =>
    rw [hplace] at hfollow
    replace hfollow : disk.follow place rest = .ok goal := hfollow
    obtain ⟨next, more, rfl⟩ := List.exists_cons_of_ne_nil hrest
    refine isFolder_iff.mpr ⟨checkText_of_beginning htext (Path.prefix_of_parent? hparent) hne,
      place, hplace, ?_⟩
    rw [follow] at hfollow
    split at hfollow
    · rename_i children hchildren
      exact Node.holdsFolder_iff.mpr ⟨children, hchildren⟩
    · exact absurd hfollow (by simp)

theorem contains_eq_isSome_nodeAt? (disk : Disk) (path : Path) :
    disk.contains path = (disk.nodeAt? path).isSome := by
  rw [contains, nodeAt?]
  cases hfind : disk.find path with
  | error fault => rfl
  | ok goal =>
    exact (isSome_at?_of_follow (by rw [Node.at?_nil]; rfl) (follow_of_find hfind).2).symm

theorem contentAt_eq_ok_iff {disk : Disk} {path : Path} {content : List UInt8} :
    disk.contentAt path = .ok content ↔ disk.nodeAt? path = some (.file content) := by
  rw [contentAt, nodeAt?]
  cases disk.find path with
  | error fault => simp [bind, Except.bind, Except.toOption]
  | ok goal =>
    simp only [bind, Except.bind, Except.toOption, Option.bind_some]
    cases disk.at? goal with
    | none => simp
    | some node => cases node <;> simp

/-! ## The node under the last name -/

private theorem follow_dots {disk : Disk} {place : Route} {dots : List String} (h : Dots dots)
    (hne : dots ≠ []) :
    disk.follow place dots = if disk.holdsFolder place then .ok place else .error .notFolder := by
  induction dots with
  | nil => exact absurd rfl hne
  | cons dot rest ih =>
    obtain rfl := h dot List.mem_cons_self
    rw [follow]
    split
    · rename_i children hplace
      rw [if_pos rfl, if_pos (Node.holdsFolder_iff.mpr ⟨children, hplace⟩)]
      cases rest with
      | nil => rfl
      | cons next more =>
        rw [ih (fun name hname ↦ h name (List.mem_cons_of_mem _ hname)) (List.cons_ne_nil _ _),
          if_pos (Node.holdsFolder_iff.mpr ⟨children, hplace⟩)]
    · rename_i hplace
      rw [if_neg (by simpa using Node.holdsFolder_eq_false hplace)]

/-- Whether a path can only refer to a folder, given the dots after its last name. -/
def needsFolder (path : Path) (dots : List String) : Bool :=
  !dots.isEmpty || path.endsWithSeparator

/-- A path with a last name in a folder: the names in front lead to the folder, and only dots follow
the name. -/
structure Ends (disk : Disk) (path : Path) (place : Route) (name : String) (dots : List String) :
    Prop where
  front : ∃ front, path.names = front ++ name :: dots ∧ disk.follow [] front = .ok place
  dots : Dots dots
  folder : disk.holdsFolder place = true
  ne_dot : name ≠ "."
  ne_up : name ≠ ".."

namespace Ends

variable {disk : Disk} {path : Path} {place : Route} {name : String} {dots : List String}

theorem of_sameFolders {other : Disk} (hsame : SameFolders disk other)
    (h : disk.Ends path place name dots) : other.Ends path place name dots := by
  obtain ⟨front, hnames, hfront⟩ := h.front
  exact { h with
    front := ⟨front, hnames, follow_eq_of_within hsame.within hfront h.folder⟩
    folder := (hsame place).symm.trans h.folder }

private theorem follow_names (h : disk.Ends path place name dots) :
    disk.follow [] path.names =
      if maxNameBytes < name.utf8ByteSize then .error .nameTooLong
      else if (disk.at? (place ++ [name])).isSome then disk.follow (place ++ [name]) dots
      else .error .notFound := by
  obtain ⟨front, hnames, hfront⟩ := h.front
  obtain ⟨children, hplace⟩ := Node.holdsFolder_iff.mp h.folder
  have hchild : disk.at? (place ++ [name]) = findEntry name children := by
    rw [Node.at?_append, hplace, Option.bind_some, Node.at?_folder_cons]
    simp
  rw [hnames, follow_append, hfront, hchild]
  show disk.follow place (name :: dots) = _
  rw [follow, hplace]
  simp only [if_neg h.ne_dot, if_neg h.ne_up]

/-- **What a path refers to** is the node under its last name, unless that is a file and the path
can only refer to a folder. -/
theorem nodeAt?_eq (h : disk.Ends path place name dots) (htext : checkText path = .ok ())
    (hshort : ¬maxNameBytes < name.utf8ByteSize) :
    disk.nodeAt? path = (disk.at? (place ++ [name])).filter fun node ↦
      node.isFolder || !needsFolder path dots := by
  rw [nodeAt?, find, htext, h.follow_names, if_neg hshort]
  cases hchild : disk.at? (place ++ [name]) with
  | none => rfl
  | some child =>
    simp only [Option.isSome_some, if_true]
    by_cases hnone : dots = []
    · rw [hnone, follow]
      cases child with
      | file content =>
        by_cases hslash : path.endsWithSeparator = true <;>
          simp [bind, Except.bind, Except.toOption, hchild, hslash, needsFolder, Node.isFolder,
            Option.filter_some]
      | folder below =>
        simp [bind, Except.bind, Except.toOption, hchild, Node.isFolder, Option.filter_some]
    · rw [follow_dots h.dots hnone]
      cases child with
      | file content =>
        have hfile : disk.holdsFolder (place ++ [name]) = false :=
          Node.holdsFolder_eq_false fun below hbelow ↦ by simp [hchild] at hbelow
        simp [bind, Except.bind, Except.toOption, hfile, needsFolder, hnone, Node.isFolder,
          Option.filter_some]
      | folder below =>
        have hfolder : disk.holdsFolder (place ++ [name]) = true :=
          Node.holdsFolder_iff.mpr ⟨below, hchild⟩
        simp [bind, Except.bind, Except.toOption, hfolder, hchild, Node.isFolder,
          Option.filter_some]

theorem nodeAt?_eq_none (h : disk.Ends path place name dots)
    (hbad : ¬(checkText path = .ok () ∧ ¬maxNameBytes < name.utf8ByteSize)) :
    disk.nodeAt? path = none := by
  rw [nodeAt?, find, h.follow_names]
  cases htext : checkText path with
  | error fault => rfl
  | ok u =>
    have hlong : maxNameBytes < name.utf8ByteSize := by
      by_contra hshort
      exact hbad ⟨htext, hshort⟩
    rw [if_pos hlong]
    rfl

/-- What two disks have under the last name decides whether the path refers to the same on both. -/
theorem nodeAt?_congr {other : Disk} (h : disk.Ends path place name dots)
    (hother : other.Ends path place name dots)
    (hnode : checkText path = .ok () → ¬maxNameBytes < name.utf8ByteSize →
      ((disk.at? (place ++ [name])).filter fun node ↦ node.isFolder || !needsFolder path dots)
        = (other.at? (place ++ [name])).filter fun node ↦
          node.isFolder || !needsFolder path dots) :
    disk.nodeAt? path = other.nodeAt? path := by
  by_cases hgood : checkText path = .ok () ∧ ¬maxNameBytes < name.utf8ByteSize
  · rw [h.nodeAt?_eq hgood.1 hgood.2, hother.nodeAt?_eq hgood.1 hgood.2, hnode hgood.1 hgood.2]
  · rw [h.nodeAt?_eq_none hgood, hother.nodeAt?_eq_none hgood]

/-- A node under the last name that is the same on two disks has the path read the same. -/
theorem contentAt_congr {other : Disk} (h : disk.Ends path place name dots)
    (hother : other.Ends path place name dots)
    (hnode : disk.at? (place ++ [name]) = other.at? (place ++ [name])) :
    disk.contentAt path = other.contentAt path := by
  have hfolder : disk.holdsFolder (place ++ [name]) = other.holdsFolder (place ++ [name]) := by
    rw [Node.holdsFolder, Node.holdsFolder, hnode]
  have hdots : disk.follow (place ++ [name]) dots = other.follow (place ++ [name]) dots := by
    by_cases hnone : dots = []
    · rw [hnone, follow, follow]
    · rw [follow_dots h.dots hnone, follow_dots h.dots hnone, hfolder]
  have hfollow : disk.follow [] path.names = other.follow [] path.names := by
    rw [h.follow_names, hother.follow_names, hnode, hdots]
  -- the names lead to the node under the last name, if anywhere
  have hgoal : ∀ goal, disk.follow [] path.names = .ok goal → goal = place ++ [name] := by
    intro goal hgoal
    rw [h.follow_names] at hgoal
    split at hgoal
    · exact absurd hgoal (by simp)
    · split at hgoal
      · by_cases hnone : dots = []
        · rw [hnone, follow, Except.ok.injEq] at hgoal
          exact hgoal.symm
        · rw [follow_dots h.dots hnone] at hgoal
          split at hgoal
          · exact (Except.ok.inj hgoal).symm
          · exact absurd hgoal (by simp)
      · exact absurd hgoal (by simp)
  have hfind : disk.find path = other.find path := by
    rw [find, find, ← hfollow]
    cases hnames : disk.follow [] path.names with
    | error fault => rfl
    | ok goal =>
      obtain rfl := hgoal goal hnames
      simp only [bind, Except.bind, hnode]
  rw [contentAt, contentAt, ← hfind]
  cases hfound : disk.find path with
  | error fault => rfl
  | ok goal =>
    obtain rfl := hgoal goal (follow_of_find hfound).2
    simp only [bind, Except.bind, hnode]

theorem slot_eq (h : disk.Ends path place name dots) {found : Route × String}
    (hslot : disk.slot path = .ok found) : found = (place, name) ∧ dots = [] := by
  obtain ⟨folder, last⟩ := found
  obtain ⟨front, hnames, hfront⟩ := h.front
  obtain ⟨-, hlast, hfollow, -, hdot, -⟩ := slot_eq_ok_iff.mp hslot
  have hnone : dots = [] := by
    rcases List.eq_nil_or_concat dots with hnone | ⟨before, dot, hconcat⟩
    · exact hnone
    · rw [List.concat_eq_append] at hconcat
      have hdots : dot = "." := h.dots dot (by rw [hconcat]; simp)
      rw [hnames, hconcat, hdots, ← List.cons_append, ← List.append_assoc,
        List.getLast?_concat] at hlast
      exact absurd (Option.some.inj hlast).symm hdot
  rw [hnames, hnone, List.getLast?_concat] at hlast
  rw [hnames, hnone, List.dropLast_concat, hfront] at hfollow
  rw [Except.ok.inj hfollow, Option.some.inj hlast]
  exact ⟨rfl, hnone⟩

theorem of_slot (h : disk.slot path = .ok (place, name)) : disk.Ends path place name [] := by
  obtain ⟨-, hlast, hfollow, hplace, hdot, hup, -⟩ := slot_eq_ok_iff.mp h
  obtain ⟨front, hfront⟩ := List.getLast?_eq_some_iff.mp hlast
  rw [hfront, List.dropLast_concat] at hfollow
  exact ⟨⟨front, hfront, hfollow⟩, fun _ hmem ↦ absurd hmem List.not_mem_nil, hplace, hdot, hup⟩

/-- A path without dots after its last name has a slot, if its text and name are allowed. -/
theorem slot_of_nil (h : disk.Ends path place name []) (htext : checkText path = .ok ())
    (hshort : ¬maxNameBytes < name.utf8ByteSize) : disk.slot path = .ok (place, name) := by
  obtain ⟨front, hnames, hfront⟩ := h.front
  refine slot_eq_ok_iff.mpr ⟨htext, ?_, ?_, h.folder, h.ne_dot, h.ne_up, hshort⟩
  · rw [hnames, List.getLast?_concat]
  · rw [hnames, List.dropLast_concat, hfront]

end Ends

theorem nodeAt?_of_slot {disk : Disk} {path : Path} {place : Route} {name : String}
    (h : disk.slot path = .ok (place, name)) :
    disk.nodeAt? path = (disk.at? (place ++ [name])).filter fun node ↦
      node.isFolder || !path.endsWithSeparator := by
  obtain ⟨htext, -, -, -, -, -, hshort⟩ := slot_eq_ok_iff.mp h
  exact (Ends.of_slot h).nodeAt?_eq htext hshort

/-! ## Folders on the way -/

/-- The route of names without the one that goes back. -/
def plainRoute (names : List String) : Route := names.filter (· ≠ ".")

theorem follow_plain {disk : Disk} {place goal : Route} {names : List String} (hup : ".." ∉ names)
    (h : disk.follow place names = .ok goal) : goal = place ++ plainRoute names := by
  induction names generalizing place with
  | nil =>
    rw [follow, Except.ok.injEq] at h
    rw [← h, plainRoute, List.filter_nil, List.append_nil]
  | cons name rest ih =>
    have hname : name ≠ ".." := fun e ↦ hup (e ▸ List.mem_cons_self)
    have hrest : ".." ∉ rest := fun hmem ↦ hup (List.mem_cons_of_mem _ hmem)
    rw [follow] at h
    split at h
    · split at h
      · rename_i hdot
        rw [ih hrest h, plainRoute, plainRoute, List.filter_cons_of_neg (by simpa using hdot)]
      · rename_i hdot
        split at h
        · exact absurd h (by simp)
        · split at h
          · rw [ih hrest h, plainRoute, plainRoute, List.filter_cons_of_pos (by simpa using hdot),
              List.append_assoc, List.singleton_append]
          · exact absurd h (by simp)
    · exact absurd h (by simp)

theorem nodeAt?_of_plain {disk : Disk} {path : Path} (hup : ".." ∉ path.names)
    (h : disk.at? (plainRoute path.names) = none) : disk.nodeAt? path = none := by
  rw [nodeAt?]
  cases hfind : disk.find path with
  | error fault => rfl
  | ok goal =>
    rw [follow_plain hup (follow_of_find hfind).2]
    exact h

/-- What is kept by making any folder of a chain is kept by making the chain. -/
private theorem makeChain_induction {P : Disk → Prop} {chain : List Path}
    (hstep : ∀ path ∈ chain, ∀ disk made, P disk → disk.makeFolder path = .ok made → P made)
    {disk : Disk} (h : P disk) : P (disk.makeChain chain).2 := by
  induction chain with
  | nil => exact h
  | cons path above ih =>
    have hlast := hstep path List.mem_cons_self
    have habove := ih fun q hq ↦ hstep q (List.mem_cons_of_mem _ hq)
    rw [makeChain]
    by_cases hempty : path = ""
    · rw [if_pos hempty]
      exact h
    rw [if_neg hempty]
    split
    · rename_i made hmake
      exact hlast disk made h hmake
    · split
      · rename_i fault now hchain
        rw [hchain] at habove
        exact habove
      · rename_i now hchain
        rw [hchain] at habove
        split
        · rename_i made hmake
          exact hlast now made habove hmake
        · exact habove
    · exact h

/-- The names of every folder above a path are in front of those of the path, with a name between
that is no dot. -/
private theorem names_of_mem_chain {path parent q : Path} (hparent : path.parent? = some parent)
    (h : q ∈ parent.chain) :
    q = "" ∨ ∃ rest, path.names = q.names ++ rest ∧ ∃ name ∈ rest, name ≠ "." := by
  obtain ⟨rest, hnames, -, hother⟩ := Path.names_of_parent? hparent
  have hself : q = parent →
      q = "" ∨ ∃ rest, path.names = q.names ++ rest ∧ ∃ name ∈ rest, name ≠ "." := by
    rintro rfl
    exact hother.imp_right fun hother ↦ ⟨rest, hnames, hother⟩
  induction parent using Path.chain.induct generalizing path rest with
  | case1 parent htop =>
    rw [Path.chain_of_top htop] at h
    exact hself (List.mem_singleton.mp h)
  | case2 parent above habove ih =>
    rw [Path.chain_of_parent? habove] at h
    rcases List.mem_cons.mp h with h | h
    · exact hself h
    obtain ⟨more, hmore, -, hotherAbove⟩ := Path.names_of_parent? habove
    have hupper := ih habove h more hmore hotherAbove fun hq ↦ hotherAbove.imp (hq.trans ·)
      fun hotherAbove ↦ ⟨more, hq ▸ hmore, hotherAbove⟩
    refine hupper.imp_right fun ⟨most, hmost, name, hmem, hname⟩ ↦ ?_
    refine ⟨most ++ rest, ?_, name, List.mem_append_left _ hmem, hname⟩
    rw [hnames, hmost, List.append_assoc]

private theorem slot_of_makeFolder {disk made : Disk} {path : Path}
    (h : disk.makeFolder path = .ok made) :
    ∃ place name, disk.slot path = .ok (place, name) ∧ disk.at? (place ++ [name]) = none
      ∧ made = Node.place .emptyFolder disk (place ++ [name]) := by
  rw [makeFolder] at h
  cases hslot : disk.slot path with
  | error fault => rw [hslot] at h; exact absurd h (by simp [bind, Except.bind])
  | ok found =>
    obtain ⟨place, name⟩ := found
    rw [hslot] at h
    simp only [bind, Except.bind] at h
    split at h
    · exact absurd h (by simp)
    · rename_i hfree
      exact ⟨place, name, rfl, by simpa [Node.occupied] using hfree, (Except.ok.inj h).symm⟩

/-- **New folders are empty.** After the folders above a path were made, either the disk is as it
was or there is nothing on the route of the path. -/
private theorem makeFolders_of_plain {disk : Disk} {path parent : Path}
    (hparent : path.parent? = some parent) (hup : ".." ∉ path.names) :
    (disk.makeFolders parent).2 = disk ∨
      (disk.makeFolders parent).2.at? (plainRoute path.names) = none := by
  refine makeChain_induction (P := fun now ↦ now = disk ∨ now.at? (plainRoute path.names) = none)
    (fun q hq now made _ hmade ↦ Or.inr ?_) (Or.inl rfl)
  obtain ⟨place, last, hslot, -, rfl⟩ := slot_of_makeFolder hmade
  obtain ⟨htext, hlast, hfollow, hplace, hdot, -⟩ := slot_eq_ok_iff.mp hslot
  obtain hempty | ⟨rest, hnames, name, hmem, hname⟩ := names_of_mem_chain hparent hq
  · exact absurd hempty (checkText_eq_ok_iff.mp htext).2.2
  obtain ⟨front, hfront⟩ := List.getLast?_eq_some_iff.mp hlast
  -- the new folder is on the route, and the rest of the route is below it
  have hroute : plainRoute path.names = (place ++ [last]) ++ plainRoute rest := by
    rw [hfront, List.dropLast_concat] at hfollow
    rw [hnames, hfront] at hup
    have hplain := follow_plain (fun hmem ↦ hup (by simp [hmem])) hfollow
    rw [hnames, hfront, hplain, List.nil_append]
    simp [plainRoute, List.filter_append, hdot]
  have hbelow : plainRoute rest ≠ [] := by
    refine List.ne_nil_of_mem (List.mem_filter.mpr ⟨hmem, ?_⟩)
    simpa using hname
  obtain ⟨next, more, hnext⟩ := List.exists_cons_of_ne_nil hbelow
  rw [hroute, Node.at?_append, Node.at?_place_self hplace, hnext]
  rfl

/-- A path that does not go back and has no name that is too long. -/
def Plain (path : Path) : Prop :=
  ∀ name ∈ path.names, name ≠ ".." ∧ ¬maxNameBytes < name.utf8ByteSize

/-- In an empty folder there is nothing under any name. -/
private theorem follow_of_emptyFolder {disk : Disk} {place : Route} {names : List String}
    (hplace : disk.at? place = some .emptyFolder)
    (hplain : ∀ name ∈ names, name ≠ ".." ∧ ¬maxNameBytes < name.utf8ByteSize)
    (hother : ∃ name ∈ names, name ≠ ".") : disk.follow place names = .error .notFound := by
  induction names with
  | nil =>
    obtain ⟨name, hmem, -⟩ := hother
    exact absurd hmem List.not_mem_nil
  | cons first rest ih =>
    obtain ⟨hup, hshort⟩ := hplain first List.mem_cons_self
    rw [follow, hplace]
    by_cases hdot : first = "."
    · obtain ⟨name, hmem, hname⟩ := hother
      have hrest : name ∈ rest := (List.mem_cons.mp hmem).resolve_left (hname <| ·.trans hdot)
      simp only [Node.emptyFolder, if_pos hdot]
      exact ih (fun other hmem ↦ hplain other (List.mem_cons_of_mem _ hmem)) ⟨name, hrest, hname⟩
    · simp [Node.emptyFolder, hdot, hup, hshort, findEntry]

/-- A folder above a plain path that has to be made is missing on the way, and the next one is
missing once it is made. -/
theorem contentAt_of_makeFolder {disk made : Disk} {path parent folder : Path}
    (hparent : path.parent? = some parent) (hmem : folder ∈ parent.chain) (hplain : Plain path)
    (hmake : disk.makeFolder folder = .ok made) : made.contentAt path = disk.contentAt path := by
  obtain ⟨place, last, hslot, hnone, rfl⟩ := slot_of_makeFolder hmake
  obtain ⟨htext, hlast, hfollow, hplace, hdot, hup, hshort⟩ := slot_eq_ok_iff.mp hslot
  obtain hempty | ⟨rest, hnames, hother⟩ := names_of_mem_chain hparent hmem
  · exact absurd hempty (checkText_eq_ok_iff.mp htext).2.2
  obtain ⟨front, hfront⟩ := List.getLast?_eq_some_iff.mp hlast
  rw [hfront, List.dropLast_concat] at hfollow
  have hpath : path.names = front ++ last :: rest := by
    rw [hnames, hfront, List.append_assoc, List.singleton_append]
  have hbefore : disk.follow [] path.names = .error .notFound := by
    obtain ⟨children, hchildren⟩ := Node.holdsFolder_iff.mp hplace
    have hchild : findEntry last children = none := by
      rw [Node.at?_append, hchildren, Option.bind_some, Node.at?_folder_cons] at hnone
      simpa using hnone
    rw [hpath, follow_append, hfollow]
    show disk.follow place (last :: rest) = _
    rw [follow, hchildren]
    simp [hdot, hup, hshort, hchild]
  have hafter : follow (Node.place .emptyFolder disk (place ++ [last])) [] path.names
      = .error .notFound := by
    have hwithin : Node.FoldersWithin disk (Node.place .emptyFolder disk (place ++ [last])) :=
      Node.foldersWithin_place _ (by rw [Node.holdsFolder, hnone, Option.any_none])
    have hmade : (Node.place .emptyFolder disk (place ++ [last])).at? (place ++ [last])
        = some .emptyFolder := Node.at?_place_self hplace
    obtain ⟨children, hchildren⟩ := Node.holdsFolder_iff.mp (hwithin place hplace)
    have hchild : (findEntry last children).isSome = true := by
      rw [Node.at?_append, hchildren, Option.bind_some, Node.at?_folder_cons] at hmade
      cases hentry : findEntry last children with
      | none => rw [hentry] at hmade; exact absurd hmade (by simp)
      | some child => rfl
    rw [hpath, follow_append, follow_eq_of_within hwithin hfollow hplace]
    show follow _ place (last :: rest) = _
    rw [follow, hchildren]
    simp only [if_neg hdot, if_neg hup, if_neg hshort, if_pos hchild]
    refine follow_of_emptyFolder hmade (fun name hname ↦ hplain name ?_) hother
    rw [hnames]
    exact List.mem_append_right _ hname
  rw [contentAt, contentAt, find, find, hbefore, hafter]
  cases checkText path <;> rfl

/-- **Making the folders above** a path that does not go back leaves what it refers to. -/
theorem nodeAt?_makeFolders_parent {disk : Disk} {path parent : Path}
    (hparent : path.parent? = some parent) (hup : ".." ∉ path.names) :
    (disk.makeFolders parent).2.nodeAt? path = disk.nodeAt? path := by
  by_cases hcontains : disk.contains path = true
  · -- the folders on the way are there
    by_cases hempty : parent = ""
    · rw [hempty, makeFolders_empty]
    · obtain ⟨goal, hfind⟩ := exists_find_of_contains hcontains
      rw [makeFolders_of_isFolder (isFolder_parent_of_find hparent hempty hfind)]
  · rcases makeFolders_of_plain hparent hup with hdisk | hnone
    · rw [hdisk]
    · rw [nodeAt?_of_plain hup hnone]
      rw [contains_eq_isSome_nodeAt?] at hcontains
      exact (Option.not_isSome_iff_eq_none.mp hcontains).symm

end Disk

end GameBridge
