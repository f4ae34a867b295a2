import Mathlib.Data.List.Infix
import GameBridge.Proofs.Store.Files

/-!
# A save that is interrupted

The process can stop between any two steps of a save, and what is then on the disk is found when the
store is opened again. `moments` lists the disks in question: one for every folder that is made, one
for every beginning of the content in the temporary file as far as there is room, and the last one.
`course_moments` is that nothing is left out, as each of them comes from the one before in a single
step, and the last is the one that the save ends with.

A step on the temporary file does not touch the file, and the last step puts the whole content in
its place. So the file is old or new, which is an invariant of the steps and needs no look at the
order of them. What can go wrong is in front of that: a folder that is made can complete the way of
a path that goes back, or bring a name to light that is too long.
-/

namespace GameBridge

open Node (SameFolders)

/-! ## Courses -/

/-- A list of states from one to another, each of which comes from the one before in one step. -/
inductive Course {α : Type} (step : α → α → Prop) : α → List α → α → Prop
  | stay (state : α) : Course step state [state] state
  | go {first next last : α} {states : List α} (h : step first next)
    (rest : Course step next states last) : Course step first (first :: states) last

namespace Course

variable {α : Type} {step : α → α → Prop} {first middle last : α} {states more : List α}

theorem append (h : Course step first states middle)
    (h' : Course step middle (middle :: more) last) : Course step first (states ++ more) last := by
  induction h with
  | stay state => exact h'
  | go hstep rest ih => exact .go hstep (ih h')

theorem last_mem (h : Course step first states last) : last ∈ states := by
  induction h with
  | stay state => exact List.mem_cons_self
  | go hstep rest ih => exact List.mem_cons_of_mem _ ih

theorem invariant {P : α → Prop} (hstep : ∀ a b, step a b → P a → P b)
    (h : Course step first states last) (hfirst : P first) : ∀ state ∈ states, P state := by
  induction h with
  | stay state => exact fun _ hmem ↦ List.mem_singleton.mp hmem ▸ hfirst
  | go hnext rest ih =>
    intro state hmem
    rcases List.mem_cons.mp hmem with rfl | hmem
    · exact hfirst
    · exact ih (hstep _ _ hnext hfirst) state hmem

theorem mono {other : α → α → Prop} (hstep : ∀ a b, step a b → other a b)
    (h : Course step first states last) : Course other first states last := by
  induction h with
  | stay state => exact .stay state
  | go hnext rest ih => exact .go (hstep _ _ hnext) ih

end Course

/-! ## Making folders -/

namespace Disk

/-- The disks that there are while a chain of folders is made. -/
def chainMoments (disk : Disk) : List Path → List Disk
  | [] => [disk]
  | path :: above =>
    if path = "" then [disk]
    else
      match disk.makeFolder path with
      | .ok made => [disk, made]
      | .error .notFound =>
        chainMoments disk above ++
          match makeChain disk above with
          | (some _, _) => []
          | (none, now) => (now.makeFolder path).toOption.toList
      | .error _ => [disk]

/-- One of several folders is made. -/
def MakesOne (folders : List Path) (a b : Disk) : Prop :=
  ∃ folder ∈ folders, a.makeFolder folder = .ok b

/-- **Folders one by one.** Making a chain of folders goes from disk to disk by making one of them.
-/
theorem course_chainMoments (disk : Disk) (chain : List Path) :
    Course (MakesOne chain) disk (disk.chainMoments chain) (disk.makeChain chain).2 := by
  induction chain with
  | nil => exact .stay disk
  | cons path above ih =>
    rw [chainMoments, makeChain]
    by_cases hempty : path = ""
    · rw [if_pos hempty, if_pos hempty]
      exact .stay disk
    rw [if_neg hempty, if_neg hempty]
    have habove : Course (MakesOne (path :: above)) disk (disk.chainMoments above)
        (disk.makeChain above).2 := by
      refine ih.mono ?_
      rintro a b ⟨folder, hmem, hmake⟩
      exact ⟨folder, List.mem_cons_of_mem _ hmem, hmake⟩
    cases hmake : disk.makeFolder path with
    | ok made => exact .go ⟨path, List.mem_cons_self, hmake⟩ (.stay made)
    | error fault =>
      cases fault with
      | notFound =>
        rcases hchain : disk.makeChain above with ⟨other | other, now⟩
        · rw [hchain] at habove
          dsimp only
          cases hlast : now.makeFolder path with
          | ok made => exact habove.append (.go ⟨path, List.mem_cons_self, hlast⟩ (.stay made))
          | error last => exact (List.append_nil _).symm ▸ habove
        · rw [hchain] at habove
          exact (List.append_nil _).symm ▸ habove
      | _ => exact .stay disk

end Disk

namespace Store

/-- The disks that there are while the folder of a file is made. -/
def folderMoments (disk : Disk) (path : Path) : List Disk :=
  match path.parent? with
  | some folder => disk.chainMoments folder.chain
  | none => [disk]

/-- A folder above a file is made. -/
def FolderStep (path : Path) (a b : Disk) : Prop :=
  ∃ parent, path.parent? = some parent ∧ Disk.MakesOne parent.chain a b

theorem course_folderMoments (disk : Disk) (path : Path) :
    Course (FolderStep path) disk (folderMoments disk path) (prepare disk path).2 := by
  rw [folderMoments, prepare]
  cases hparent : path.parent? with
  | none => exact .stay disk
  | some parent =>
    exact (disk.course_chainMoments parent.chain).mono fun a b h ↦ ⟨parent, hparent, h⟩

/-- Whether the folders that a save makes cannot matter to what is found at the path: something is
there, or the folder is, or the path does not go back and has no name that is too long. -/
def Settled (disk : Disk) (path : Path) : Prop :=
  disk.contains path = true ∨ hasFolder disk path = true ∨ Disk.Plain path

theorem folderMoments_of_hasFolder {disk : Disk} {path : Path} (h : hasFolder disk path = true) :
    folderMoments disk path = [disk] := by
  rw [hasFolder] at h
  rw [folderMoments]
  cases hparent : path.parent? with
  | none => rfl
  | some parent =>
    rw [hparent, Option.all_some, Bool.or_eq_true, decide_eq_true_eq] at h
    obtain ⟨above, hchain⟩ := Disk.exists_chain_eq_cons parent
    dsimp only
    rw [hchain, Disk.chainMoments]
    by_cases hempty : parent = ""
    · rw [if_pos hempty]
    rw [if_neg hempty]
    rcases Disk.makeFolder_of_isFolder (h.resolve_left hempty) with hmake | hmake
    · rw [hmake]
    · rw [hmake]

theorem contentAt_of_mem_folderMoments {disk made : Disk} {path : Path}
    (h : Settled disk path) (hmem : made ∈ folderMoments disk path) :
    made.contentAt path = disk.contentAt path := by
  have hthere : hasFolder disk path = true → made.contentAt path = disk.contentAt path := by
    intro hfolder
    rw [folderMoments_of_hasFolder hfolder] at hmem
    rw [List.mem_singleton.mp hmem]
  rcases h with hcontains | hfolder | hplain
  · exact hthere (hasFolder_of_contains hcontains)
  · exact hthere hfolder
  · refine (course_folderMoments disk path).invariant
      (P := fun now ↦ now.contentAt path = disk.contentAt path) ?_ rfl made hmem
    rintro a b ⟨parent, hparent, folder, hfolder, hmake⟩ ha
    exact (Disk.contentAt_of_makeFolder hparent hfolder hplain hmake).trans ha

end Store

/-! ## Writing and renaming -/

namespace Disk

section Write

variable [Room] {disk written : Disk} {path : Path} {content : List UInt8}

theorem contentAt_of_write (h : disk.write path content = .ok written) :
    written.contentAt path = .ok content := by
  have hsame := (sameFolders_of_write h).symm
  obtain ⟨place, name, hslot, -, hslash, -, rfl⟩ := write_eq_ok_iff.mp h
  rw [contentAt_eq_ok_iff, nodeAt?_of_slot (slot_eq_of_within hsame.within hslot),
    Node.at?_place_self (slot_eq_ok_iff.mp hslot).2.2.2.1, hslash]
  rfl

theorem roomFor_of_write (h : disk.write path content = .ok written) (next : List UInt8) :
    written.roomFor path next = disk.roomFor path next := by
  have hsame := (sameFolders_of_write h).symm
  obtain ⟨place, name, hslot, -, -, -, rfl⟩ := write_eq_ok_iff.mp h
  rw [roomFor, roomFor, slot_eq_of_within hsame.within hslot, hslot]
  simp only [Node.remove_place]

theorem write_of_write (h : disk.write path content = .ok written) {next : List UInt8} {now : Disk}
    (hnext : disk.write path next = .ok now) : written.write path next = .ok now := by
  have hsame := (sameFolders_of_write h).symm
  have hroom := roomFor_of_write h next
  obtain ⟨place, name, hslot, hfree, hslash, -, rfl⟩ := write_eq_ok_iff.mp h
  obtain ⟨place', name', hslot', -, -, hfits, rfl⟩ := write_eq_ok_iff.mp hnext
  obtain ⟨rfl, rfl⟩ := Prod.mk.inj (Except.ok.inj (hslot'.symm.trans hslot))
  exact write_eq_ok_iff.mpr ⟨place', name', slot_eq_of_within hsame.within hslot,
    (hsame _).symm.trans hfree, hslash, hroom.trans hfits, (Node.place_place _ _ _ _).symm⟩

end Write

end Disk

namespace Store

section Room

variable [Room]

/-- One step of a save once the folder is there. -/
inductive FileStep (path : Path) (content : List UInt8) (disk : Disk) : Disk → Prop
  /-- There is a temporary file, and it is empty. -/
  | empty {written : Disk} (hwrite : disk.write (temporary path) [] = .ok written) :
      FileStep path content disk written
  /-- The next byte of the content is added to it. -/
  | extend {written : Disk} {old rest : List UInt8} {byte : UInt8}
      (hcontent : content = old ++ byte :: rest)
      (hold : disk.contentAt (temporary path) = .ok old)
      (hwrite : disk.write (temporary path) (old ++ [byte]) = .ok written) :
      FileStep path content disk written
  /-- It holds the whole content and takes the place of the file. -/
  | rename {done : Disk} (hold : disk.contentAt (temporary path) = .ok content)
      (hrename : disk.rename (temporary path) path = .ok done) : FileStep path content disk done

/-- The disks that there are after the folder of a file was made. -/
def fileMoments (prepared : Disk) (path : Path) (content : List UInt8) : List Disk :=
  (prepared.roomFor (temporary path) content).inits.filterMap (fun beginning ↦
      (prepared.write (temporary path) beginning).toOption) ++
    match prepared.write (temporary path) content with
    | .error _ => []
    | .ok written => (written.rename (temporary path) path).toOption.toList

theorem course_beginnings {prepared now written : Disk} {path : Path} {content stored : List UInt8}
    (old rest : List UInt8) (hcontent : stored <+: content) (hstored : stored = old ++ rest)
    (hnow : prepared.write (temporary path) old = .ok now)
    (hwritten : prepared.write (temporary path) stored = .ok written) :
    Course (FileStep path content) now
      (rest.inits.filterMap fun more ↦ (prepared.write (temporary path) (old ++ more)).toOption)
      written := by
  induction rest generalizing old now with
  | nil =>
    rw [hstored, List.append_nil, hnow] at hwritten
    obtain rfl := Except.ok.inj hwritten
    rw [List.inits, List.filterMap_cons, List.append_nil, hnow]
    exact .stay now
  | cons byte rest ih =>
    obtain ⟨more, hmore⟩ := hcontent
    obtain ⟨next, hnext⟩ : ∃ next, prepared.write (temporary path) (old ++ [byte]) = .ok next := by
      obtain ⟨htakes, hroom⟩ := Disk.exists_write_iff.mp ⟨written, hwritten⟩
      have hbeginning : old ++ [byte] <+: prepared.roomFor (temporary path) stored :=
        hroom.symm ▸ ⟨rest, by rw [hstored, List.append_assoc]; rfl⟩
      exact Disk.exists_write_iff.mpr ⟨htakes, Disk.roomFor_of_prefix hbeginning⟩
    have hsplit : content = old ++ byte :: (rest ++ more) := by
      rw [← hmore, hstored, List.append_assoc]
      rfl
    have hstep : FileStep path content now next :=
      .extend hsplit (Disk.contentAt_of_write hnow) (Disk.write_of_write hnow hnext)
    have hrest := ih (old ++ [byte]) (by rw [hstored, List.append_assoc]; rfl) hnext
    rw [List.inits_cons, List.filterMap_cons, List.append_nil, hnow, List.filterMap_map]
    refine .go hstep ?_
    simpa [Function.comp_def] using hrest

/-- **The file after the folder.** -/
theorem course_fileMoments {disk prepared : Disk} {path : Path}
    (hprepare : prepare disk path = (none, prepared)) (content : List UInt8) :
    Course (FileStep path content) prepared (prepared :: fileMoments prepared path content)
      (save disk path content).2 := by
  rw [save, hprepare, fileMoments]
  dsimp only
  cases htakes : prepared.takes (temporary path) with
  | false =>
    -- nothing is written, so there is no beginning either
    have hnone (bytes : List UInt8) : ∃ fault, prepared.write (temporary path) bytes = .error fault
        := by
      cases hwrite : prepared.write (temporary path) bytes with
      | error fault => exact ⟨fault, rfl⟩
      | ok written => exact absurd (Disk.takes_of_write hwrite) (by simp [htakes])
    have hempty : (prepared.roomFor (temporary path) content).inits.filterMap (fun beginning ↦
        (prepared.write (temporary path) beginning).toOption) = [] := by
      refine List.filterMap_eq_nil_iff.mpr fun beginning _ ↦ ?_
      obtain ⟨fault, hwrite⟩ := hnone beginning
      rw [hwrite]
      rfl
    obtain ⟨fault, hwrite⟩ := hnone content
    rw [hempty, hwrite, Disk.leftover_of_not_takes htakes]
    exact .stay prepared
  | true =>
    have hstored : prepared.write (temporary path) (prepared.roomFor (temporary path) content)
        = .ok (prepared.leftover (temporary path) content) := Disk.write_leftover htakes
    have hnothing : [] <+: prepared.roomFor (temporary path) content := List.nil_prefix
    obtain ⟨now, hnow⟩ : ∃ now, prepared.write (temporary path) [] = .ok now :=
      Disk.exists_write_iff.mpr ⟨htakes, Disk.roomFor_of_prefix hnothing⟩
    refine .go (.empty hnow) ?_
    have hcourse := course_beginnings [] _ (Disk.roomFor_prefix ..) rfl hnow hstored
    cases hwritten : prepared.write (temporary path) content with
    | error fault => exact (List.append_nil _).symm ▸ hcourse
    | ok written =>
      have hroom := (Disk.exists_write_iff.mp ⟨written, hwritten⟩).2
      rw [hroom, hwritten] at hstored
      obtain rfl := Except.ok.inj hstored
      dsimp only
      cases hrename : (prepared.leftover (temporary path) content).rename (temporary path) path with
      | error fault => exact (List.append_nil _).symm ▸ hcourse
      | ok done =>
        exact hcourse.append
          (.go (.rename (Disk.contentAt_of_write hwritten) hrename) (.stay done))

/-! ## All moments of a save -/

/-- The disks that there are while a file is saved, from the one that is there before to the one
that is there after. -/
def moments (disk : Disk) (path : Path) (content : List UInt8) : List Disk :=
  folderMoments disk path ++
    match prepare disk path with
    | (some _, _) => []
    | (none, prepared) => fileMoments prepared path content

/-- One step of a save. -/
def SaveStep (path : Path) (content : List UInt8) (a b : Disk) : Prop :=
  FolderStep path a b ∨ FileStep path content a b

/-- **Step by step.** A save goes through its moments, one after the other. -/
theorem course_moments (disk : Disk) (path : Path) (content : List UInt8) :
    Course (SaveStep path content) disk (moments disk path content)
      (save disk path content).2 := by
  have hfolders := course_folderMoments disk path
  rw [moments]
  rcases hprepare : prepare disk path with ⟨fault | fault, prepared⟩
  · rw [hprepare] at hfolders
    have hfile := course_fileMoments hprepare content
    exact (hfolders.mono fun _ _ ↦ Or.inl).append (hfile.mono fun _ _ ↦ Or.inr)
  · rw [hprepare] at hfolders
    rw [save_of_not_prepare hprepare, List.append_nil]
    exact hfolders.mono fun _ _ ↦ Or.inl

/-! ## What is found -/

/-- A step on the temporary file does not change what is read at the path, or puts the content
there. It changes no folder. -/
theorem contentAt_of_fileStep {a b : Disk} {path : Path} {content : List UInt8}
    (hextension : path.extension ≠ temporaryExtension) (h : FileStep path content a b) :
    SameFolders a b ∧ (b.contentAt path = a.contentAt path ∨ b.contentAt path = .ok content) := by
  have hbeside : ∀ {bytes : List UInt8}, a.write (temporary path) bytes = .ok b →
      SameFolders a b ∧ (b.contentAt path = a.contentAt path ∨ b.contentAt path = .ok content) := by
    intro bytes hwrite
    have hsame := (Disk.sameFolders_of_write hwrite).symm
    obtain ⟨place, last, hslot, -, -, -, rfl⟩ := Disk.write_eq_ok_iff.mp hwrite
    obtain ⟨name, dots, hends, hother⟩ := ends_of_temporary hslot
    refine ⟨hsame, Or.inl ((hends.of_sameFolders hsame).contentAt_congr hends ?_)⟩
    rw [Node.at?_place_sibling _ (hother hextension).symm]
  cases h with
  | empty hwrite => exact hbeside hwrite
  | extend hcontent hold hwrite => exact hbeside hwrite
  | rename hold hrename =>
    have hsame := (Disk.sameFolders_of_rename hrename).symm
    refine ⟨hsame, Or.inr ?_⟩
    obtain ⟨⟨place, last⟩, target, moved, hslot, hg, hmoved, -, hslash, hmove⟩ :=
      Disk.rename_eq_ok_iff.mp hrename
    rw [Bool.or_eq_false_iff] at hslash
    obtain ⟨name, dots, hends, -⟩ := ends_of_temporary hslot
    obtain ⟨rfl, rfl⟩ := hends.slot_eq hg
    obtain rfl : moved = content := by
      rw [Disk.contentAt_eq_ok_iff, Disk.nodeAt?_of_slot hslot, hmoved, hslash.1] at hold
      exact Node.file.inj (Option.some.inj hold)
    rw [Disk.contentAt_eq_ok_iff, Disk.nodeAt?_of_slot (Disk.slot_eq_of_within hsame.within hg),
      (at?_of_move hends.folder hmoved hmove).1, hslash.2]
    rfl

/-- At every moment of a save the path has the content that is saved, or what it has on the disk
with the folders that were made by then and nothing else. -/
theorem contentAt_of_mem_moments {disk now : Disk} {path : Path} {content : List UInt8}
    (hextension : path.extension ≠ temporaryExtension) (hmem : now ∈ moments disk path content) :
    now.contentAt path = .ok content ∨ ∃ made ∈ folderMoments disk path, SameFolders made now
      ∧ now.contentAt path = made.contentAt path := by
  rw [moments, List.mem_append] at hmem
  rcases hmem with hfolder | hfile
  · exact Or.inr ⟨now, hfolder, SameFolders.refl now, rfl⟩
  rcases hprepare : prepare disk path with ⟨fault | fault, prepared⟩
  · rw [hprepare] at hfile
    have hlast : prepared ∈ folderMoments disk path := by
      have hcourse := course_folderMoments disk path
      rw [hprepare] at hcourse
      exact hcourse.last_mem
    obtain ⟨hsame, hcontent⟩ := (course_fileMoments hprepare content).invariant
      (P := fun now : Disk ↦ SameFolders prepared now
        ∧ (now.contentAt path = prepared.contentAt path ∨ now.contentAt path = .ok content))
      (fun a b hstep ⟨hsame, ha⟩ ↦ by
        obtain ⟨hkeeps, hb⟩ := contentAt_of_fileStep hextension hstep
        exact ⟨hsame.trans hkeeps, hb.elim (fun hb ↦ hb ▸ ha) Or.inr⟩)
      ⟨SameFolders.refl prepared, Or.inl rfl⟩ now (List.mem_cons_of_mem _ hfile)
    exact hcontent.symm.imp_right fun hcontent ↦ ⟨prepared, hlast, hsame, hcontent⟩
  · rw [hprepare] at hfile
    exact absurd hfile List.not_mem_nil

omit [Room] in
theorem ofFile_congr {a b : Disk} {path : Path} (h : a.contentAt path = b.contentAt path) :
    ofFile a path = ofFile b path := by
  rw [ofFile, ofFile, load, load, h]

omit [Room] in
theorem ofFile_of_contentAt {disk : Disk} {path : Path} {entries : Index String}
    (h : disk.contentAt path = .ok (Json.indexBytes entries)) :
    ofFile disk path = .ok ⟨entries, .file path⟩ :=
  ofFile_of_nodeAt? (Disk.contentAt_eq_ok_iff.mp h)

/-- **A save that is interrupted.** Setting an entry goes from disk to disk, making one folder,
writing one byte or renaming the file at a time. Wherever it stops, opening the store gives what it
gave before, or all entries with the new one. Only where the path is not settled, the folders that
were made by then can have changed what it gives. -/
theorem ofFile_of_mem_moments {store : Store} {path : Path} (hbacking : store.backing = .file path)
    (hextension : path.extension ≠ temporaryExtension) (disk : Disk) (key value : String) :
    let entries := store.entries.insert key value
    let content := Json.indexBytes entries
    Course (SaveStep path content) disk (moments disk path content) (store.put disk key value).2.2
      ∧ ∀ now ∈ moments disk path content,
        ofFile now path = .ok ⟨entries, .file path⟩ ∨
          ∃ made ∈ folderMoments disk path, SameFolders made now
            ∧ ofFile now path = ofFile made path
            ∧ (Settled disk path → ofFile made path = ofFile disk path) := by
  intro entries content
  constructor
  · have hcourse := course_moments disk path content
    rcases put_of_file hbacking disk key value with
      ⟨after, hsave, hput⟩ | ⟨fault, after, hsave, hput⟩
    · rw [hsave] at hcourse
      rw [hput]
      exact hcourse
    · rw [hsave] at hcourse
      rw [hput]
      exact hcourse
  · intro now hmem
    obtain hnew | ⟨made, hmade, hsame, hold⟩ := contentAt_of_mem_moments hextension hmem
    · exact Or.inl (ofFile_of_contentAt hnew)
    · exact Or.inr ⟨made, hmade, hsame, ofFile_congr hold, fun hsettled ↦
        ofFile_congr (contentAt_of_mem_folderMoments hsettled hmade)⟩

end Room

/-- The first entry of a new store, in a folder that has to be made: however far it gets, there is
no entry or the one. -/
theorem ofFile_of_mem_moments_new :
    let path : Path := "d/c.json"
    let store : Store := ⟨.empty, .file path⟩
    let entries := store.entries.insert "k" "v"
    store.backing = .file path ∧ path.extension ≠ temporaryExtension
      ∧ Settled .emptyFolder path ∧ ofFile .emptyFolder path = .ok store
      ∧ ∀ now ∈ moments .emptyFolder path (Json.indexBytes entries),
        ofFile now path = .ok ⟨entries, .file path⟩ ∨ ofFile now path = .ok store := by
  intro path store entries
  have hextension : path.extension ≠ temporaryExtension := by decide +kernel
  have hplain : ∀ name ∈ path.names, name ≠ ".." ∧ ¬Disk.maxNameBytes < name.utf8ByteSize := by
    decide +kernel
  have hsettled : Settled .emptyFolder path := Or.inr (Or.inr hplain)
  have hopen : ofFile .emptyFolder path = .ok store := by decide +kernel
  have hbacking : store.backing = .file path := rfl
  have hmoments := (ofFile_of_mem_moments hbacking hextension .emptyFolder "k" "v").2
  refine ⟨hbacking, hextension, hsettled, hopen, fun now hmem ↦ (hmoments now hmem).imp_right ?_⟩
  rintro ⟨made, -, -, hnow, hmade⟩
  exact hnow.trans ((hmade hsettled).trans hopen)

/-- Two paths that are not settled. The one goes back from a missing folder: once that is made, the
path refers to a file that was there before and cannot be read. The other has a name that is too
long, which matters once the folder in front of it is made. Either way a store that could be opened
before cannot be opened then. -/
theorem ofFile_of_mem_moments_unsettled :
    let back : Disk := .folder [("c.json", .file []), ("c.tmp", .emptyFolder)]
    let long : Path := "d/" ++ String.ofList (List.replicate 256 'c')
    ∀ tried ∈ [(back, "a/../c.json"), (.emptyFolder, long)],
      let store : Store := ⟨.empty, .file tried.2⟩
      let entries := store.entries.insert "k" "v"
      Path.extension tried.2 ≠ temporaryExtension ∧ ofFile tried.1 tried.2 = .ok store
        ∧ ∃ now ∈ moments tried.1 tried.2 (Json.indexBytes entries),
          ofFile now tried.2 ≠ ofFile tried.1 tried.2
            ∧ ofFile now tried.2 ≠ .ok ⟨entries, .file tried.2⟩ := by
  decide +kernel

/-! ## One interruption after the other -/

section Leaves

variable [Room]

/-- What saves of entries that were interrupted, one after the other, leave on a disk. -/
inductive Leaves (path : Path) (disk : Disk) : List (Index String) → Disk → Prop
  | nothing : Leaves path disk [] disk
  | save {before now : Disk} {saved : List (Index String)} {entries : Index String}
    (h : Leaves path disk saved before)
    (hmem : now ∈ moments before path (Json.indexBytes entries)) :
    Leaves path disk (entries :: saved) now

/-- However often saves are interrupted, opening the store gives what it gave before the first one,
or just the entries of one of them. -/
theorem ofFile_of_leaves {disk now : Disk} {path : Path} {saved : List (Index String)}
    (hplain : Disk.Plain path) (hextension : path.extension ≠ temporaryExtension)
    (h : Leaves path disk saved now) :
    ofFile now path = ofFile disk path ∨
      ∃ entries ∈ saved, ofFile now path = .ok ⟨entries, .file path⟩ := by
  induction h with
  | nothing => exact Or.inl rfl
  | @save before now saved entries _ hmem ih =>
    obtain hnew | ⟨made, hmade, -, hold⟩ := contentAt_of_mem_moments hextension hmem
    · exact Or.inr ⟨entries, List.mem_cons_self, ofFile_of_contentAt hnew⟩
    · have hmade := contentAt_of_mem_folderMoments (Or.inr (Or.inr hplain)) hmade
      rw [ofFile_congr (hold.trans hmade)]
      exact ih.imp_right fun ⟨found, hfound, heq⟩ ↦ ⟨found, List.mem_cons_of_mem _ hfound, heq⟩

end Leaves

end Store

end GameBridge
