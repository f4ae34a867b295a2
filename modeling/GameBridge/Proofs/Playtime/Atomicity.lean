import GameBridge.Proofs.Playtime.Recording
import GameBridge.Proofs.Store.Files

/-!
# A session is recorded as a whole

Recording a session sets two entries one after the other and stops at the first that cannot be set.
It is all or nothing nevertheless, as long as there is room: how the second one ends is settled when
the first one is set, since the folders of the disk decide, and setting an entry does not take any
away. Only on a disk that has room for the file with the new total and none for the one with the end
as well, the total is left behind alone. So there are four outcomes, and in each of them the entries
of other games stay in memory as they were.

What is on the disk can differ from what is in memory, and then it matters that all entries are
written at once: a session that is recorded leaves on the disk what is in memory, whatever others
had written there. A session that is not recorded leaves at the path what is there once its folder
was made, and for a path that goes back from a missing folder that can be a file that was out of
reach before.
-/

namespace GameBridge.Playtime

open Store (onDisk? temporaryExtension)

/-! ## Outcomes -/

/-- What is left behind by a session that was recorded. -/
structure Recorded (store : Store) (disk : Disk) (id : String) (stop : Time) (sum : UInt64)
    (after : Store) (now : Disk) : Prop where
  time : after.get? (timeKey id) = some (Decimal.ofUInt64 sum)
  last : after.get? (lastKey id) = some (Decimal.ofInt64 stop)
  others : ∀ key, key ≠ timeKey id → key ≠ lastKey id → after.get? key = store.get? key
  /-- Without a file nothing happens to the disk. -/
  memory : ∀ failing, store.backing = .memory failing → now = disk
  /-- The file holds what is in memory. -/
  file : ∀ path, store.backing = .file path → Store.ofFile now path = .ok after
  /-- What was the same on the disk and in memory stays on the disk. -/
  kept : ∀ path, store.backing = .file path → ∀ key, key ≠ timeKey id → key ≠ lastKey id →
    onDisk? disk path key = store.get? key → onDisk? now path key = onDisk? disk path key

/-- What is left on the disk by a session whose total could not be stored. A file that is its own
temporary file is left out, unless there was room for it. -/
structure Refused [Room] (store : Store) (disk : Disk) (id : String) (sum : UInt64)
    (now : Disk) : Prop where
  /-- Without a file nothing happens to the disk. -/
  memory : ∀ failing, store.backing = .memory failing → now = disk
  /-- At the path is what is there once the folder was made. -/
  file : ∀ path, store.backing = .file path →
    path.extension ≠ temporaryExtension ∨ store.Fits disk (timeKey id) (Decimal.ofUInt64 sum) →
      now.nodeAt? path = (Store.prepare disk path).2.nodeAt? path
  /-- That is what was there before, if there was something, if the folder was there, or if the path
  does not go back. -/
  kept : ∀ path, store.backing = .file path →
    path.extension ≠ temporaryExtension ∨ store.Fits disk (timeKey id) (Decimal.ofUInt64 sum) →
    disk.contains path = true ∨ Store.hasFolder disk path = true ∨ ".." ∉ path.names →
      ∀ key, onDisk? now path key = onDisk? disk path key

/-- What is left behind by a session of which only the total could be stored. -/
structure Halfway (store : Store) (disk : Disk) (id : String) (sum : UInt64) (after : Store)
    (now : Disk) : Prop where
  time : after.get? (timeKey id) = some (Decimal.ofUInt64 sum)
  others : ∀ key, key ≠ timeKey id → after.get? key = store.get? key
  /-- It takes a file. -/
  backing : ∃ path, store.backing = .file path
  /-- The file holds what is in memory, unless it is its own temporary file. -/
  file : ∀ path, store.backing = .file path → path.extension ≠ temporaryExtension →
    Store.ofFile now path = .ok after
  /-- What was the same on the disk and in memory stays on the disk. -/
  kept : ∀ path, store.backing = .file path → path.extension ≠ temporaryExtension →
    ∀ key, key ≠ timeKey id → onDisk? disk path key = store.get? key →
      onDisk? now path key = onDisk? disk path key

section Record

variable [Room] {store : Store} {disk : Disk} {id : String} {stop : Time} {sum : UInt64}
  {between now : Disk} {failure : Failure}

theorem recorded_withSession
    (htime : putTotal store disk id sum = (.ok (), withTotal store id sum, between))
    (hlast : putEnd (withTotal store id sum) between id stop
      = (.ok (), withSession store id sum stop, now)) :
    Recorded store disk id stop sum (withSession store id sum stop) now := by
  have hfile (path : Path) (h : store.backing = .file path) :
      Store.ofFile now path = .ok (withSession store id sum stop) := by
    have hbacking : (withTotal store id sum).backing = .file path := h
    exact (Store.ofFile_of_put hbacking hlast).1
  refine ⟨get?_withSession_time, get?_withSession_last,
    fun _ htime hlast ↦ get?_withSession_of_ne htime hlast, fun failing h ↦ ?_, hfile,
    fun path h key htime hlast hagree ↦ ?_⟩
  · have hbetween := Store.disk_put_of_memory h disk (timeKey id) (Decimal.ofUInt64 sum)
    have hbacking : (withTotal store id sum).backing = .memory failing := h
    have hnow := Store.disk_put_of_memory hbacking between (lastKey id) (Decimal.ofInt64 stop)
    rw [← putTotal, htime] at hbetween
    rw [← putEnd, hlast] at hnow
    exact hnow.trans hbetween
  · rw [Store.onDisk?_of_ofFile (hfile path h), get?_withSession_of_ne htime hlast, hagree]

theorem refused_putTotal (htime : putTotal store disk id sum = (.error failure, store, now)) :
    Refused store disk id sum now := by
  refine ⟨fun failing h ↦ ?_, fun path h ↦ (Store.nodeAt?_of_put_fails h htime).2,
    fun path h hroom hreach ↦ ?_⟩
  · have hnow := Store.disk_put_of_memory h disk (timeKey id) (Decimal.ofUInt64 sum)
    rwa [← putTotal, htime] at hnow
  · exact Store.onDisk?_of_nodeAt?
      (((Store.nodeAt?_of_put_fails h htime).2 hroom).trans (Store.nodeAt?_prepare hreach))

theorem halfway_withTotal
    (htime : putTotal store disk id sum = (.ok (), withTotal store id sum, between))
    (hfull : ¬(withTotal store id sum).Fits between (lastKey id) (Decimal.ofInt64 stop))
    (hlast : putEnd (withTotal store id sum) between id stop
      = (.error failure, withTotal store id sum, now)) :
    Halfway store disk id sum (withTotal store id sum) now := by
  have hfile (path : Path) (h : store.backing = .file path)
      (hextension : path.extension ≠ temporaryExtension) :
      Store.ofFile now path = .ok (withTotal store id sum) := by
    have hbetween := (Store.nodeAt?_of_put h htime).1
    have hbacking : (withTotal store id sum).backing = .file path := h
    have hnow := (Store.nodeAt?_of_put_fails hbacking hlast).2 (Or.inl hextension)
    rw [Store.nodeAt?_prepare (Or.inl (by rw [Disk.contains_eq_isSome_nodeAt?, hbetween]; rfl)),
      hbetween] at hnow
    rw [Store.ofFile_of_nodeAt? hnow, withTotal, h]
  refine ⟨get?_withTotal_time, fun _ htime ↦ get?_withTotal_of_ne htime, ?_, hfile,
    fun path h hextension key htime hagree ↦ ?_⟩
  · rcases hbacking : store.backing with failing | path
    · exact absurd (by simp [Store.Fits, withTotal, hbacking]) hfull
    · exact ⟨path, rfl⟩
  · rw [Store.onDisk?_of_ofFile (hfile path h hextension), get?_withTotal_of_ne htime, hagree]

end Record

/-- **All or nothing.** If the new total can be stored and there is room for the end, the session is
recorded: its total is the answer, and both entries are set, with all others as they were. If the
total before cannot be read, nothing changes at all. If the new total cannot be stored, nothing
changes in memory. If it can and there is no room for the end, the total is all that changes. What
the disk holds then is what `Recorded`, `Refused` and `Halfway` say. -/
theorem record_atomic [Room] (store : Store) (disk : Disk) (id : String) (start stop : Time) :
    (∃ known sum middle between after now, total store id = .ok known
        ∧ sum = addMinutes (known.getD 0) (sessionMinutes start stop)
        ∧ store.put disk (timeKey id) (Decimal.ofUInt64 sum) = (.ok (), middle, between)
        ∧ middle.Fits between (lastKey id) (Decimal.ofInt64 stop)
        ∧ record store disk id start stop = (.ok sum, after, now)
        ∧ Recorded store disk id stop sum after now) ∨
      (∃ failure, total store id = .error failure
        ∧ record store disk id start stop = (.error failure, store, disk)) ∨
      (∃ known sum failure now, total store id = .ok known
        ∧ sum = addMinutes (known.getD 0) (sessionMinutes start stop)
        ∧ (store.put disk (timeKey id) (Decimal.ofUInt64 sum)).1 = .error failure
        ∧ record store disk id start stop = (.error failure, store, now)
        ∧ Refused store disk id sum now) ∨
      ∃ known sum failure middle between now, total store id = .ok known
        ∧ sum = addMinutes (known.getD 0) (sessionMinutes start stop)
        ∧ store.put disk (timeKey id) (Decimal.ofUInt64 sum) = (.ok (), middle, between)
        ∧ ¬middle.Fits between (lastKey id) (Decimal.ofInt64 stop)
        ∧ record store disk id start stop = (.error failure, middle, now)
        ∧ Halfway store disk id sum middle now := by
  have hsteps := steps_record store disk id start stop
  generalize record store disk id start stop = result at hsteps ⊢
  rcases hsteps with hsum | ⟨hsum, htime⟩ | ⟨hsum, htime, hfull, hlast⟩ |
    ⟨hsum, htime, hroom, hlast⟩
  · exact Or.inr (Or.inl ⟨_, newTotal_eq_error_iff.mp hsum, rfl⟩)
  · obtain ⟨known, hknown, hadd⟩ := newTotal_eq_ok_iff.mp hsum
    refine Or.inr (Or.inr (Or.inl ⟨known, _, _, _, hknown, hadd, ?_, rfl, refused_putTotal htime⟩))
    rw [← putTotal, htime]
  · obtain ⟨known, hknown, hadd⟩ := newTotal_eq_ok_iff.mp hsum
    exact Or.inr (Or.inr (Or.inr ⟨known, _, _, _, _, _, hknown, hadd, htime, hfull, rfl,
      halfway_withTotal htime hfull hlast⟩))
  · obtain ⟨known, hknown, hadd⟩ := newTotal_eq_ok_iff.mp hsum
    exact Or.inl ⟨known, _, _, _, _, _, hknown, hadd, htime, hroom, rfl,
      recorded_withSession htime hlast⟩

/-- A store that agrees with its file: a session is recorded beside another entry, and with a folder
in the way of the temporary file it is not, and both entries stay. -/
theorem record_atomic_blocked :
    let path := "c.json"
    let file : Node := .file (Text.bytes "\x7b\"other\":\"1\",\"time7\":\"5\"\x7d")
    let disk : Disk := .folder [("c.json", file)]
    let blocked : Disk := .folder [("c.json", file), ("c.tmp", .emptyFolder)]
    let store : Store := ⟨.ofList [("other", "1"), ("time7", "5")], .file path⟩
    (∃ after now, record store disk "7" 0 60 = (.ok 6, after, now)
        ∧ onDisk? now path "time7" = some "6" ∧ onDisk? now path "other" = some "1")
      ∧ ∃ failure now, record store blocked "7" 0 60 = (.error failure, store, now)
        ∧ onDisk? now path "time7" = some "5" ∧ onDisk? now path "other" = some "1" := by
  intro path file disk blocked store
  have hanswer : (record store disk "7" 0 60).1 = .ok 6 := by decide +kernel
  have hblocked : (record store blocked "7" 0 60).1
      = .error (.writeFailed "time7" Store.SaveFault.write.message) := by decide +kernel
  have hknown : (total store "7").isOk = true := by decide +kernel
  have hroom : store.Roomy := Store.roomy_of_unlimited (fun _ _ ↦ rfl) store
  constructor
  · obtain ⟨_, sum, _, _, after, now, -, -, -, -, hrecord, hleft⟩ | ⟨failure, -, hrecord⟩ |
      ⟨_, _, failure, now, -, -, -, hrecord, -⟩ |
      ⟨_, _, failure, _, _, now, -, -, -, -, hrecord, -⟩ := record_atomic store disk "7" 0 60
    · rw [hrecord] at hanswer
      obtain rfl := Except.ok.inj hanswer
      refine ⟨after, now, hrecord, ?_, ?_⟩
      · rw [Store.onDisk?_of_ofFile (hleft.file path rfl)]
        exact hleft.time
      · rw [hleft.kept path rfl "other" (by decide) (by decide) (by decide +kernel)]
        decide +kernel
    · exact absurd (hanswer.symm.trans (congrArg Prod.fst hrecord)) (by simp)
    · exact absurd (hanswer.symm.trans (congrArg Prod.fst hrecord)) (by simp)
    · exact absurd (hanswer.symm.trans (congrArg Prod.fst hrecord)) (by simp)
  · obtain ⟨_, sum, _, _, after, now, -, -, -, -, hrecord, -⟩ | ⟨failure, htotal, -⟩ |
      ⟨_, _, failure, now, -, -, -, hrecord, hleft⟩ |
      ⟨_, _, _, middle, _, _, -, -, hput, hfull, -⟩ := record_atomic store blocked "7" 0 60
    · exact absurd (hblocked.symm.trans (congrArg Prod.fst hrecord)) (by simp)
    · rw [htotal] at hknown
      exact absurd hknown (by simp [Except.isOk, Except.toBool])
    · have hkept := hleft.kept path rfl (Or.inl (by decide +kernel)) (Or.inl (by decide +kernel))
      refine ⟨failure, now, hrecord, ?_, ?_⟩
      · rw [hkept]
        decide +kernel
      · rw [hkept]
        decide +kernel
    · exact absurd (hroom.fits (by rw [Store.store_of_put hput]) _ _ _) hfull

/-- A folder in the way of the temporary file, and a path that leads back to a file from a folder
that is missing: the session is not recorded, but the folder is made and with it the path comes to
lead to the file. A file that others wrote after the store was opened: the session is recorded, and
what they wrote is gone. And a disk with room for the new total and none for the end: the session is
not recorded, but the total stays, in memory and on the disk. -/
theorem record_atomic_back :
    (let path := "a/../c.json"
      let disk : Disk := .folder [("c.json", .file (Text.bytes "\x7b\"time7\":\"5\"\x7d")),
        ("c.tmp", .emptyFolder)]
      let store : Store := ⟨.empty, .file path⟩
      let (answer, _, now) := record store disk "7" 0 60
      Store.ofFile disk path = .ok store
        ∧ answer = .error (.writeFailed "time7" Store.SaveFault.write.message)
        ∧ onDisk? disk path "time7" = none ∧ onDisk? now path "time7" = some "5")
      ∧ (let path := "c.json"
        let disk : Disk := .folder [("c.json", .file (Text.bytes "\x7b\"other\":\"1\"\x7d"))]
        let store : Store := ⟨.empty, .file path⟩
        let (answer, _, now) := record store disk "7" 0 60
        Store.ofFile .emptyFolder path = .ok store ∧ answer = .ok 1
          ∧ onDisk? disk path "other" = some "1" ∧ onDisk? now path "other" = none)
      ∧ let _ : Room := .ofCapacity 40
        let path := "c.json"
        let store : Store := ⟨.empty, .file path⟩
        let (answer, after, now) := record store .emptyFolder "7" 0 60
        Store.ofFile .emptyFolder path = .ok store
          ∧ answer = .error (.writeFailed "last7" Store.SaveFault.write.message)
          ∧ after.get? "time7" = some "1" ∧ onDisk? now path "time7" = some "1" := by
  decide +kernel

end GameBridge.Playtime
