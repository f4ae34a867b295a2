import GameBridge.Capacity
import GameBridge.Config
import GameBridge.Proofs.Schedule.Throttle
import GameBridge.Wire.Reply
import Mathlib.Algebra.Order.Ring.Int

/-!
# Countdowns

Whether a task is due is decided by a difference that is held within 64 bits, so it can be asked at
any time. The countdown is not held: it adds the interval to the last check, adds one, and takes the
clock off, and where one of these steps leaves the range there is no answer at all, neither for the
task nor for the status of the engine nor for a host that asks how the bridge is doing.

`TaskStatus.Countable` says that all steps stay within the range. The configuration does not provide
for it, as it accepts every interval there is, and the store does not either, as it may hold every
time. With intervals up to `2 ^ 62` seconds and times up to `2 ^ 53` there is always an answer.
-/

namespace GameBridge

theorem Time.fits_iff {i : Int} : Time.fits i = true ↔ -2 ^ 63 ≤ i ∧ i < 2 ^ 63 := by
  rw [fits, decide_eq_true_iff, Int64.toInt_minValue, Int64.toInt_maxValue]
  omega

/-! ## One task -/

/-- Every step of a countdown stays within 64 bits. -/
structure Time.Countable (since : Time) (interval : Int64) (now : Time) : Prop where
  sum : fits (since.toInt + interval.toInt) = true
  next : fits (since.toInt + interval.toInt + 1) = true
  rest : fits (since.toInt + interval.toInt + 1 - now.toInt) = true

theorem Time.countable_iff {since : Time} {interval : Int64} {now : Time}
    (h : 0 ≤ interval.toInt) :
    since.Countable interval now ↔ since.toInt + interval.toInt + 1 < 2 ^ 63
      ∧ -2 ^ 63 ≤ since.toInt + interval.toInt + 1 - now.toInt
      ∧ since.toInt + interval.toInt + 1 - now.toInt < 2 ^ 63 := by
  have hsince := since.le_toInt
  constructor
  · rintro ⟨-, hnext, hrest⟩
    exact ⟨(fits_iff.mp hnext).2, fits_iff.mp hrest⟩
  · rintro ⟨hend, hrest⟩
    exact ⟨fits_iff.mpr (by omega), fits_iff.mpr (by omega), fits_iff.mpr hrest⟩

namespace TaskStatus

/-- The seconds until the task is due, without any limit. -/
def remaining (status : TaskStatus) (now : Time) : Int :=
  match status.lastCheck with
  | none => 0
  | some since =>
    if status.isDue now then 0 else max 0 (since.toInt + status.interval.toInt + 1 - now.toInt)

/-- There is nothing to count, or the countdown stays within 64 bits. -/
def Countable (status : TaskStatus) (now : Time) : Prop :=
  ∀ since ∈ status.lastCheck, status.isDue now = true ∨ since.Countable status.interval now

end TaskStatus

namespace Schedule

/-- A countdown crashes just if one of its steps leaves the range, and is exact otherwise. -/
theorem countdown_cases (since : Time) (interval : Int64) (now : Time) :
    (since.Countable interval now ∧ ∃ dueIn, countdown since interval now = .ok dueIn
        ∧ dueIn.toInt = max 0 (since.toInt + interval.toInt + 1 - now.toInt)) ∨
      ¬since.Countable interval now ∧ ∃ crash, countdown since interval now = .error crash := by
  rw [countdown]
  split
  case isTrue hsum => exact Or.inr ⟨fun h ↦ by simp [h.sum] at hsum, _, rfl⟩
  case isFalse hsum =>
    split
    case isTrue hnext => exact Or.inr ⟨fun h ↦ by simp [h.next] at hnext, _, rfl⟩
    case isFalse hnext =>
      split
      case isTrue hrest => exact Or.inr ⟨fun h ↦ by simp [h.rest] at hrest, _, rfl⟩
      case isFalse hrest =>
        rw [Bool.not_eq_false] at hsum hnext hrest
        have hmost := (Time.fits_iff.mp hrest).2
        exact Or.inl ⟨⟨hsum, hnext, hrest⟩, _, rfl,
          Int64.toInt_ofInt_of_le (by omega) (by omega)⟩

/-- What a countdown comes to: the status with the exact seconds, or a crash. -/
def Counted (status : TaskStatus) (now : Time) : Except Crash TaskSnapshot → Prop
  | .ok found => status.Countable now ∧ found.status = status
      ∧ found.dueIn.toInt = status.remaining now
  | .error _ => ¬status.Countable now

theorem counted_snapshotOf (schedule : Schedule) (now : Time) (task : Task) :
    Counted (schedule.status task) now (schedule.snapshotOf now task) := by
  rw [snapshotOf]
  cases hcheck : (schedule.status task).lastCheck with
  | none =>
    refine ⟨fun since hsince ↦ ?_, rfl, ?_⟩
    · rw [hcheck] at hsince
      exact absurd hsince (by simp)
    · rw [TaskStatus.remaining, hcheck]
      rfl
  | some since =>
    dsimp only
    split
    · rename_i hdue
      refine ⟨fun _ _ ↦ Or.inl hdue, rfl, ?_⟩
      rw [TaskStatus.remaining, hcheck]
      dsimp only
      rw [if_pos hdue]
      rfl
    · rename_i hdue
      obtain ⟨hfits, dueIn, hcount, hexact⟩ | ⟨hfits, crash, hcount⟩ :=
        countdown_cases since (schedule.status task).interval now
      · rw [hcount]
        refine ⟨fun other hother ↦ ?_, rfl, ?_⟩
        · obtain rfl := Option.some.inj (hcheck.symm.trans hother)
          exact Or.inr hfits
        · rw [TaskStatus.remaining, hcheck]
          dsimp only
          rw [if_neg hdue]
          exact hexact
      · rw [hcount]
        intro hcountable
        exact hfits ((hcountable since hcheck).resolve_left hdue)

/-! ## All tasks -/

/-- What the countdowns of several tasks come to. -/
def CountedAll (statuses : List TaskStatus) (now : Time) : Except Crash (List TaskSnapshot) → Prop
  | .ok found => (∀ status ∈ statuses, status.Countable now)
      ∧ found.map TaskSnapshot.status = statuses
      ∧ found.map (fun task ↦ task.dueIn.toInt) = statuses.map (·.remaining now)
  | .error _ => ∃ status ∈ statuses, ¬status.Countable now

theorem countedAll_mapM (schedule : Schedule) (now : Time) (tasks : List Task) :
    CountedAll (tasks.map schedule.status) now (tasks.mapM (schedule.snapshotOf now)) := by
  induction tasks with
  | nil => exact ⟨by simp, rfl, rfl⟩
  | cons task rest ih =>
    have hfirst := schedule.counted_snapshotOf now task
    rw [List.mapM_cons, List.map_cons]
    cases hone : schedule.snapshotOf now task with
    | error crash =>
      rw [hone] at hfirst
      exact ⟨_, List.mem_cons_self, hfirst⟩
    | ok found =>
      rw [hone] at hfirst
      obtain ⟨hcountable, hstatus, hdueIn⟩ := hfirst
      cases hmore : rest.mapM (schedule.snapshotOf now) with
      | error crash =>
        rw [hmore] at ih
        obtain ⟨status, hmem, hnot⟩ := ih
        exact ⟨status, List.mem_cons_of_mem _ hmem, hnot⟩
      | ok more =>
        rw [hmore] at ih
        obtain ⟨hall, hstatuses, hdueIns⟩ := ih
        refine ⟨List.forall_mem_cons.mpr ⟨hcountable, hall⟩, ?_, ?_⟩
        · exact congrArg₂ List.cons hstatus hstatuses
        · exact congrArg₂ List.cons hdueIn hdueIns

theorem countedAll_snapshot (schedule : Schedule) (now : Time) :
    CountedAll (Task.all.map schedule.status) now (schedule.snapshot now) :=
  schedule.countedAll_mapM now Task.all

theorem isOk_snapshot_iff (schedule : Schedule) (now : Time) :
    (schedule.snapshot now).isOk = true ↔ ∀ task, (schedule.status task).Countable now := by
  have hall : ∀ task : Task, task ∈ Task.all := by
    intro task
    cases task <;> decide
  have hcounted := schedule.countedAll_snapshot now
  cases hresult : schedule.snapshot now with
  | ok found =>
    rw [hresult] at hcounted
    exact iff_of_true rfl fun task ↦ hcounted.1 _ (List.mem_map_of_mem (hall task))
  | error crash =>
    rw [hresult] at hcounted
    obtain ⟨status, hmem, hnot⟩ := hcounted
    obtain ⟨task, -, rfl⟩ := List.mem_map.mp hmem
    exact iff_of_false (by simp [Except.isOk, Except.toBool]) fun h ↦ hnot (h task)

end Schedule

/-! ## The configuration -/

theorem Config.interval_nonneg (config : Config) (task : Task) :
    0 ≤ (config.engineSettings.intervals.get task).toInt := by
  have hclamp : ∀ n : Nat, 0 ≤ (Int64.ofIntClamp n).toInt := by
    intro n
    rw [Int64.ofIntClamp]
    split
    · split
      · rw [Int64.toInt_ofIntLE]
        exact Int.natCast_nonneg n
      · decide
    · rename_i hlow
      rw [Int64.toInt_minValue] at hlow
      omega
  cases task
  · exact hclamp _
  · exact hclamp _

/-! ## Health -/

theorem Engine.isOk_status (engine : Engine) :
    engine.status.isOk = (engine.schedule.snapshot engine.world.now).isOk := by
  rw [status]
  cases engine.schedule.snapshot engine.world.now <;> rfl

/-- A host that asks how the bridge is doing is answered just if the engine has a status. -/
theorem Wire.isOk_reply_health [Room] (processId : UInt32) (engine : Engine)
    {request : Wire.Request} (hversion : request.version = protocolVersion)
    (hmethod : request.method = .health) :
    (reply processId engine request).1.isOk = engine.status.isOk := by
  rw [reply, if_neg (not_not_intro hversion), hmethod]
  dsimp only
  cases engine.status <;> rfl

namespace Desk

theorem countable_run [Room] (intervals : Intervals) (store : Store) (disk : Disk) (start : Time)
    (events : List Event) (now : Time) {task : Task} (h : 0 ≤ (intervals.get task).toInt) :
    let desk := (opened intervals store disk start).run events
    (desk.schedule.status task).Countable now ↔
      ∀ since ∈ (desk.claims.get task).stamp (Schedule.storedCheck store task),
        ((desk.claims.get task).outstanding = 0
            ∧ (intervals.get task).toInt < (Time.elapsed now since).toInt)
          ∨ since.toInt + (intervals.get task).toInt + 1 < 2 ^ 63
            ∧ -2 ^ 63 ≤ since.toInt + (intervals.get task).toInt + 1 - now.toInt
            ∧ since.toInt + (intervals.get task).toInt + 1 - now.toInt < 2 ^ 63 := by
  intro desk
  have hsound := sound_run intervals store disk start events task
  have hintervals : desk.schedule.intervals = intervals := intervals_run _ events
  have hstatus : desk.schedule.status task = (desk.slot task).status task (intervals.get task) := by
    rw [Schedule.status, hintervals]
    rfl
  have hlast : (desk.schedule.status task).lastCheck
      = (desk.claims.get task).stamp (Schedule.storedCheck store task) := hsound.lastCheck
  rw [TaskStatus.Countable, hlast]
  refine forall₂_congr fun since hsince ↦ ?_
  have hinterval : (desk.schedule.status task).interval = intervals.get task := by rw [hstatus]; rfl
  rw [hinterval, Time.countable_iff h, hstatus, Slot.isDue_status, hsound.idle_iff]
  have hall : (∀ other ∈ (desk.slot task).lastCheck,
        (intervals.get task).toInt < (Time.elapsed now other).toInt)
      ↔ (intervals.get task).toInt < (Time.elapsed now since).toInt := by
    rw [hsound.lastCheck, show (desk.slot task).claims.stamp _ = some since from hsince]
    exact ⟨fun hother ↦ hother since rfl, fun hdue other hother ↦ Option.some.inj hother ▸ hdue⟩
  rw [hall]
  rfl

/-- **Countdowns.** After any run with any configuration, the schedule gives its countdowns at a
time just if those of the tasks that are not due stay within 64 bits, and then they are exact. The
status of the engine and the answer about its health depend on nothing else. So there is always an
answer with intervals up to `2 ^ 62` and times up to `2 ^ 53`. -/
theorem snapshot_run [Room] (config : Config) (store : Store) (disk : Disk) (start : Time)
    (events : List Event) (now : Time) :
    let intervals := config.engineSettings.intervals
    let desk := (opened intervals store disk start).run events
    let stamp := fun task ↦ (desk.claims.get task).stamp (Schedule.storedCheck store task)
    ((desk.schedule.snapshot now).isOk = true ↔ ∀ task, ∀ since ∈ stamp task,
        ((desk.claims.get task).outstanding = 0
            ∧ (intervals.get task).toInt < (Time.elapsed now since).toInt)
          ∨ since.toInt + (intervals.get task).toInt + 1 < 2 ^ 63
            ∧ -2 ^ 63 ≤ since.toInt + (intervals.get task).toInt + 1 - now.toInt
            ∧ since.toInt + (intervals.get task).toInt + 1 - now.toInt < 2 ^ 63)
      ∧ (∀ found, desk.schedule.snapshot now = .ok found →
          found.map Schedule.TaskSnapshot.status = Task.all.map desk.schedule.status
          ∧ found.map (fun task ↦ task.dueIn.toInt)
            = Task.all.map fun task ↦ (desk.schedule.status task).remaining now)
      ∧ (∀ (processId : UInt32) (engine : Engine) (request : Wire.Request),
          engine.schedule = desk.schedule → engine.world.now = now →
          request.version = Wire.protocolVersion → request.method = .health →
          engine.status.isOk = (desk.schedule.snapshot now).isOk
          ∧ (Wire.reply processId engine request).1.isOk = (desk.schedule.snapshot now).isOk)
      ∧ ((∀ task, (intervals.get task).toInt ≤ 2 ^ 62
            ∧ ∀ since ∈ stamp task, since.toInt.natAbs ≤ 2 ^ 53) →
          now.toInt.natAbs ≤ 2 ^ 53 → (desk.schedule.snapshot now).isOk = true) := by
  intro intervals desk stamp
  have hnonneg : ∀ task, 0 ≤ (intervals.get task).toInt := config.interval_nonneg
  have hiff := (desk.schedule.isOk_snapshot_iff now).trans (forall_congr' fun task ↦
    countable_run intervals store disk start events now (hnonneg task))
  refine ⟨hiff, fun found hfound ↦ ?_, fun processId engine request hschedule hnow hversion
    hmethod ↦ ?_, fun hbounds hnow ↦ hiff.mpr fun task since hsince ↦ Or.inr ?_⟩
  · have hcounted := desk.schedule.countedAll_snapshot now
    rw [hfound] at hcounted
    obtain ⟨-, hstatuses, hdueIns⟩ := hcounted
    exact ⟨hstatuses, hdueIns.trans (List.map_map ..)⟩
  · have hstatus : engine.status.isOk = (desk.schedule.snapshot now).isOk := by
      rw [engine.isOk_status, hschedule, hnow]
    exact ⟨hstatus, (Wire.isOk_reply_health processId engine hversion hmethod).trans hstatus⟩
  · have hinterval := (hbounds task).1
    have hsince := (hbounds task).2 since hsince
    have hzero := hnonneg task
    omega

/-- With the usual intervals there is an answer ten minutes after a task was given back. -/
theorem snapshot_default :
    let desk := (opened Config.default.engineSettings.intervals (.ofEntries .empty) .emptyFolder
      1000).run [.claimDue, .giveBack .ownership]
    (∀ task, (Config.default.engineSettings.intervals.get task).toInt ≤ 2 ^ 62
        ∧ ∀ since ∈ (desk.claims.get task).stamp (Schedule.storedCheck (.ofEntries .empty) task),
          since.toInt.natAbs ≤ 2 ^ 53)
      ∧ (1600 : Time).toInt.natAbs ≤ 2 ^ 53
      ∧ (desk.schedule.snapshot 1600).isOk = true := by
  intro desk
  have hbounds : ∀ task, (Config.default.engineSettings.intervals.get task).toInt ≤ 2 ^ 62
      ∧ ∀ since ∈ (desk.claims.get task).stamp (Schedule.storedCheck (.ofEntries .empty) task),
        since.toInt.natAbs ≤ 2 ^ 53 := by
    intro task
    cases task with
    | ownership =>
      have hstamp : (desk.claims.get .ownership).stamp
          (Schedule.storedCheck (.ofEntries .empty) .ownership) = some 1000 := by decide +kernel
      refine ⟨by decide +kernel, fun since hsince ↦ ?_⟩
      rw [← Option.some.inj (hstamp.symm.trans hsince)]
      decide +kernel
    | installation =>
      have hstamp : (desk.claims.get .installation).stamp
          (Schedule.storedCheck (.ofEntries .empty) .installation) = none := by decide +kernel
      refine ⟨by decide +kernel, fun since hsince ↦ ?_⟩
      exact absurd (hstamp.symm.trans hsince) (by simp)
  have hnow : (1600 : Time).toInt.natAbs ≤ 2 ^ 53 := by decide +kernel
  exact ⟨hbounds, hnow, (snapshot_run Config.default (.ofEntries .empty) .emptyFolder 1000
    [.claimDue, .giveBack .ownership] 1600).2.2.2 hbounds hnow⟩

/-- The folder of a configuration. -/
def configured (text : String) : Disk := .folder [("config.toml", .file (Text.bytes text))]

/-- A countdown that would fit is not given, as the end of the interval does not fit. -/
theorem snapshot_overflow :
    let config : Config := { Config.default with ownershipInterval := 9223372036854775307 }
    let desk := (opened config.engineSettings.intervals (.ofEntries .empty) .emptyFolder 1000).run
      [.claimDue, .giveBack .ownership]
    Config.load (configured "[refresh]\nownership_interval_secs = 9223372036854775307\n")
        "config.toml" = .ok config
      ∧ (1000 : Time).toInt.natAbs ≤ 2 ^ 53
      ∧ (desk.schedule.status .ownership).remaining 1000 = 9223372036854775308
      ∧ desk.schedule.snapshot 1000 = .error .sumTooLarge := by
  decide +kernel

end Desk

end GameBridge
