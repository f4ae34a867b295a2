import GameBridge.Capacity
import GameBridge.Proofs.Number.ReadingBack
import GameBridge.Proofs.Schedule.Throttle
import GameBridge.Proofs.Store.Saving

/-!
# Starting over with the same store

A schedule keeps the times of the last checks in memory and in the store, and who is working on what
in memory only. A new schedule has nothing but the store to go by. It finds the times there as long
as every return of a claim was stored, nobody else changed these entries, and the times are small
enough to be read back as they were written. What the store had at first makes no difference: it may
hold fractions or no numbers at all, and is read in the same way each time.

`Kept` is the invariant: the store and the schedule have the same time for each task. Claims come
into it only when they are given back, so those that are still out when the schedule is started
again are forgotten, and the new schedule goes on as the old one would without them.
-/

namespace GameBridge

theorem Task.key_inj {a b : Task} : a.key = b.key ↔ a = b := by
  cases a <;> cases b <;> decide

namespace Schedule

/-- The schedule with nobody working on anything. -/
def cleared (schedule : Schedule) : Schedule := { schedule with states := .both .idle }

theorem cleared_status (schedule : Schedule) (task : Task) :
    schedule.cleared.status task = { schedule.status task with state := .idle } := by
  cases task <;> rfl

theorem storedCheck_of_get? {store : Store} {task : Task} {now : Time}
    (h : store.get? task.key = some (Decimal.ofInt64 now)) (hnow : now.toInt.natAbs ≤ 2 ^ 53) :
    storedCheck store task = some now := by
  rw [storedCheck, h, Option.bind_some, Decimal.toInt64_readFinite?,
    Decimal.rereadInt64_of_le hnow]

/-- What a store has for a task depends on the entry of this task only. -/
theorem storedCheck_congr {store other : Store} {task : Task}
    (h : other.get? task.key = store.get? task.key) :
    storedCheck other task = storedCheck store task := by
  rw [storedCheck, storedCheck, h]

theorem load_eq_cleared {schedule : Schedule} {store : Store}
    (h : ∀ task, storedCheck store task = schedule.lastChecks.get task) :
    load schedule.intervals store = schedule.cleared := by
  rw [load, h .ownership, h .installation]
  rfl

end Schedule

namespace Desk

/-! ## Events of which the store is told -/

/-- The store is told of an event: a claim that is given back has its time stored, which is one that
can be read back, and a change from elsewhere leaves the times of all tasks alone. -/
def Event.Recorded [Room] (desk : Desk) : Event → Prop
  | .giveBack task => (desk.claims.get task).held ≠ 0 →
    desk.now.toInt.natAbs ≤ 2 ^ 53
      ∧ (desk.store.put desk.disk task.key (Decimal.ofInt64 desk.now)).1 = .ok ()
  | .elsewhere store _ => ∀ task : Task, store.get? task.key = desk.store.get? task.key
  | .claimDue | .tryClaim _ | .lose _ | .wait _ | .snapshot | .setClock _ => True

/-- The store is told of every event of a run. -/
def Recorded [Room] (desk : Desk) : List Event → Prop
  | [] => True
  | event :: rest => event.Recorded desk ∧ Recorded (desk.perform event) rest

/-- The store has the same time for each task as the schedule. -/
def Kept (desk : Desk) : Prop :=
  ∀ task, Schedule.storedCheck desk.store task = desk.schedule.lastChecks.get task

theorem kept_opened (intervals : Intervals) (store : Store) (disk : Disk) (now : Time) :
    (opened intervals store disk now).Kept := by
  intro task
  cases task <;> rfl

namespace Kept

variable {desk : Desk}

/-- An event that neither changes the store nor gives a claim back. -/
theorem of_lastCheck [Room] (h : desk.Kept) {event : Event}
    (hstore : (desk.perform event).store = desk.store)
    (hcheck : ∀ (slot : Slot) task interval now,
      (slot.react task interval now event).lastCheck = slot.lastCheck) :
    (desk.perform event).Kept := by
  intro task
  have hslot := congrArg Slot.lastCheck (desk.slot_perform event task)
  rw [hcheck] at hslot
  rw [hstore]
  exact (h task).trans hslot.symm

theorem giveBack [Room] (h : desk.Kept) {task : Task}
    (hevent : (Event.giveBack task).Recorded desk) : (desk.perform (.giveBack task)).Kept := by
  by_cases hheld : (desk.claims.get task).held = 0
  · rw [perform, if_pos hheld]
    exact h
  obtain ⟨hnow, hput⟩ := hevent hheld
  rw [perform, if_neg hheld]
  intro other
  by_cases hother : other = task
  · subst hother
    exact (Schedule.storedCheck_of_get? (Store.get?_put_self hput) hnow).trans
      (PerTask.get_set_self ..).symm
  · have hkey : other.key ≠ task.key := fun heq ↦ hother (Task.key_inj.mp heq)
    refine (Schedule.storedCheck_congr (Store.get?_put_of_ne _ _ _ _ hkey)).trans ?_
    exact (h other).trans (PerTask.get_set_of_ne _ _ hother).symm

theorem perform [Room] (h : desk.Kept) {event : Event} (hevent : event.Recorded desk) :
    (desk.perform event).Kept := by
  cases event with
  | claimDue =>
    refine h.of_lastCheck rfl fun slot task interval now ↦ ?_
    rw [Slot.react]
    split <;> rfl
  | tryClaim task =>
    refine h.of_lastCheck ?_ fun slot task interval now ↦ ?_
    · rw [Desk.perform]
      split <;> rfl
    · rw [Slot.react]
      split <;> rfl
  | giveBack task => exact h.giveBack hevent
  | lose task =>
    refine h.of_lastCheck ?_ fun slot task interval now ↦ ?_
    · rw [Desk.perform]
      split <;> rfl
    · rw [Slot.react]
      split <;> rfl
  | wait _ | snapshot | setClock _ => exact h
  | elsewhere store disk =>
    intro task
    exact (Schedule.storedCheck_congr (hevent task)).trans (h task)

theorem run [Room] (h : desk.Kept) {events : List Event} (hevents : Recorded desk events) :
    (desk.run events).Kept := by
  induction events generalizing desk with
  | nil => exact h
  | cons event rest ih => exact ih (h.perform hevents.1) hevents.2

end Kept

/-! ## The new schedule -/

/-- The desk as it is when no claim was ever made: nobody is working, and nobody has a claim. -/
def cleared (desk : Desk) : Desk :=
  { desk with schedule := desk.schedule.cleared, claims := .both .fresh }

/-- **Starting over.** After a run of which the store was told throughout, a new schedule over the
same store finds both tasks idle, and each one checked when it was for the old schedule, which is
when a claim on it was last given back or else what the store had at first. At any time it claims
what the old one would claim if no claim was outstanding. Claims that were in somebody's hands or
lost leave no trace, and all is as if they had never been made. -/
theorem reopened_run [Room] (intervals : Intervals) (store : Store) (disk : Disk) (start : Time)
    (events : List Event) (h : Recorded (opened intervals store disk start) events) :
    let desk := (opened intervals store disk start).run events
    let reopened := opened intervals desk.store desk.disk desk.now
    (∀ task, reopened.schedule.states.get task = .idle
        ∧ reopened.schedule.lastChecks.get task = desk.schedule.lastChecks.get task
        ∧ reopened.schedule.lastChecks.get task
          = (desk.claims.get task).returns.head?.or (Schedule.storedCheck store task))
      ∧ (∀ now, (reopened.schedule.claimDue now).1 = Task.all.filter fun task ↦
          { desk.schedule.status task with state := .idle }.isDue now)
      ∧ reopened = desk.cleared := by
  intro desk reopened
  have hkept : desk.Kept := (kept_opened intervals store disk start).run h
  have hintervals : desk.schedule.intervals = intervals := intervals_run _ events
  have hschedule : reopened.schedule = desk.schedule.cleared := by
    rw [← Schedule.load_eq_cleared hkept, hintervals]
    rfl
  have hreopened : reopened = desk.cleared := by
    rw [cleared, ← hschedule]
    rfl
  refine ⟨fun task ↦ ?_, fun now ↦ ?_, hreopened⟩
  · rw [hschedule]
    refine ⟨by cases task <;> rfl, rfl, ?_⟩
    exact (sound_run intervals store disk start events task).lastCheck
  · rw [hschedule, Schedule.claimDue_eq_filter]
    exact List.filter_congr fun task _ ↦ by rw [Schedule.cleared_status]

/-- A store from before, with a fraction for one task and no number for the other. -/
def olderStore : Store :=
  .ofEntries (.ofList [("last_check_ownership", " 1000.75 "), ("last_check_installation", "never")])

/-- One task is claimed twice and given back once, and the claim on the other one is lost. -/
theorem reopened_run_olderStore :
    let events : List Event := [.claimDue, .setClock 5000, .giveBack .installation,
      .tryClaim .ownership, .lose .ownership, .tryClaim .installation]
    let desk := (opened defaultIntervals olderStore .emptyFolder 2000).run events
    Recorded (opened defaultIntervals olderStore .emptyFolder 2000) events
      ∧ (∀ task, (desk.claims.get task).outstanding = 1)
      ∧ (opened defaultIntervals desk.store desk.disk desk.now).schedule
        = ⟨defaultIntervals, .both .idle, ⟨some 1000, some 5000⟩⟩ := by
  intro events desk
  have hrecorded : Recorded (opened defaultIntervals olderStore .emptyFolder 2000) events := by
    refine ⟨trivial, trivial, fun _ ↦ ⟨?_, ?_⟩, trivial, trivial, trivial, trivial⟩
    · decide +kernel
    · decide +kernel
  have hcleared := (reopened_run defaultIntervals olderStore .emptyFolder 2000 events hrecorded).2.2
  refine ⟨hrecorded, fun task ↦ by cases task <;> decide +kernel, ?_⟩
  rw [hcleared]
  decide +kernel

end Desk

end GameBridge
