import GameBridge.Number.Numeral
import GameBridge.Store
import GameBridge.Time

/-!
# The refresh schedule

Two tasks keep the caches fresh. Each has an interval of its own and the time of its last check,
which is also kept in the store. A task is due when nobody is working on it and more than its
interval has passed since its last check, or when it was never checked.

Whoever works on a task holds a claim on it, and there is never more than one. `claimDue` claims
every task that is due; `tryClaim` claims a task whether or not it is due. `finish` gives a claim
back and notes the time, in memory even if storing it fails.

Times are 64-bit seconds. Differences that decide whether a task is due are held within 64 bits.
The countdown of `snapshot` is not, and it crashes where a sum or a difference leaves the range.
-/

namespace GameBridge

/-! ## Tasks -/

/-- What is refreshed. -/
inductive Task where
  /-- The owned games. -/
  | ownership
  /-- The installed games. -/
  | installation
deriving DecidableEq, Repr

namespace Task

/-- The tasks in the order in which they are considered. -/
def all : List Task := [ownership, installation]

/-- The name of the task. -/
def name : Task → String
  | ownership => "ownership"
  | installation => "installation"

/-- The key under which the time of the last check is stored. -/
def key (task : Task) : String := "last_check_" ++ task.name

end Task

/-- Something for each task. -/
structure PerTask (α : Type) where
  /-- What belongs to the owned games. -/
  ownership : α
  /-- What belongs to the installed games. -/
  installation : α
deriving DecidableEq, Repr

namespace PerTask

variable {α : Type}

/-- The same for both tasks. -/
def both (a : α) : PerTask α := ⟨a, a⟩

/-- What belongs to a task. -/
def get (p : PerTask α) : Task → α
  | .ownership => p.ownership
  | .installation => p.installation

/-- Replaces what belongs to a task. -/
def set (p : PerTask α) (task : Task) (a : α) : PerTask α :=
  match task with
  | .ownership => { p with ownership := a }
  | .installation => { p with installation := a }

@[simp] theorem get_set_self (p : PerTask α) (task : Task) (a : α) :
    (p.set task a).get task = a := by cases task <;> rfl

theorem get_set_of_ne (p : PerTask α) {task other : Task} (a : α) (h : other ≠ task) :
    (p.set task a).get other = p.get other := by
  match task, other with
  | .ownership, .installation => rfl
  | .installation, .ownership => rfl
  | .ownership, .ownership => exact absurd rfl h
  | .installation, .installation => exact absurd rfl h

end PerTask

/-! ## When a task is due -/

/-- Whether somebody is working on a task. -/
inductive TaskState where
  /-- Nobody is. -/
  | idle
  /-- Somebody holds a claim. -/
  | running
deriving DecidableEq, Repr

/-- The name of the state on the wire. -/
def TaskState.name : TaskState → String
  | idle => "idle"
  | running => "running"

/-- What decides whether a task is due. -/
structure TaskStatus where
  /-- The task. -/
  task : Task
  /-- The time of the last check. -/
  lastCheck : Option Time
  /-- The seconds that have to pass between two checks. -/
  interval : Int64
  /-- Whether somebody is working on it. -/
  state : TaskState
deriving DecidableEq, Repr

namespace TaskStatus

/-- Whether the task is due. -/
def isDue (status : TaskStatus) (now : Time) : Bool :=
  match status.state, status.lastCheck with
  | .running, _ => false
  | .idle, some lastCheck => decide (status.interval < Time.elapsed now lastCheck)
  | .idle, none => true

end TaskStatus

/-- The tasks that are due, in the order of their statuses. -/
def dueTasks (now : Time) (statuses : List TaskStatus) : List Task :=
  (statuses.filter fun status ↦ status.isDue now).map TaskStatus.task

/-! ## The schedule -/

/-- The intervals of the tasks. -/
abbrev Intervals := PerTask Int64

/-- A day for the owned games, an hour for the installed ones. -/
def defaultIntervals : Intervals := ⟨86400, 3600⟩

/-- Who is working on what, and when it was last done. -/
structure Schedule where
  /-- The intervals. -/
  intervals : Intervals
  /-- Whether somebody is working on a task. -/
  states : PerTask TaskState
  /-- The times of the last checks. -/
  lastChecks : PerTask (Option Time)
deriving DecidableEq, Repr

namespace Schedule

/-- The time of the last check that the store has for a task. Texts that are not numbers are
passed over. -/
def storedCheck (store : Store) (task : Task) : Option Time :=
  ((store.get? task.key).bind readFinite?).map Binary64.toInt64

/-- The schedule at the start: nobody is working, and the last checks are those in the store. -/
def load (intervals : Intervals) (store : Store) : Schedule :=
  ⟨intervals, .both .idle, ⟨storedCheck store .ownership, storedCheck store .installation⟩⟩

/-- The status of a task. -/
def status (schedule : Schedule) (task : Task) : TaskStatus :=
  ⟨task, schedule.lastChecks.get task, schedule.intervals.get task, schedule.states.get task⟩

/-- Notes that somebody is working on a task. -/
def claim (schedule : Schedule) (task : Task) : Schedule :=
  { schedule with states := schedule.states.set task .running }

/-- Claims every task that is due. -/
def claimDue (schedule : Schedule) (now : Time) : List Task × Schedule :=
  let due := dueTasks now (Task.all.map schedule.status)
  (due, due.foldl claim schedule)

/-- Claims a task unless somebody is working on it. -/
def tryClaim (schedule : Schedule) (task : Task) : Option Schedule :=
  match schedule.states.get task with
  | .running => none
  | .idle => some (schedule.claim task)

/-- Gives the claim on a task back at a time. The time is stored as well; if that fails, it is
still the time of the last check. -/
def finish [Room] (schedule : Schedule) (store : Store) (disk : Disk) (now : Time) (task : Task) :
    Schedule × Store × Disk :=
  -- a time that could not be stored is forgotten at the next start, and only then
  let (_, store, disk) := store.put disk task.key (Decimal.ofInt64 now)
  ({ schedule with
      states := schedule.states.set task .idle
      lastChecks := schedule.lastChecks.set task (some now) }, store, disk)

/-! ## Countdowns -/

/-- A status with the seconds until the task is due. -/
structure TaskSnapshot where
  /-- The status. -/
  status : TaskStatus
  /-- The seconds until the task is due, zero if it is. -/
  dueIn : Int64
deriving DecidableEq, Repr

/-- The seconds from `now` to the first one after a whole interval. -/
def countdown (lastCheck : Time) (interval : Int64) (now : Time) : Except Crash Int64 :=
  let sum := lastCheck.toInt + interval.toInt
  -- every step of the sum has to stay in the range
  if Time.fits sum = false then .error .sumTooLarge
  else if Time.fits (sum + 1) = false then .error .sumTooLarge
  else if Time.fits (sum + 1 - now.toInt) = false then .error .differenceTooLarge
  else .ok (Int64.ofInt (max 0 (sum + 1 - now.toInt)))

/-- The status of a task with its countdown. A task that was never checked has none to wait for. -/
def snapshotOf (schedule : Schedule) (now : Time) (task : Task) : Except Crash TaskSnapshot :=
  let status := schedule.status task
  match status.lastCheck with
  | none => .ok ⟨status, 0⟩
  | some lastCheck =>
    if status.isDue now then .ok ⟨status, 0⟩
    else (countdown lastCheck status.interval now).map fun dueIn ↦ ⟨status, dueIn⟩

/-- The statuses of all tasks with their countdowns. -/
def snapshot (schedule : Schedule) (now : Time) : Except Crash (List TaskSnapshot) :=
  Task.all.mapM (schedule.snapshotOf now)

end Schedule

end GameBridge
