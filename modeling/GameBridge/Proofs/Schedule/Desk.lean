import GameBridge.Schedule
import Mathlib.Data.List.Nodup

/-!
# The schedule at work

A schedule knows who is working on what only through the calls that are made. A `Desk` adds the
other side: the claims on each task that are in somebody's hands, those that were lost and will
never be given back, and the times at which claims were given back. It also has the clock, which
may be set to any time, and the store, which may change or stop being writable at any moment.

## One task at a time

`Desk.slot` is everything that concerns one task. `slot_perform` says that an event changes a slot
in a way that depends on this slot, its interval and the clock alone, so a desk is no more than its
slots side by side. Two things follow: what holds of one slot after every event holds of the desk,
and leaving out the events about one task makes no difference to the other (`alike_run_filter`).
-/

namespace GameBridge

/-! ## Tasks -/

namespace PerTask

variable {α : Type}

/-- Changes what belongs to a task. -/
def modify (f : α → α) (p : PerTask α) (task : Task) : PerTask α := p.set task (f (p.get task))

theorem get_modify (f : α → α) (p : PerTask α) (task other : Task) :
    (p.modify f task).get other = if other = task then f (p.get other) else p.get other := by
  rw [modify]
  split
  · rename_i h
    rw [h, get_set_self]
  · rename_i h
    rw [get_set_of_ne _ _ h]

/-- What belongs to each of several tasks is changed once. -/
theorem get_foldl_modify (f : α → α) {tasks : List Task} (hnodup : tasks.Nodup) (p : PerTask α)
    (task : Task) :
    (tasks.foldl (modify f) p).get task = if task ∈ tasks then f (p.get task) else p.get task := by
  induction tasks generalizing p with
  | nil => rw [List.foldl_nil, if_neg List.not_mem_nil]
  | cons head rest ih =>
    obtain ⟨hhead, hrest⟩ := List.nodup_cons.mp hnodup
    rw [List.foldl_cons, ih hrest, get_modify]
    by_cases heq : task = head
    · subst heq
      rw [if_neg hhead, if_pos rfl, if_pos List.mem_cons_self]
    · simp only [List.mem_cons, heq, false_or, if_false]

end PerTask

namespace Schedule

/-- The tasks that `claimDue` claims are those that are due, each once. -/
theorem claimDue_eq_filter (schedule : Schedule) (now : Time) :
    (schedule.claimDue now).1 = Task.all.filter fun task ↦ (schedule.status task).isDue now := by
  rw [claimDue, dueTasks, List.filter_map, List.map_map]
  exact List.map_id _

theorem nodup_claimDue (schedule : Schedule) (now : Time) : (schedule.claimDue now).1.Nodup := by
  rw [claimDue_eq_filter]
  exact List.Nodup.filter _ (by decide)

theorem mem_claimDue (schedule : Schedule) (now : Time) (task : Task) :
    task ∈ (schedule.claimDue now).1 ↔ (schedule.status task).isDue now = true := by
  rw [claimDue_eq_filter, List.mem_filter]
  exact and_iff_right (by cases task <;> decide)

theorem foldl_claim (schedule : Schedule) (tasks : List Task) :
    tasks.foldl claim schedule = { schedule with
      states := tasks.foldl (PerTask.modify fun _ ↦ .running) schedule.states } := by
  induction tasks generalizing schedule with
  | nil => rfl
  | cons head rest ih =>
    rw [List.foldl_cons, ih]
    rfl

end Schedule

/-! ## Claims -/

/-- What became of the claims on a task. -/
structure Claims where
  /-- How many are in somebody's hands. -/
  held : Nat
  /-- How many will never be given back. -/
  lost : Nat
  /-- When claims were given back, the latest first. -/
  returns : List Time
deriving DecidableEq, Repr

namespace Claims

/-- No claim was made. -/
def fresh : Claims := ⟨0, 0, []⟩

/-- How many claims were made and not given back. -/
def outstanding (claims : Claims) : Nat := claims.held + claims.lost

/-- A claim was made. -/
def take (claims : Claims) : Claims := { claims with held := claims.held + 1 }

/-- A claim was given back. -/
def giveBack (now : Time) (claims : Claims) : Claims :=
  { claims with held := claims.held - 1, returns := now :: claims.returns }

/-- A claim was lost. -/
def lose (claims : Claims) : Claims :=
  { claims with held := claims.held - 1, lost := claims.lost + 1 }

theorem outstanding_take (claims : Claims) : claims.take.outstanding = claims.outstanding + 1 := by
  simp only [outstanding, take]
  omega

theorem outstanding_giveBack {claims : Claims} (h : claims.held ≠ 0) (now : Time) :
    (claims.giveBack now).outstanding = claims.outstanding - 1 := by
  simp only [outstanding, giveBack]
  omega

/-- A lost claim stays outstanding. -/
theorem outstanding_lose {claims : Claims} (h : claims.held ≠ 0) :
    claims.lose.outstanding = claims.outstanding := by
  simp only [outstanding, lose]
  omega

end Claims

/-! ## The desk -/

/-- A schedule and those who use it. -/
structure Desk where
  /-- The schedule. -/
  schedule : Schedule
  /-- The store. -/
  store : Store
  /-- The disk. -/
  disk : Disk
  /-- What the clock shows. -/
  now : Time
  /-- What became of the claims on each task. -/
  claims : PerTask Claims

namespace Desk

/-- What can happen at a desk: somebody claims what is due or tries to claim a task, gives a claim
back or is gone with it for good, waits until nobody works on a task or asks how things stand; the
clock is set, the store and the disk change. -/
inductive Event where
  | claimDue
  | tryClaim (task : Task)
  | giveBack (task : Task)
  | lose (task : Task)
  | wait (task : Task)
  | snapshot
  | setClock (now : Time)
  | elsewhere (store : Store) (disk : Disk)

/-- Whether an event is about a task or about no task in particular. -/
def Event.concerns (task : Task) : Event → Bool
  | .tryClaim other | .giveBack other | .lose other | .wait other => decide (other = task)
  | .claimDue | .snapshot | .setClock _ | .elsewhere _ _ => true

/-- What the clock shows after an event. -/
def Event.clock (now : Time) : Event → Time
  | .setClock later => later
  | _ => now

/-- A desk with a new schedule. -/
def opened (intervals : Intervals) (store : Store) (disk : Disk) (now : Time) : Desk :=
  ⟨.load intervals store, store, disk, now, .both .fresh⟩

/-- What an event does. Those who hold no claim have none to give back or to lose. -/
def perform [Room] (desk : Desk) : Event → Desk
  | .claimDue =>
    let (due, schedule) := desk.schedule.claimDue desk.now
    { desk with schedule, claims := due.foldl (.modify .take) desk.claims }
  | .tryClaim task =>
    match desk.schedule.tryClaim task with
    | none => desk
    | some schedule => { desk with schedule, claims := desk.claims.modify .take task }
  | .giveBack task =>
    if (desk.claims.get task).held = 0 then desk
    else
      let (schedule, store, disk) := desk.schedule.finish desk.store desk.disk desk.now task
      { desk with schedule, store, disk, claims := desk.claims.modify (.giveBack desk.now) task }
  | .lose task =>
    if (desk.claims.get task).held = 0 then desk
    else { desk with claims := desk.claims.modify .lose task }
  | .wait _ => desk
  | .snapshot => desk
  | .setClock now => { desk with now }
  | .elsewhere store disk => { desk with store, disk }

/-- What a sequence of events does. -/
def run [Room] (desk : Desk) (events : List Event) : Desk := events.foldl perform desk

/-! ## Slots -/

/-- What concerns one task. -/
structure Slot where
  /-- Whether somebody is working on it. -/
  state : TaskState
  /-- The time of the last check. -/
  lastCheck : Option Time
  /-- What became of the claims. -/
  claims : Claims
deriving DecidableEq, Repr

/-- The slot of a task. -/
def slot (desk : Desk) (task : Task) : Slot :=
  ⟨desk.schedule.states.get task, desk.schedule.lastChecks.get task, desk.claims.get task⟩

namespace Slot

/-- What decides whether the task of a slot is due. -/
def status (slot : Slot) (task : Task) (interval : Int64) : TaskStatus :=
  ⟨task, slot.lastCheck, interval, slot.state⟩

/-- A claim on the task is made. -/
def claimed (slot : Slot) : Slot := ⟨.running, slot.lastCheck, slot.claims.take⟩

/-- What an event does to the slot of a task. -/
def react (slot : Slot) (task : Task) (interval : Int64) (now : Time) : Event → Slot
  | .claimDue => if (slot.status task interval).isDue now then slot.claimed else slot
  | .tryClaim other => if other = task ∧ slot.state = .idle then slot.claimed else slot
  | .giveBack other =>
    if other = task ∧ slot.claims.held ≠ 0 then ⟨.idle, some now, slot.claims.giveBack now⟩
    else slot
  | .lose other =>
    if other = task ∧ slot.claims.held ≠ 0 then { slot with claims := slot.claims.lose } else slot
  | .wait _ | .snapshot | .setClock _ | .elsewhere _ _ => slot

end Slot

/-! ## A desk is its slots -/

section Perform

variable (desk : Desk) (event : Event)

theorem intervals_perform [Room] :
    (desk.perform event).schedule.intervals = desk.schedule.intervals := by
  cases event with
  | claimDue => rw [perform, Schedule.claimDue, Schedule.foldl_claim]
  | tryClaim other =>
    rw [perform, Schedule.tryClaim]
    cases desk.schedule.states.get other <;> rfl
  | giveBack other =>
    rw [perform]
    split <;> rfl
  | lose other =>
    rw [perform]
    split <;> rfl
  | wait other => rfl
  | snapshot => rfl
  | setClock now => rfl
  | elsewhere store disk => rfl

private theorem slot_claimDue [Room] (task : Task) :
    (desk.perform .claimDue).slot task
      = if task ∈ (desk.schedule.claimDue desk.now).1 then (desk.slot task).claimed
        else desk.slot task := by
  have hnodup := desk.schedule.nodup_claimDue desk.now
  have hstate := PerTask.get_foldl_modify (fun _ ↦ TaskState.running) hnodup
    desk.schedule.states task
  have hclaims := PerTask.get_foldl_modify Claims.take hnodup desk.claims task
  have hschedule := Schedule.foldl_claim desk.schedule (desk.schedule.claimDue desk.now).1
  have hafter : (desk.schedule.claimDue desk.now).2
      = (desk.schedule.claimDue desk.now).1.foldl Schedule.claim desk.schedule := rfl
  rw [slot, perform]
  simp only [hafter, hschedule, hstate, hclaims]
  split <;> rfl

private theorem slot_tryClaim [Room] (other task : Task) :
    (desk.perform (.tryClaim other)).slot task
      = if other = task ∧ (desk.slot task).state = .idle then (desk.slot task).claimed
        else desk.slot task := by
  rw [perform, Schedule.tryClaim]
  cases hstate : desk.schedule.states.get other with
  | running =>
    have hbusy : ¬(other = task ∧ (desk.slot task).state = .idle) := by
      rintro ⟨rfl, hidle⟩
      exact absurd (hstate.symm.trans hidle) (by decide)
    rw [if_neg hbusy]
  | idle =>
    by_cases h : other = task
    · subst h
      rw [if_pos ⟨rfl, hstate⟩]
      simp only [slot, Slot.claimed, Schedule.claim, PerTask.get_set_self, PerTask.get_modify,
        if_true]
    · rw [if_neg fun hboth ↦ h hboth.1]
      simp only [slot, Schedule.claim, PerTask.get_set_of_ne _ _ (Ne.symm h), PerTask.get_modify,
        if_neg (Ne.symm h)]

/-- An event that needs a claim in somebody's hands. -/
private theorem slot_of_held {other task : Task} {after : Desk} {changed : Slot}
    (hself : other = task → after.slot task = changed)
    (hother : other ≠ task → after.slot task = desk.slot task) :
    (if (desk.claims.get other).held = 0 then desk else after).slot task
      = if other = task ∧ (desk.slot task).claims.held ≠ 0 then changed else desk.slot task := by
  by_cases hheld : (desk.claims.get other).held = 0
  · rw [if_pos hheld, if_neg]
    rintro ⟨rfl, hclaim⟩
    exact hclaim hheld
  · rw [if_neg hheld]
    by_cases h : other = task
    · subst h
      rw [if_pos ⟨rfl, hheld⟩, hself rfl]
    · rw [if_neg fun hboth ↦ h hboth.1, hother h]

private theorem slot_giveBack [Room] (other task : Task) :
    (desk.perform (.giveBack other)).slot task
      = if other = task ∧ (desk.slot task).claims.held ≠ 0
        then ⟨.idle, some desk.now, (desk.slot task).claims.giveBack desk.now⟩
        else desk.slot task := by
  refine slot_of_held desk (fun h ↦ ?_) fun h ↦ ?_
  · subst h
    simp only [slot, PerTask.get_set_self, PerTask.get_modify, if_true]
  · simp only [slot, PerTask.get_set_of_ne _ _ (Ne.symm h), PerTask.get_modify,
      if_neg (Ne.symm h)]

private theorem slot_lose [Room] (other task : Task) :
    (desk.perform (.lose other)).slot task
      = if other = task ∧ (desk.slot task).claims.held ≠ 0
        then { desk.slot task with claims := (desk.slot task).claims.lose }
        else desk.slot task := by
  refine slot_of_held desk (fun h ↦ ?_) fun h ↦ ?_
  · subst h
    simp only [slot, PerTask.get_modify, if_true]
  · simp only [slot, PerTask.get_modify, if_neg (Ne.symm h)]

/-- **One slot at a time.** What an event does to a slot depends on nothing but this slot, the
interval of its task and the clock. -/
theorem slot_perform [Room] (task : Task) :
    (desk.perform event).slot task
      = (desk.slot task).react task (desk.schedule.intervals.get task) desk.now event := by
  cases event with
  | claimDue =>
    have hdue : (desk.slot task).status task (desk.schedule.intervals.get task)
        = desk.schedule.status task := rfl
    rw [slot_claimDue, Slot.react, hdue]
    simp only [Schedule.mem_claimDue]
  | tryClaim other => exact slot_tryClaim desk other task
  | giveBack other => exact slot_giveBack desk other task
  | lose other => exact slot_lose desk other task
  | wait other => rfl
  | snapshot => rfl
  | setClock now => rfl
  | elsewhere store disk => rfl

theorem now_perform [Room] : (desk.perform event).now = event.clock desk.now := by
  cases event with
  | claimDue => rfl
  | tryClaim other =>
    rw [perform]
    split <;> rfl
  | giveBack other =>
    rw [perform]
    split <;> rfl
  | lose other =>
    rw [perform]
    split <;> rfl
  | wait other => rfl
  | snapshot => rfl
  | setClock now => rfl
  | elsewhere store disk => rfl

end Perform

/-! ## Runs -/

theorem intervals_run [Room] (desk : Desk) (events : List Event) :
    (desk.run events).schedule.intervals = desk.schedule.intervals := by
  induction events generalizing desk with
  | nil => rfl
  | cons event rest ih =>
    rw [run, List.foldl_cons, ← run, ih, intervals_perform]

/-- What a slot keeps through every event, it keeps through a run. -/
theorem slot_run [Room] {P : Slot → Prop} {task : Task}
    (hreact : ∀ slot interval now event, P slot → P (slot.react task interval now event))
    {desk : Desk} (h : P (desk.slot task)) (events : List Event) :
    P ((desk.run events).slot task) := by
  induction events generalizing desk with
  | nil => exact h
  | cons event rest ih =>
    rw [run, List.foldl_cons, ← run]
    refine ih ?_
    rw [slot_perform]
    exact hreact _ _ _ event h

/-! ## The other task -/

/-- Two desks look alike to those who care for one task. -/
structure Alike (task : Task) (desk desk' : Desk) : Prop where
  slot : desk.slot task = desk'.slot task
  now : desk.now = desk'.now
  interval : desk.schedule.intervals.get task = desk'.schedule.intervals.get task

theorem Alike.perform [Room] {task : Task} {desk desk' : Desk} (h : Alike task desk desk')
    (event : Event) : Alike task (desk.perform event) (desk'.perform event) where
  slot := by rw [slot_perform, slot_perform, h.slot, h.now, h.interval]
  now := by rw [now_perform, now_perform, h.now]
  interval := by rw [intervals_perform, intervals_perform, h.interval]

theorem Slot.react_of_not_concerns {task : Task} {event : Event}
    (h : event.concerns task = false) (slot : Slot) (interval : Int64) (now : Time) :
    slot.react task interval now event = slot := by
  cases event with
  | tryClaim other | giveBack other | lose other =>
    rw [react, if_neg fun hboth ↦ of_decide_eq_false h hboth.1]
  | wait other => rfl
  | claimDue | snapshot | setClock _ | elsewhere _ _ => simp [Event.concerns] at h

theorem Event.clock_of_not_concerns {task : Task} {event : Event}
    (h : event.concerns task = false) (now : Time) : event.clock now = now := by
  cases event with
  | setClock later => simp [concerns] at h
  | _ => rfl

/-- An event about the other task changes nothing. -/
theorem alike_perform [Room] {task : Task} {event : Event} (h : event.concerns task = false)
    (desk : Desk) : Alike task (desk.perform event) desk where
  slot := by rw [slot_perform, Slot.react_of_not_concerns h]
  now := by rw [now_perform, Event.clock_of_not_concerns h]
  interval := by rw [intervals_perform]

theorem Alike.trans {task : Task} {a b c : Desk} (h : Alike task a b) (h' : Alike task b c) :
    Alike task a c :=
  ⟨h.slot.trans h'.slot, h.now.trans h'.now, h.interval.trans h'.interval⟩

/-- **Noninterference.** To those who care for one task, a run looks as if the events about the
other one had not happened. -/
theorem alike_run_filter [Room] {task : Task} {desk desk' : Desk} (h : Alike task desk desk')
    (events : List Event) :
    Alike task (desk.run events) (desk'.run (events.filter (Event.concerns task))) := by
  induction events generalizing desk desk' with
  | nil => exact h
  | cons event rest ih =>
    cases hconcerns : event.concerns task with
    | true =>
      rw [List.filter_cons_of_pos hconcerns]
      exact ih (h.perform event)
    | false =>
      rw [List.filter_cons_of_neg (by rw [hconcerns]; decide)]
      exact ih ((alike_perform hconcerns desk).trans h)

theorem Alike.mem_claimDue_iff {task : Task} {desk desk' : Desk} (h : Alike task desk desk')
    (now : Time) :
    task ∈ (desk.schedule.claimDue now).1 ↔ task ∈ (desk'.schedule.claimDue now).1 := by
  have hstatus : desk.schedule.status task = desk'.schedule.status task := by
    obtain ⟨hstate, hcheck, -⟩ := (Slot.mk.injEq ..).mp h.slot
    rw [Schedule.status, Schedule.status, hstate, hcheck, h.interval]
  rw [Schedule.mem_claimDue, Schedule.mem_claimDue, hstatus]

end Desk

end GameBridge
