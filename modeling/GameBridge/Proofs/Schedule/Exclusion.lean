import GameBridge.Capacity
import GameBridge.Engine.Refresh
import GameBridge.Proofs.Schedule.Throttle

/-!
# One claim at a time

A desk counts the claims on a task, but does not say whose they are. An `Office` adds the callers:
whoever claims a task gets a `Lease`, which stays in the hands of this caller until it is given
back, passed on to another one or lost for good. There may be any number of callers, and they come
in any order.

What protects the tasks is that the schedule and the hands of the callers never disagree
(`Orderly`). The desk counts as many claims in hand as there are leases, and its slots are sound,
which allows a slot one outstanding claim at most. So somebody is working on a task just if there is
a lease, in hand or lost, and nobody gets another one before it is given back.
-/

namespace GameBridge

/-! ## Callers -/

/-- A claim on a task in the hands of a caller. -/
structure Lease (ι : Type) where
  /-- Who has it. -/
  holder : ι
  /-- What it is a claim on. -/
  task : Task
deriving DecidableEq

/-- A desk and the leases in the hands of those who use it. -/
structure Office (ι : Type) where
  /-- The desk. -/
  desk : Desk
  /-- The leases. -/
  leases : List (Lease ι)

namespace Office

variable {ι : Type}

/-- An office with a new schedule, where nobody has a lease. -/
def opened (intervals : Intervals) (store : Store) (disk : Disk) (now : Time) : Office ι :=
  ⟨.opened intervals store disk now, []⟩

/-- How many leases on a task are in the hands of callers. -/
def inHand (office : Office ι) (task : Task) : Nat := (office.leases.map Lease.task).count task

/-- How many leases on a task were given out and not given back. -/
def outstanding (office : Office ι) (task : Task) : Nat :=
  office.inHand task + (office.desk.claims.get task).lost

/-! ## Agreement -/

/-- The desk counts as many claims in hand as callers have leases. -/
def Tallied (office : Office ι) : Prop :=
  ∀ task, (office.desk.claims.get task).held = office.inHand task

/-- The schedule and the hands of the callers agree. -/
structure Orderly (loaded : Task → Option Time) (office : Office ι) : Prop where
  tallied : office.Tallied
  sound : ∀ task, (office.desk.slot task).Sound (loaded task)

theorem orderly_opened (intervals : Intervals) (store : Store) (disk : Disk) (start : Time) :
    (opened intervals store disk start : Office ι).Orderly (Schedule.storedCheck store) where
  tallied task := by cases task <;> rfl
  sound task := Desk.Slot.sound_opened intervals store disk start task

namespace Orderly

variable {loaded : Task → Option Time} {office : Office ι}

theorem outstanding_eq (h : office.Orderly loaded) (task : Task) :
    office.outstanding task = (office.desk.slot task).claims.outstanding := by
  rw [outstanding, ← h.tallied task]
  rfl

theorem outstanding_le_one (h : office.Orderly loaded) (task : Task) :
    office.outstanding task ≤ 1 := by
  rw [h.outstanding_eq]
  exact (h.sound task).single

theorem idle_iff (h : office.Orderly loaded) (task : Task) :
    office.desk.schedule.states.get task = .idle ↔ office.outstanding task = 0 := by
  rw [h.outstanding_eq]
  exact (h.sound task).idle_iff

theorem running_iff (h : office.Orderly loaded) (task : Task) :
    office.desk.schedule.states.get task = .running ↔ office.outstanding task = 1 := by
  have hidle := h.idle_iff task
  have hone := h.outstanding_le_one task
  cases hstate : office.desk.schedule.states.get task with
  | idle =>
    rw [hstate] at hidle
    rw [hidle.mp rfl]
    decide
  | running =>
    rw [hstate] at hidle
    have hsome : office.outstanding task ≠ 0 := fun hzero ↦ absurd (hidle.mpr hzero) (by decide)
    exact iff_of_true rfl (by omega)

end Orderly

/-! ## Events -/

/-- What callers do, and what happens around them. -/
inductive Event (ι : Type) where
  | claimDue (caller : ι)
  | tryClaim (caller : ι) (task : Task)
  | giveBack (caller : ι) (task : Task)
  | lose (caller : ι) (task : Task)
  | passOn (caller other : ι) (task : Task)
  | wait (caller : ι) (task : Task)
  | setClock (now : Time)
  | elsewhere (store : Store) (disk : Disk)

variable [DecidableEq ι]

/-- The office after an event. Callers without a lease on a task have none to give back, to pass on
or to lose. -/
def perform [Room] (office : Office ι) : Event ι → Office ι
  | .claimDue caller =>
    let (due, _) := office.desk.schedule.claimDue office.desk.now
    ⟨office.desk.perform .claimDue, due.map (Lease.mk caller) ++ office.leases⟩
  | .tryClaim caller task =>
    match office.desk.schedule.tryClaim task with
    | none => office
    | some _ => ⟨office.desk.perform (.tryClaim task), ⟨caller, task⟩ :: office.leases⟩
  | .giveBack caller task =>
    if ⟨caller, task⟩ ∈ office.leases then
      ⟨office.desk.perform (.giveBack task), office.leases.erase ⟨caller, task⟩⟩
    else office
  | .lose caller task =>
    if ⟨caller, task⟩ ∈ office.leases then
      ⟨office.desk.perform (.lose task), office.leases.erase ⟨caller, task⟩⟩
    else office
  | .passOn caller other task =>
    if ⟨caller, task⟩ ∈ office.leases then
      ⟨office.desk, ⟨other, task⟩ :: office.leases.erase ⟨caller, task⟩⟩
    else office
  | .wait _ task => ⟨office.desk.perform (.wait task), office.leases⟩
  | .setClock now => ⟨office.desk.perform (.setClock now), office.leases⟩
  | .elsewhere store disk => ⟨office.desk.perform (.elsewhere store disk), office.leases⟩

/-- The office after a sequence of events. -/
def run [Room] (office : Office ι) (events : List (Event ι)) : Office ι :=
  events.foldl perform office

/-- The desk of an office sees one event, or none if a caller had no lease. -/
theorem desk_perform [Room] (office : Office ι) (event : Event ι) :
    (office.perform event).desk = office.desk
      ∨ ∃ seen, (office.perform event).desk = office.desk.perform seen := by
  cases event with
  | claimDue caller => exact Or.inr ⟨.claimDue, rfl⟩
  | tryClaim caller task =>
    rw [perform]
    split
    · exact Or.inl rfl
    · exact Or.inr ⟨.tryClaim task, rfl⟩
  | giveBack caller task =>
    rw [perform]
    split
    · exact Or.inr ⟨.giveBack task, rfl⟩
    · exact Or.inl rfl
  | lose caller task =>
    rw [perform]
    split
    · exact Or.inr ⟨.lose task, rfl⟩
    · exact Or.inl rfl
  | passOn caller other task =>
    rw [perform]
    split <;> exact Or.inl rfl
  | wait caller task => exact Or.inr ⟨.wait task, rfl⟩
  | setClock now => exact Or.inr ⟨.setClock now, rfl⟩
  | elsewhere store disk => exact Or.inr ⟨.elsewhere store disk, rfl⟩

/-! ## The tally

Every event changes what the desk counts and what the callers have by the same amount. The amounts
are compared task by task, as the slots of the desk change one by one. -/

private theorem count_of_mem {leases : List (Lease ι)} {lease : Lease ι} (h : lease ∈ leases)
    (task : Task) :
    (leases.map Lease.task).count task
      = ((leases.erase lease).map Lease.task).count task + if lease.task = task then 1 else 0 := by
  have hperm := (List.perm_cons_erase h).map Lease.task
  rw [hperm.count_eq, List.map_cons, List.count_cons]
  simp only [beq_iff_eq]

private theorem held_perform [Room] (desk : Desk) (event : Desk.Event) (task : Task) :
    ((desk.perform event).claims.get task).held = ((desk.slot task).react task
      (desk.schedule.intervals.get task) desk.now event).claims.held :=
  congrArg (fun slot ↦ slot.claims.held) (desk.slot_perform event task)

namespace Tallied

variable {office : Office ι}

theorem held_ne_zero (h : office.Tallied) {lease : Lease ι} (hmem : lease ∈ office.leases) :
    (office.desk.slot lease.task).claims.held ≠ 0 := by
  have hcount := count_of_mem hmem lease.task
  rw [← inHand, ← h lease.task, if_pos rfl] at hcount
  exact hcount ▸ Nat.succ_ne_zero _

theorem claimDue [Room] (h : office.Tallied) (caller : ι) :
    (office.perform (.claimDue caller)).Tallied := by
  intro task
  have hdue := office.desk.schedule.mem_claimDue office.desk.now task
  have hnodup := office.desk.schedule.nodup_claimDue office.desk.now
  have hstatus : (office.desk.slot task).status task (office.desk.schedule.intervals.get task)
      = office.desk.schedule.status task := rfl
  have hgiven : (((office.desk.schedule.claimDue office.desk.now).1.map
      (Lease.mk caller)).map Lease.task) = (office.desk.schedule.claimDue office.desk.now).1 := by
    rw [List.map_map]
    exact List.map_id _
  rw [perform, inHand, List.map_append, List.count_append, hgiven, ← inHand, ← h task,
    held_perform, Desk.Slot.react, hstatus]
  split
  case isTrue hyes =>
    rw [List.count_eq_one_of_mem hnodup (hdue.mpr hyes), Nat.add_comm]
    rfl
  case isFalse hno =>
    rw [List.count_eq_zero_of_not_mem (mt hdue.mp hno), Nat.zero_add]
    rfl

theorem tryClaim [Room] (h : office.Tallied) (caller : ι) (task : Task) :
    (office.perform (.tryClaim caller task)).Tallied := by
  rw [perform]
  cases hclaim : office.desk.schedule.tryClaim task with
  | none => exact h
  | some schedule =>
    have hidle : (office.desk.slot task).state = .idle := by
      rw [Schedule.tryClaim] at hclaim
      cases hstate : office.desk.schedule.states.get task with
      | idle => exact hstate
      | running => rw [hstate] at hclaim; exact absurd hclaim (by simp)
    intro other
    rw [inHand, List.map_cons, List.count_cons, ← inHand, ← h other, held_perform, Desk.Slot.react]
    by_cases hother : task = other
    · subst hother
      rw [if_pos ⟨rfl, hidle⟩, if_pos (beq_self_eq_true task)]
      rfl
    · rw [if_neg fun hboth ↦ hother hboth.1, if_neg (by simpa using hother)]
      rfl

/-- An event at the desk by which a lease leaves the hands of callers. -/
private theorem of_erase [Room] (h : office.Tallied) {lease : Lease ι}
    (hmem : lease ∈ office.leases) {event : Desk.Event}
    (hother : ∀ task, lease.task ≠ task → event.concerns task = false)
    (hself : ∀ (slot : Desk.Slot) (interval : Int64) (now : Time), slot.claims.held ≠ 0 →
      (slot.react lease.task interval now event).claims.held = slot.claims.held - 1) :
    Tallied ⟨office.desk.perform event, office.leases.erase lease⟩ := by
  intro task
  have hcount := count_of_mem hmem task
  rw [← inHand, ← h task] at hcount
  rw [held_perform]
  by_cases htask : lease.task = task
  · subst htask
    rw [hself _ _ _ (h.held_ne_zero hmem)]
    exact Nat.sub_eq_of_eq_add (hcount.trans (by rw [if_pos rfl]; rfl))
  · rw [Desk.Slot.react_of_not_concerns (hother task htask)]
    exact hcount.trans (by rw [if_neg htask]; rfl)

theorem giveBack [Room] (h : office.Tallied) (caller : ι) (task : Task) :
    (office.perform (.giveBack caller task)).Tallied := by
  rw [perform]
  split
  case isFalse => exact h
  case isTrue hmem =>
    refine h.of_erase hmem (fun other hne ↦ decide_eq_false hne) fun slot interval now hheld ↦ ?_
    rw [Desk.Slot.react, if_pos ⟨rfl, hheld⟩]
    rfl

theorem lose [Room] (h : office.Tallied) (caller : ι) (task : Task) :
    (office.perform (.lose caller task)).Tallied := by
  rw [perform]
  split
  case isFalse => exact h
  case isTrue hmem =>
    refine h.of_erase hmem (fun other hne ↦ decide_eq_false hne) fun slot interval now hheld ↦ ?_
    rw [Desk.Slot.react, if_pos ⟨rfl, hheld⟩]
    rfl

theorem passOn [Room] (h : office.Tallied) (caller other : ι) (task : Task) :
    (office.perform (.passOn caller other task)).Tallied := by
  rw [perform]
  split
  case isFalse => exact h
  case isTrue hmem =>
    intro kind
    have hcount := count_of_mem hmem kind
    rw [inHand, List.map_cons, List.count_cons, h kind, inHand, hcount]
    simp only [beq_iff_eq]

theorem perform [Room] (h : office.Tallied) (event : Event ι) : (office.perform event).Tallied := by
  cases event with
  | claimDue caller => exact h.claimDue caller
  | tryClaim caller task => exact h.tryClaim caller task
  | giveBack caller task => exact h.giveBack caller task
  | lose caller task => exact h.lose caller task
  | passOn caller other task => exact h.passOn caller other task
  | wait _ _ | setClock _ | elsewhere _ _ => exact h

end Tallied

/-! ## Runs -/

theorem orderly_perform [Room] {loaded : Task → Option Time} {office : Office ι}
    (h : office.Orderly loaded) (event : Event ι) : (office.perform event).Orderly loaded where
  tallied := h.tallied.perform event
  sound task := by
    rcases desk_perform office event with hsame | ⟨seen, hseen⟩
    · rw [hsame]
      exact h.sound task
    · rw [hseen, Desk.slot_perform]
      exact (h.sound task).react task _ _ seen

theorem orderly_run [Room] {loaded : Task → Option Time} {office : Office ι}
    (h : office.Orderly loaded) (events : List (Event ι)) :
    (office.run events).Orderly loaded := by
  induction events generalizing office with
  | nil => exact h
  | cons event rest ih => exact ih (orderly_perform h event)

/-- After a lease was given back, nobody is working on its task, which counts as checked then. What
became of the write to the store makes no difference. -/
theorem slot_giveBack [Room] {office : Office ι} (h : office.Tallied) {caller : ι} {task : Task}
    (hmem : ⟨caller, task⟩ ∈ office.leases) :
    (office.perform (.giveBack caller task)).desk.slot task
      = ⟨.idle, some office.desk.now, (office.desk.slot task).claims.giveBack office.desk.now⟩ := by
  have hheld : (office.desk.slot task).claims.held ≠ 0 := h.held_ne_zero hmem
  rw [perform, if_pos hmem, Desk.slot_perform, Desk.Slot.react, if_pos ⟨rfl, hheld⟩]

end Office

/-! ## Refreshes -/

theorem Schedule.isSome_tryClaim_iff (schedule : Schedule) (task : Task) :
    (schedule.tryClaim task).isSome = true ↔ schedule.states.get task = .idle := by
  rw [tryClaim]
  cases schedule.states.get task <;> simp

namespace Engine

theorem now_refresh (engine : Engine) (task : Task) :
    (engine.refresh task).2.world.now = engine.world.now := by
  cases task with
  | ownership =>
    rw [refresh, refreshOwned]
    dsimp only
    split <;> rfl
  | installation =>
    rw [refresh, refreshInstalled]
    dsimp only
    split <;> rfl

/-- A refresh under a claim gives the claim back, however the refresh itself ends. -/
theorem schedule_refreshClaimed [Room] (engine : Engine) (task : Task) :
    (engine.refreshClaimed task).2.schedule.states.get task = .idle
      ∧ (engine.refreshClaimed task).2.schedule.lastChecks.get task = some engine.world.now := by
  constructor
  · exact PerTask.get_set_self ..
  · rw [← engine.now_refresh task]
    exact PerTask.get_set_self ..

end Engine

/-! ## The law -/

namespace Office

variable {ι : Type} [DecidableEq ι]

/-- **Mutual exclusion.** After any run of any callers, at most one lease on a task is outstanding.
Somebody is working on the task just if there is one, and it can be claimed just if there is none.
A lease that is given back leaves its task idle and checked at that time, whatever the store and the
disk make of the write, and so does a refresh, whatever its outcome. -/
theorem exclusion_run [Room] (intervals : Intervals) (store : Store) (disk : Disk) (start : Time)
    (events : List (Event ι)) (task : Task) :
    let office := (opened intervals store disk start).run events
    office.outstanding task ≤ 1
      ∧ (office.desk.schedule.states.get task = .running ↔ office.outstanding task = 1)
      ∧ ((office.desk.schedule.tryClaim task).isSome = true ↔ office.outstanding task = 0)
      ∧ (∀ caller, ⟨caller, task⟩ ∈ office.leases → ∀ store disk,
          let after := (office.perform (.elsewhere store disk)).perform (.giveBack caller task)
          after.desk.schedule.states.get task = .idle
            ∧ after.desk.schedule.lastChecks.get task = some office.desk.now
            ∧ after.outstanding task = 0)
      ∧ ∀ engine : Engine,
          (engine.refreshClaimed task).2.schedule.states.get task = .idle
            ∧ (engine.refreshClaimed task).2.schedule.lastChecks.get task
              = some engine.world.now := by
  intro office
  have horderly : office.Orderly (Schedule.storedCheck store) :=
    orderly_run (orderly_opened intervals store disk start) events
  refine ⟨horderly.outstanding_le_one task, horderly.running_iff task, ?_, ?_,
    fun engine ↦ engine.schedule_refreshClaimed task⟩
  · rw [Schedule.isSome_tryClaim_iff]
    exact horderly.idle_iff task
  · intro caller hmem store' disk' after
    have hchanged := orderly_perform horderly (.elsewhere store' disk')
    have hafter := orderly_perform hchanged (.giveBack caller task)
    have hslot : after.desk.slot task = _ := slot_giveBack hchanged.tallied hmem
    have hidle := congrArg Desk.Slot.state hslot
    exact ⟨hidle, congrArg Desk.Slot.lastCheck hslot, (hafter.idle_iff task).mp hidle⟩

/-- One caller claims a task, a second one the other, and a third one gives the first back. -/
theorem exclusion_threeCallers :
    let office := (opened defaultIntervals (.ofEntries .empty) .emptyFolder 100 : Office Nat).run
      [.tryClaim 0 .ownership, .claimDue 1, .passOn 0 2 .ownership, .setClock 50]
    (⟨2, .ownership⟩ : Lease Nat) ∈ office.leases
      ∧ (office.perform (.giveBack 2 .ownership)).desk.schedule.lastChecks.get .ownership
        = some 50 := by
  intro office
  have hmem : (⟨2, .ownership⟩ : Lease Nat) ∈ office.leases := List.mem_cons_self
  have hlaw := exclusion_run defaultIntervals (.ofEntries .empty) .emptyFolder 100
    [.tryClaim 0 .ownership, .claimDue 1, .passOn 0 2 .ownership, .setClock 50] .ownership
  exact ⟨hmem, (hlaw.2.2.2.1 2 hmem (.ofEntries .empty) .emptyFolder).2.1⟩

end Office

end GameBridge
