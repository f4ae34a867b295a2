import GameBridge.Proofs.Schedule.Desk

/-!
# When a task is due

The answer of `claimDue` is determined by what happened at the desk: a task is due just if no claim
on it is outstanding and more than its interval has passed since a claim on it was last given back
or, if none was given back yet, since the check that the store had when the schedule was made.

The work is done slot by slot. `Slot.Sound` is what every event keeps: somebody is working on a
task just if a claim is outstanding, there is never a second one, and the time of the last check is
that of the last return. A single claim is what makes the first of these last, since a return of one
of two claims would leave the other one with a task on which nobody seems to work.
-/

namespace GameBridge

theorem TaskStatus.isDue_iff {status : TaskStatus} {now : Time} :
    status.isDue now = true ↔ status.state = .idle ∧
      ∀ since ∈ status.lastCheck, status.interval.toInt < (Time.elapsed now since).toInt := by
  rw [isDue]
  cases status.state with
  | running => simp
  | idle =>
    cases status.lastCheck with
    | none => simp
    | some since => simp [Int64.lt_iff_toInt_lt]

/-! ## Sound slots -/

/-- The time that counts as the last check of a task: when a claim on it was last given back, or
else what the store had when the schedule was made. -/
def Claims.stamp (claims : Claims) (loaded : Option Time) : Option Time :=
  claims.returns.head?.or loaded

namespace Desk

/-- A slot agrees with what became of the claims. -/
structure Slot.Sound (loaded : Option Time) (slot : Slot) : Prop where
  idle_iff : slot.state = .idle ↔ slot.claims.outstanding = 0
  single : slot.claims.outstanding ≤ 1
  lastCheck : slot.lastCheck = slot.claims.stamp loaded

namespace Slot

variable {loaded : Option Time} {slot : Slot}

theorem isDue_status {task : Task} {interval : Int64} {now : Time} :
    (slot.status task interval).isDue now = true ↔ slot.state = .idle ∧
      ∀ since ∈ slot.lastCheck, interval.toInt < (Time.elapsed now since).toInt :=
  TaskStatus.isDue_iff

theorem sound_opened (intervals : Intervals) (store : Store) (disk : Disk) (start : Time)
    (task : Task) :
    ((opened intervals store disk start).slot task).Sound (Schedule.storedCheck store task) := by
  cases task <;> exact ⟨⟨fun _ ↦ rfl, fun _ ↦ rfl⟩, Nat.zero_le 1, rfl⟩

namespace Sound

theorem claimed (h : slot.Sound loaded) (hidle : slot.state = .idle) :
    slot.claimed.Sound loaded := by
  have hone : slot.claimed.claims.outstanding = 1 := by
    rw [Slot.claimed, Claims.outstanding_take, h.idle_iff.mp hidle]
  refine ⟨⟨fun hbusy ↦ ?_, fun hnone ↦ ?_⟩, Nat.le_of_eq hone, h.lastCheck⟩
  · exact absurd hbusy (by simp [Slot.claimed])
  · exact absurd (hone.symm.trans hnone) (by decide)

theorem giveBack (h : slot.Sound loaded) (hheld : slot.claims.held ≠ 0) (now : Time) :
    Slot.Sound loaded ⟨.idle, some now, slot.claims.giveBack now⟩ := by
  have hsingle := h.single
  have hnone : (slot.claims.giveBack now).outstanding = 0 := by
    rw [Claims.outstanding_giveBack hheld]
    omega
  exact ⟨⟨fun _ ↦ hnone, fun _ ↦ rfl⟩, by rw [hnone]; exact Nat.zero_le 1, rfl⟩

theorem lose (h : slot.Sound loaded) (hheld : slot.claims.held ≠ 0) :
    Slot.Sound loaded { slot with claims := slot.claims.lose } where
  idle_iff := by rw [Claims.outstanding_lose hheld]; exact h.idle_iff
  single := by rw [Claims.outstanding_lose hheld]; exact h.single
  lastCheck := h.lastCheck

/-- Every event keeps a slot sound. -/
theorem react (h : slot.Sound loaded) (task : Task) (interval : Int64) (now : Time)
    (event : Event) : (slot.react task interval now event).Sound loaded := by
  cases event with
  | claimDue =>
    rw [Slot.react]
    split
    · rename_i hdue
      exact h.claimed (isDue_status.mp hdue).1
    · exact h
  | tryClaim other =>
    rw [Slot.react]
    split
    · rename_i hfree
      exact h.claimed hfree.2
    · exact h
  | giveBack other =>
    rw [Slot.react]
    split
    · rename_i hheld
      exact h.giveBack hheld.2 now
    · exact h
  | lose other =>
    rw [Slot.react]
    split
    · rename_i hheld
      exact h.lose hheld.2
    · exact h
  | wait _ | snapshot | setClock _ | elsewhere _ _ => exact h

end Sound

end Slot

/-! ## The law -/

section Throttle

variable (intervals : Intervals) (store : Store) (disk : Disk) (start : Time)

theorem sound_run [Room] (events : List Event) (task : Task) :
    (((opened intervals store disk start).run events).slot task).Sound
      (Schedule.storedCheck store task) :=
  slot_run (fun _ interval now event h ↦ h.react task interval now event)
    (Slot.sound_opened intervals store disk start task) events

/-- **Throttling.** After any run, at any time, `claimDue` gives in their order the tasks without
an outstanding claim that were never checked or whose interval is less than the time since, which
is held within 64 bits. Events about the other task make no difference. -/
theorem claimDue_run [Room] (events : List Event) (now : Time) :
    (((opened intervals store disk start).run events).schedule.claimDue now).1
        = (Task.all.filter fun task ↦
            let claims := ((opened intervals store disk start).run events).claims.get task
            decide (claims.outstanding = 0)
              && (claims.stamp (Schedule.storedCheck store task)).all fun since ↦
                decide ((intervals.get task).toInt
                  < max Int64.minValue.toInt (min Int64.maxValue.toInt (now.toInt - since.toInt))))
      ∧ ∀ task, task ∈ (((opened intervals store disk start).run events).schedule.claimDue now).1 ↔
          task ∈ (((opened intervals store disk start).run
            (events.filter (Event.concerns task))).schedule.claimDue now).1 := by
  constructor
  · rw [Schedule.claimDue_eq_filter]
    refine List.filter_congr fun task _ ↦ ?_
    have hsound := sound_run intervals store disk start events task
    have hinterval := intervals_run (opened intervals store disk start) events
    have hstatus : ((opened intervals store disk start).run events).schedule.status task
        = (((opened intervals store disk start).run events).slot task).status task
          (intervals.get task) := by
      rw [Schedule.status, hinterval]
      rfl
    rw [Bool.eq_iff_iff, hstatus, Slot.isDue_status, hsound.idle_iff, hsound.lastCheck,
      Bool.and_eq_true, decide_eq_true_iff, Option.all_eq_true]
    simp only [Time.toInt_elapsed, decide_eq_true_iff]
    rfl
  · intro task
    exact (alike_run_filter ⟨rfl, rfl, rfl⟩ events).mem_claimDue_iff now

end Throttle

end Desk

end GameBridge
