import GameBridge.Proofs.Schedule.Countdown

/-!
# How long a task has to wait

Whether a task is due is decided with a difference that is held within 64 bits, and the countdown
is a sum with one second added. The two agree to the second: with a countdown of `d` seconds a task
on which nobody works comes due just `d` seconds later, and it is due already just if `d` is zero.
That holds also where the clock is behind the last check, and where a difference is too large to be
exact.

An interval of the greatest length is left out. The seconds since a check never exceed it, as they
are held within 64 bits, but the countdown may well end.
-/

namespace GameBridge

namespace TaskStatus

variable {status : TaskStatus}

/-- An idle task is due from the end of its countdown on. -/
theorem isDue_iff_remaining (hidle : status.state = .idle)
    (hinterval : status.interval < Int64.maxValue) {now t : Time} (hle : now ≤ t) :
    status.isDue t = true ↔ now.toInt + status.remaining now ≤ t.toInt := by
  rw [Int64.lt_iff_toInt_lt, Int64.toInt_maxValue] at hinterval
  rw [Int64.le_iff_toInt_le] at hle
  have hleast := status.interval.le_toInt
  rw [remaining]
  rcases hcheck : status.lastCheck with _ | since
  · simp only [isDue_iff, hidle, hcheck, true_and]
    simpa using hle
  · have helapsed (t : Time) : status.isDue t = true ↔
        status.interval.toInt < (Time.elapsed t since).toInt := by
      simp [isDue_iff, hidle, hcheck]
    simp only [helapsed, Time.toInt_elapsed, Int64.toInt_minValue, Int64.toInt_maxValue]
    -- a difference that is cut at the upper end is still above the interval
    split_ifs with hnow <;> omega

theorem remaining_nonneg (now : Time) : 0 ≤ status.remaining now := by
  rw [remaining]
  split
  · exact le_rfl
  · split_ifs
    · exact le_rfl
    · exact le_max_left _ _

theorem remaining_eq_zero_iff (hidle : status.state = .idle)
    (hinterval : status.interval < Int64.maxValue) (now : Time) :
    status.remaining now = 0 ↔ status.isDue now = true := by
  have hnonneg := status.remaining_nonneg now
  rw [isDue_iff_remaining hidle hinterval (Int64.le_refl now)]
  omega

end TaskStatus

namespace Schedule

theorem mem_snapshot {schedule : Schedule} {now : Time} {found : List TaskSnapshot}
    (h : schedule.snapshot now = .ok found) {entry : TaskSnapshot} (hentry : entry ∈ found) :
    schedule.status entry.status.task = entry.status
      ∧ entry.dueIn.toInt = entry.status.remaining now := by
  have hcounted := schedule.countedAll_snapshot now
  rw [h] at hcounted
  obtain ⟨-, hstatuses, hdueIns⟩ := hcounted
  constructor
  · have hmem := List.mem_map_of_mem (f := TaskSnapshot.status) hentry
    rw [hstatuses] at hmem
    obtain ⟨task, -, htask⟩ := List.mem_map.mp hmem
    rw [← htask]
    rfl
  · rw [← hstatuses, List.map_map] at hdueIns
    exact List.map_inj_left.mp hdueIns entry hentry

/-- **Waiting.** Where the countdowns can be given, there is one for every task, in order. If nobody
works on a task and its interval is not the greatest one, its countdown is zero just if the task is
claimed at once; and if nothing happens to the task, it is claimed at a later time just if that is
not before the end of the countdown. -/
theorem snapshot_dueIn {schedule : Schedule} {now : Time} {found : List TaskSnapshot}
    (h : schedule.snapshot now = .ok found) :
    found.map TaskSnapshot.status = Task.all.map schedule.status
      ∧ ∀ entry ∈ found, entry.status.state = .idle → entry.status.interval < Int64.maxValue →
        (entry.dueIn = 0 ↔ entry.status.task ∈ (schedule.claimDue now).1)
          ∧ ∀ (later : Schedule) (t : Time), later.status entry.status.task = entry.status →
            now ≤ t → (entry.status.task ∈ (later.claimDue t).1 ↔
              now.toInt + entry.dueIn.toInt ≤ t.toInt) := by
  have hcounted := schedule.countedAll_snapshot now
  rw [h] at hcounted
  refine ⟨hcounted.2.1, fun entry hentry hidle hinterval ↦ ?_⟩
  obtain ⟨hown, hexact⟩ := mem_snapshot h hentry
  refine ⟨?_, fun later t hlater hle ↦ ?_⟩
  · rw [mem_claimDue, hown, ← TaskStatus.remaining_eq_zero_iff hidle hinterval, ← hexact,
      ← Int64.toInt_inj]
    rfl
  · rw [mem_claimDue, hlater, TaskStatus.isDue_iff_remaining hidle hinterval hle, hexact]

/-- A schedule whose clock is behind the last check of the owned games. -/
def behind : Schedule :=
  load defaultIntervals (.ofEntries (.ofList [("last_check_ownership", "2000")]))

/-- A day, a thousand seconds and one more have to pass, and that is exact. -/
theorem snapshot_dueIn_behind :
    ∃ owned installed, behind.snapshot 1000 = .ok [owned, installed]
      ∧ owned.dueIn = 87401 ∧ installed.dueIn = 0
      ∧ .ownership ∉ (behind.claimDue 1000).1 ∧ .installation ∈ (behind.claimDue 1000).1
      ∧ .ownership ∉ (behind.claimDue 88400).1 ∧ .ownership ∈ (behind.claimDue 88401).1 := by
  have hfound : behind.snapshot 1000 = .ok [⟨⟨.ownership, some 2000, 86400, .idle⟩, 87401⟩,
      ⟨⟨.installation, none, 3600, .idle⟩, 0⟩] := by decide +kernel
  obtain ⟨-, hexact⟩ := snapshot_dueIn hfound
  obtain ⟨howned, hlater⟩ := hexact _ List.mem_cons_self rfl (by decide)
  obtain ⟨hinstalled, -⟩ := hexact _ (List.mem_cons_of_mem _ List.mem_cons_self) rfl (by decide)
  have hstatus : behind.status .ownership = ⟨.ownership, some 2000, 86400, .idle⟩ := by
    decide +kernel
  refine ⟨_, _, hfound, rfl, rfl, fun h ↦ ?_, hinstalled.mp rfl, fun h ↦ ?_, ?_⟩
  · exact absurd (howned.mpr h) (by decide)
  · exact absurd ((hlater behind 88400 hstatus (by decide)).mp h) (by decide)
  · exact (hlater behind 88401 hstatus (by decide)).mpr (by decide)

end Schedule

end GameBridge
