import GameBridge.Playtime
import GameBridge.Proofs.Number.Order
import GameBridge.Proofs.Store.Saving

/-!
# Recording a session

A session is recorded by setting two entries, the total and the end, after reading the total that
was there. `steps_record` says what can come of it: both entries are set, or none is, or the total
alone. Where the first entry could be set the second one can be too, if there is room for it, so
the last happens on a disk that is nearly full and nowhere else.

The entries of different games have different keys, and a total has another key than an end.
-/

namespace GameBridge.Playtime

/-! ## Keys -/

theorem timeKey_inj {a b : String} : timeKey a = timeKey b ↔ a = b := String.append_right_inj "time"

theorem lastKey_inj {a b : String} : lastKey a = lastKey b ↔ a = b := String.append_right_inj "last"

theorem timeKey_ne_lastKey (a b : String) : timeKey a ≠ lastKey b := by
  intro h
  have hlist := congrArg String.toList h
  rw [timeKey, lastKey, String.toList_append, String.toList_append] at hlist
  exact absurd (List.cons.inj hlist).1 (by decide)

theorem lastKey_ne_timeKey (a b : String) : lastKey a ≠ timeKey b := (timeKey_ne_lastKey b a).symm

/-! ## Sums -/

theorem toNat_addMinutes (a b : UInt64) :
    (addMinutes a b).toNat = min (a.toNat + b.toNat) (2 ^ 64 - 1) :=
  toNat_ofNatClamp _

theorem le_addMinutes (a b : UInt64) : a ≤ addMinutes a b := by
  have ha := a.toNat_lt
  rw [UInt64.le_iff_toNat_le, toNat_addMinutes]
  omega

/-! ## Reading what was stored -/

theorem number_eq_unknown_iff (store : Store) (id key : String) :
    number store id key = .ok none ↔ store.get? key = none := by
  rw [number]
  cases store.get? key with
  | none => exact iff_of_true rfl rfl
  | some raw =>
    refine iff_of_false (fun h ↦ ?_) (by simp)
    cases hread : readFinite? raw with
    | none => simp [hread] at h
    | some x => simp [hread] at h

theorem total_eq_unknown_iff {store : Store} {id : String} :
    total store id = .ok none ↔ store.get? (timeKey id) = none := by
  rw [← number_eq_unknown_iff store id, total]
  rcases number store id (timeKey id) with failure | _ | x <;> simp [Except.map]

theorem lastPlayed_eq_unknown_iff {store : Store} {id : String} :
    lastPlayed store id = .ok none ↔ store.get? (lastKey id) = none := by
  rw [← number_eq_unknown_iff store id, lastPlayed]
  rcases number store id (lastKey id) with failure | _ | x <;> simp [Except.map]

/-- A stored total is known as what it is read back as. -/
theorem total_of_stored {store : Store} {id : String} {n : UInt64}
    (h : store.get? (timeKey id) = some (Decimal.ofUInt64 n)) :
    total store id = .ok (some (Decimal.rereadUInt64 n)) := by
  obtain ⟨x, hx, hvalue⟩ := Option.map_eq_some_iff.mp (Decimal.toUInt64_readFinite? n)
  rw [total, number, h]
  simp only [hx, Except.map, Option.map_some, hvalue]

/-- A stored end is known as what it is read back as. -/
theorem lastPlayed_of_stored {store : Store} {id : String} {t : Time}
    (h : store.get? (lastKey id) = some (Decimal.ofInt64 t)) :
    lastPlayed store id = .ok (some (Decimal.rereadInt64 t)) := by
  obtain ⟨x, hx, hvalue⟩ := Option.map_eq_some_iff.mp (Decimal.toInt64_readFinite? t)
  rw [lastPlayed, number, h]
  simp only [hx, Except.map, Option.map_some, hvalue]

/-- A total of at most `2 ^ 53` is read back exactly. -/
theorem total_of_some {store : Store} {id : String} {n : UInt64}
    (h : store.get? (timeKey id) = some (Decimal.ofUInt64 n)) (hn : n.toNat ≤ 2 ^ 53) :
    total store id = .ok (some n) := by
  rw [total_of_stored h, Decimal.rereadUInt64_of_le hn]

/-- A time of a magnitude up to `2 ^ 53` is read back exactly. -/
theorem lastPlayed_of_some {store : Store} {id : String} {t : Time}
    (h : store.get? (lastKey id) = some (Decimal.ofInt64 t)) (ht : t.toInt.natAbs ≤ 2 ^ 53) :
    lastPlayed store id = .ok (some t) := by
  rw [lastPlayed_of_stored h, Decimal.rereadInt64_of_le ht]

/-! ## The new total -/

theorem newTotal_eq_ok_iff {store : Store} {id : String} {start stop : Time} {sum : UInt64} :
    newTotal store id start stop = .ok sum ↔ ∃ known, total store id = .ok known
      ∧ sum = addMinutes (known.getD 0) (sessionMinutes start stop) := by
  rw [newTotal]
  rcases total store id with failure | known
  · simp [Except.map]
  · simp [Except.map, eq_comm]

theorem newTotal_eq_error_iff {store : Store} {id : String} {start stop : Time}
    {failure : Failure} :
    newTotal store id start stop = .error failure ↔ total store id = .error failure := by
  rw [newTotal]
  rcases total store id with failure | known
  · simp [Except.map]
  · simp [Except.map]

/-- The new total of a session is not below the one before. -/
theorem le_newTotal {store : Store} {id : String} {start stop : Time} {known : Option UInt64}
    {sum : UInt64} (h : total store id = .ok known)
    (hsum : newTotal store id start stop = .ok sum) : known.getD 0 ≤ sum := by
  obtain ⟨found, hfound, rfl⟩ := newTotal_eq_ok_iff.mp hsum
  obtain rfl := Except.ok.inj (h.symm.trans hfound)
  exact le_addMinutes _ _

/-! ## One session -/

/-- A store with the new total of a session. -/
def withTotal (store : Store) (id : String) (sum : UInt64) : Store :=
  { store with entries := store.entries.insert (timeKey id) (Decimal.ofUInt64 sum) }

/-- A store with the two entries of a session. -/
def withSession (store : Store) (id : String) (sum : UInt64) (stop : Time) : Store :=
  { withTotal store id sum with
    entries := (withTotal store id sum).entries.insert (lastKey id) (Decimal.ofInt64 stop) }

section WithSession

variable {store : Store} {id : String} {sum : UInt64} {stop : Time}

theorem backing_withTotal : (withTotal store id sum).backing = store.backing := rfl

theorem get?_withTotal_time :
    (withTotal store id sum).get? (timeKey id) = some (Decimal.ofUInt64 sum) := by
  rw [withTotal, Store.get?, Index.get?_insert, if_pos rfl]

theorem get?_withTotal_of_ne {key : String} (htime : key ≠ timeKey id) :
    (withTotal store id sum).get? key = store.get? key := by
  rw [withTotal, Store.get?, Index.get?_insert, if_neg htime, Store.get?]

theorem get?_withSession_last :
    (withSession store id sum stop).get? (lastKey id) = some (Decimal.ofInt64 stop) := by
  rw [withSession, Store.get?, Index.get?_insert, if_pos rfl]

theorem get?_withSession_of_ne_last {key : String} (hlast : key ≠ lastKey id) :
    (withSession store id sum stop).get? key = (withTotal store id sum).get? key := by
  rw [withSession, Store.get?, Index.get?_insert, if_neg hlast, Store.get?]

theorem get?_withSession_time :
    (withSession store id sum stop).get? (timeKey id) = some (Decimal.ofUInt64 sum) :=
  (get?_withSession_of_ne_last (timeKey_ne_lastKey id id)).trans get?_withTotal_time

theorem get?_withSession_of_ne {key : String} (htime : key ≠ timeKey id)
    (hlast : key ≠ lastKey id) : (withSession store id sum stop).get? key = store.get? key :=
  (get?_withSession_of_ne_last hlast).trans (get?_withTotal_of_ne htime)

end WithSession

section Record

variable [Room] (store : Store) (disk : Disk) (id : String) (start stop : Time)

/-- How far recording a session got, and what it came to. -/
inductive Steps : Except Failure UInt64 × Store × Disk → Prop
  | unreadable {failure : Failure} (hsum : newTotal store id start stop = .error failure) :
    Steps (.error failure, store, disk)
  | refused {sum : UInt64} {failure : Failure} {now : Disk}
    (hsum : newTotal store id start stop = .ok sum)
    (htime : putTotal store disk id sum = (.error failure, store, now)) :
    Steps (.error failure, store, now)
  | halfway {sum : UInt64} {failure : Failure} {between now : Disk}
    (hsum : newTotal store id start stop = .ok sum)
    (htime : putTotal store disk id sum = (.ok (), withTotal store id sum, between))
    (hfull : ¬(withTotal store id sum).Fits between (lastKey id) (Decimal.ofInt64 stop))
    (hlast : putEnd (withTotal store id sum) between id stop
      = (.error failure, withTotal store id sum, now)) :
    Steps (.error failure, withTotal store id sum, now)
  | recorded {sum : UInt64} {between now : Disk}
    (hsum : newTotal store id start stop = .ok sum)
    (htime : putTotal store disk id sum = (.ok (), withTotal store id sum, between))
    (hroom : (withTotal store id sum).Fits between (lastKey id) (Decimal.ofInt64 stop))
    (hlast : putEnd (withTotal store id sum) between id stop
      = (.ok (), withSession store id sum stop, now)) :
    Steps (.ok sum, withSession store id sum stop, now)

/-- **Recording a session** takes these steps. The second entry is set just if there is room. -/
theorem steps_record :
    Steps store disk id start stop (record store disk id start stop) := by
  rw [record]
  rcases hsum : newTotal store id start stop with failure | sum
  · exact .unreadable hsum
  · dsimp only
    obtain ⟨between, htime⟩ | ⟨failure, now, htime⟩ :=
      Store.put_cases store disk (timeKey id) (Decimal.ofUInt64 sum)
    · have hroom := Store.put_fst_after htime (lastKey id) (Decimal.ofInt64 stop)
      rw [← putTotal, ← withTotal] at htime
      rw [← putEnd, ← withTotal] at hroom
      rw [htime]
      dsimp only
      obtain ⟨now, hlast⟩ | ⟨failure, now, hlast⟩ := Store.put_cases (withTotal store id sum)
        between (lastKey id) (Decimal.ofInt64 stop)
      · rw [← putEnd, ← withSession] at hlast
        rw [hlast] at hroom ⊢
        exact .recorded hsum htime (hroom.mp rfl) hlast
      · rw [← putEnd] at hlast
        rw [hlast] at hroom ⊢
        exact .halfway hsum htime (fun hfits ↦ absurd (hroom.mpr hfits) (by simp)) hlast
    · rw [← putTotal] at htime
      rw [htime]
      exact .refused hsum htime

theorem record_cases :
    (∃ sum after last, newTotal store id start stop = .ok sum
        ∧ record store disk id start stop = (.ok sum, after, last)
        ∧ after.get? (timeKey id) = some (Decimal.ofUInt64 sum)
        ∧ after.get? (lastKey id) = some (Decimal.ofInt64 stop)) ∨
      ∃ failure after last, record store disk id start stop = (.error failure, after, last) := by
  have hsteps := steps_record store disk id start stop
  generalize record store disk id start stop = result at hsteps ⊢
  rcases hsteps with - | - | - | hsum
  · exact Or.inr ⟨_, _, _, rfl⟩
  · exact Or.inr ⟨_, _, _, rfl⟩
  · exact Or.inr ⟨_, _, _, rfl⟩
  · exact Or.inl ⟨_, _, _, hsum, rfl, get?_withSession_time, get?_withSession_last⟩

/-- Recording a session touches no entry but the two of its game. -/
theorem get?_record_of_ne {key : String} (htime : key ≠ timeKey id) (hlast : key ≠ lastKey id) :
    (record store disk id start stop).2.1.get? key = store.get? key := by
  have hsteps := steps_record store disk id start stop
  generalize record store disk id start stop = result at hsteps ⊢
  rcases hsteps with - | - | - | -
  · rfl
  · rfl
  · exact get?_withTotal_of_ne htime
  · exact get?_withSession_of_ne htime hlast

variable {store disk id start stop}

/-- A session that is not recorded touches the total at most. -/
theorem get?_record_of_error {key : String} {failure : Failure}
    (h : (record store disk id start stop).1 = .error failure) (htime : key ≠ timeKey id) :
    (record store disk id start stop).2.1.get? key = store.get? key := by
  have hsteps := steps_record store disk id start stop
  generalize record store disk id start stop = result at hsteps h ⊢
  rcases hsteps with - | - | - | -
  · rfl
  · rfl
  · exact get?_withTotal_of_ne htime
  · exact absurd h (by simp)

theorem roomy_record (hroom : store.Roomy) : (record store disk id start stop).2.1.Roomy := by
  have hsteps := steps_record store disk id start stop
  generalize record store disk id start stop = result at hsteps ⊢
  rcases hsteps with - | - | - | - <;> exact hroom

/-- With room for everything, a session that is not recorded leaves all entries as they were. -/
theorem store_record_of_error {failure : Failure} (hroom : store.Roomy)
    (h : (record store disk id start stop).1 = .error failure) :
    (record store disk id start stop).2.1 = store := by
  have hsteps := steps_record store disk id start stop
  generalize record store disk id start stop = result at hsteps h ⊢
  rcases hsteps with - | - | ⟨-, -, hfull, -⟩ | -
  · rfl
  · rfl
  · exact absurd (hroom.fits backing_withTotal _ _ _) hfull
  · exact absurd h (by simp)

/-- Where there is room, a session is recorded if its total can be stored. -/
theorem record_fst (hroom : store.Roomy) :
    (record store disk id start stop).1 = (newTotal store id start stop).bind fun sum ↦
      (putTotal store disk id sum).1.map fun _ ↦ sum := by
  have hsteps := steps_record store disk id start stop
  generalize record store disk id start stop = result at hsteps ⊢
  rcases hsteps with hsum | ⟨hsum, htime⟩ | @⟨sum, _, _, _, -, -, hfull, -⟩ | ⟨hsum, htime, -, -⟩
  · rw [hsum]
    rfl
  · rw [hsum, Except.bind, htime]
    rfl
  · exact absurd (hroom.fits backing_withTotal _ _ _) hfull
  · rw [hsum, Except.bind, htime]
    rfl

/-- Where there is room, a session is recorded with the same answer if some other entry was set
before. -/
theorem record_fst_put {key : String} (hroom : store.Roomy) (h : key ≠ timeKey id)
    (value : String) :
    (record (store.put disk key value).2.1 (store.put disk key value).2.2 id start stop).1
      = (record store disk id start stop).1 := by
  have htotal : newTotal (store.put disk key value).2.1 id start stop
      = newTotal store id start stop := by
    rw [newTotal, newTotal, total, total, number, number,
      Store.get?_put_of_ne store disk key value h.symm]
  have hagain := hroom.put disk key value
  rw [record_fst hagain, record_fst hroom, htotal]
  rcases newTotal store id start stop with failure | sum
  · rfl
  · simp only [Except.bind, putTotal]
    rw [Store.put_fst_put _ _ (hroom.fits rfl _ _ _) (hagain.fits rfl _ _ _)]

theorem get?_of_get?_record {key : String}
    (h : (record store disk id start stop).2.1.get? key = none) : store.get? key = none := by
  have hsteps := steps_record store disk id start stop
  generalize record store disk id start stop = result at hsteps h
  rcases hsteps with - | - | - | -
  · exact h
  · exact h
  · have htime : key ≠ timeKey id := by
      rintro rfl
      exact absurd (get?_withTotal_time.symm.trans h) (by simp)
    exact (get?_withTotal_of_ne htime).symm.trans h
  · have htime : key ≠ timeKey id := by
      rintro rfl
      exact absurd (get?_withSession_time.symm.trans h) (by simp)
    have hlast : key ≠ lastKey id := by
      rintro rfl
      exact absurd (get?_withSession_last.symm.trans h) (by simp)
    exact (get?_withSession_of_ne htime hlast).symm.trans h

end Record

end GameBridge.Playtime
