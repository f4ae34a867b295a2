import GameBridge.Proofs.Playtime.Recording
import Mathlib.Logic.Relation
import GameBridge.Capacity

/-!
# The playtime that a run of sessions leaves behind

Recording a session takes three steps: the total is read and the new one worked out, the new total
is stored, and the end is stored. Sessions of different games may be recorded at the same time, in
which case their steps are interleaved in any order; sessions of one game wait for each other.

A `Ledger` is the store in the middle of such a run, together with what is under way and with the
sessions that were recorded, in the order in which their recording ended. A `Step` is one of the
three steps of a session, the end of a recording that goes no further, or a change of anything
else: of the disk, of whether the store can be written, of entries that are not about playtime.

## The invariant

`Ledger.Booked` says what the store holds about one game. Once the new total of a session is stored
it counts, whatever becomes of its end. If the end cannot be stored, or the recording is broken off
in between, the session stays `halfway`: it is part of the total, and nobody was told so.

Totals are read back as double precision values, so the sums are exact only up to `2 ^ 53`. Sums
never decrease along a run, which is why it is enough to bound the last one.
-/

namespace GameBridge.Playtime

open Relation (ReflTransGen)

/-! ## Sessions -/

/-- A session of a game. -/
structure Session where
  /-- The game. -/
  id : String
  /-- When it began. -/
  start : Time
  /-- When it ended. -/
  stop : Time
deriving DecidableEq, Repr

/-- The whole minutes of a session, none if it ended before it began. -/
def Session.minutes (s : Session) : Nat := (s.stop.toInt - s.start.toInt).toNat / 60

theorem toNat_sessionMinutes {s : Session} (h : s.minutes ≤ 2 ^ 53) :
    (sessionMinutes s.start s.stop).toNat = s.minutes := by
  have hmin : Int64.minValue.toInt = -9223372036854775808 := rfl
  have hmax : Int64.maxValue.toInt = 9223372036854775807 := rfl
  have helapsed := Time.toInt_elapsed s.stop s.start
  have hspan : (Time.elapsed s.stop s.start).toInt.toNat / 60 = s.minutes := by
    rw [Session.minutes] at h ⊢
    omega
  rw [sessionMinutes, hspan]
  exact UInt64.toNat_ofNatClamp_of_lt (lt_of_le_of_lt h (by decide))

/-- A session whose new total has been worked out. -/
structure Underway where
  /-- The session. -/
  session : Session
  /-- The new total. -/
  sum : UInt64
  /-- Whether the new total is stored. -/
  stored : Bool

/-! ## The ledger -/

/-- A store in the middle of a run. -/
structure Ledger where
  /-- The store. -/
  store : Store
  /-- The disk. -/
  disk : Disk
  /-- The session of each game that is being recorded. -/
  underway : String → Option Underway
  /-- The sessions that were recorded, in order. -/
  finished : List Session
  /-- The sessions whose total was stored and whose end was not, in order. -/
  halfway : List Session

namespace Ledger

/-- The ledger before any session. -/
def opened (store : Store) (disk : Disk) : Ledger := ⟨store, disk, fun _ ↦ none, [], []⟩

/-- The recorded sessions of a game. -/
def sessions (l : Ledger) (g : String) : List Session := l.finished.filter fun s ↦ s.id = g

/-- The sessions that count for the total of a game: the recorded ones, and those halfway. -/
def counted (l : Ledger) (g : String) : List Session :=
  (l.finished ++ l.halfway).filter fun s ↦ s.id = g

/-- The minutes of the sessions that count for the total of a game. -/
def minutes (l : Ledger) (g : String) : Nat := ((l.counted g).map Session.minutes).sum

/-- The total that a game should have: none before its first session. -/
def accrued (l : Ledger) (g : String) : Option UInt64 :=
  if l.counted g = [] then none else some (UInt64.ofNat (l.minutes g))

/-- The end of the last recorded session of a game. -/
def lastEnd (l : Ledger) (g : String) : Option Time := (l.sessions g).getLast?.map Session.stop

/-! ## Steps -/

/-- Notes what is being recorded for a game. -/
def hold (l : Ledger) (g : String) (u : Option Underway) : Ledger :=
  { l with underway := Function.update l.underway g u }

/-- Breaks off what is being recorded for a game. -/
def breakOff (l : Ledger) (g : String) : Ledger :=
  match l.underway g with
  | none => l
  | some u => { l.hold g none with
      halfway := if u.stored then l.halfway ++ [u.session] else l.halfway }

section Steps

variable [Room]

/-- Stores the new total of a session. If that fails, the session is not recorded. -/
def storeTotal (l : Ledger) (u : Underway) : Ledger :=
  match putTotal l.store l.disk u.session.id u.sum with
  | (.error _, store, disk) => { l.hold u.session.id none with store, disk }
  | (.ok (), store, disk) =>
    { l.hold u.session.id (some { u with stored := true }) with store, disk }

/-- Stores the end of a session. If that succeeds, the session is recorded. -/
def storeEnd (l : Ledger) (u : Underway) : Ledger :=
  match putEnd l.store l.disk u.session.id u.session.stop with
  | (.error _, store, disk) =>
    { l.hold u.session.id none with store, disk, halfway := l.halfway ++ [u.session] }
  | (.ok (), store, disk) =>
    { l.hold u.session.id none with store, disk, finished := l.finished ++ [u.session] }

/-- The whole recording of a session, with nothing else in between. -/
def recordWhole (l : Ledger) (s : Session) : Ledger :=
  match newTotal l.store s.id s.start s.stop with
  | .error _ => l
  | .ok sum =>
    match putTotal l.store l.disk s.id sum with
    | (.error _, store, disk) => { l with store, disk }
    | (.ok (), store, disk) =>
      match putEnd store disk s.id s.stop with
      | (.error _, store, disk) => { l with store, disk, halfway := l.halfway ++ [s] }
      | (.ok (), store, disk) => { l with store, disk, finished := l.finished ++ [s] }

/-- What can happen next. -/
inductive Step : Ledger → Ledger → Prop
  /-- The recording of a session begins, if no other one of the game is being recorded. A total
  that cannot be read ends it at once. -/
  | begin {l : Ledger} {s : Session} {sum : UInt64} (hfree : l.underway s.id = none)
      (hsum : newTotal l.store s.id s.start s.stop = .ok sum) :
      Step l (l.hold s.id (some ⟨s, sum, false⟩))
  /-- A new total is stored, or cannot be. -/
  | storeTotal {l : Ledger} {g : String} {u : Underway} (hu : l.underway g = some u)
      (hstored : u.stored = false) : Step l (l.storeTotal u)
  /-- An end is stored, or cannot be. -/
  | storeEnd {l : Ledger} {g : String} {u : Underway} (hu : l.underway g = some u)
      (hstored : u.stored = true) : Step l (l.storeEnd u)
  /-- The recordings for some games go no further: for all games, if the program stops and the
  recording starts anew over the same store. -/
  | breakOff {l : Ledger} (games : List String) : Step l (games.foldl breakOff l)
  /-- Anything else changes. -/
  | elsewhere {l : Ledger} {store : Store} {disk : Disk}
      (htime : ∀ g, store.get? (timeKey g) = l.store.get? (timeKey g))
      (hlast : ∀ g, store.get? (lastKey g) = l.store.get? (lastKey g)) :
      Step l { l with store, disk }

/-! ### What a step can come to -/

theorem storeTotal_effect (l : Ledger) (u : Underway) :
    (∃ store disk, putTotal l.store l.disk u.session.id u.sum = (.ok (), store, disk)
        ∧ l.storeTotal u
          = { l.hold u.session.id (some { u with stored := true }) with store, disk }
        ∧ store.get? (timeKey u.session.id) = some (Decimal.ofUInt64 u.sum)
        ∧ ∀ key ≠ timeKey u.session.id, store.get? key = l.store.get? key) ∨
      ∃ failure disk, putTotal l.store l.disk u.session.id u.sum = (.error failure, l.store, disk)
        ∧ l.storeTotal u = { l.hold u.session.id none with disk } := by
  obtain ⟨disk, hput⟩ | ⟨failure, disk, hput⟩ :=
    Store.put_cases l.store l.disk (timeKey u.session.id) (Decimal.ofUInt64 u.sum)
  · rw [← putTotal, ← withTotal] at hput
    exact Or.inl ⟨_, disk, hput, by simp only [storeTotal, hput], get?_withTotal_time,
      fun _ hkey ↦ get?_withTotal_of_ne hkey⟩
  · refine Or.inr ⟨failure, disk, hput, ?_⟩
    simp only [storeTotal, putTotal, hput]
    rfl

theorem storeEnd_effect (l : Ledger) (u : Underway) :
    (∃ store disk, putEnd l.store l.disk u.session.id u.session.stop = (.ok (), store, disk)
        ∧ l.storeEnd u = { l.hold u.session.id none with
          store, disk, finished := l.finished ++ [u.session] }
        ∧ store.get? (lastKey u.session.id) = some (Decimal.ofInt64 u.session.stop)
        ∧ ∀ key ≠ lastKey u.session.id, store.get? key = l.store.get? key) ∨
      ∃ failure disk, putEnd l.store l.disk u.session.id u.session.stop
          = (.error failure, l.store, disk)
        ∧ l.storeEnd u = { l.hold u.session.id none with
          disk, halfway := l.halfway ++ [u.session] } := by
  obtain ⟨disk, hput⟩ | ⟨failure, disk, hput⟩ :=
    Store.put_cases l.store l.disk (lastKey u.session.id) (Decimal.ofInt64 u.session.stop)
  · have hself := Store.get?_put_self (congrArg Prod.fst hput)
    have hother := fun key (hkey : key ≠ lastKey u.session.id) ↦ Store.get?_put_of_ne l.store l.disk
      (lastKey u.session.id) (Decimal.ofInt64 u.session.stop) hkey
    rw [hput] at hself hother
    rw [← putEnd] at hput
    exact Or.inl ⟨_, disk, hput, by simp only [storeEnd, hput], hself, hother⟩
  · refine Or.inr ⟨failure, disk, hput, ?_⟩
    simp only [storeEnd, putEnd, hput]
    rfl

/-- Recording a session without interruption is a run of steps. -/
theorem reaches_recordWhole {l : Ledger} {s : Session} (hfree : l.underway s.id = none) :
    ReflTransGen Step l (l.recordWhole s) := by
  have hidle : Function.update l.underway s.id none = l.underway := by
    rw [← hfree, Function.update_eq_self]
  rw [recordWhole]
  cases hsum : newTotal l.store s.id s.start s.stop with
  | error failure => exact ReflTransGen.refl
  | ok sum =>
    have hbegin : ReflTransGen Step l (l.hold s.id (some ⟨s, sum, false⟩)) :=
      ReflTransGen.single (Step.begin hfree hsum)
    have htotal := hbegin.tail (Step.storeTotal (Function.update_self ..) rfl)
    obtain ⟨store, disk, hput, hafter, -⟩ | ⟨failure, disk, hput, hafter⟩ :=
      storeTotal_effect (l.hold s.id (some ⟨s, sum, false⟩)) ⟨s, sum, false⟩
    · replace hput : putTotal l.store l.disk s.id sum = (.ok (), store, disk) := hput
      rw [hafter] at htotal
      simp only [hold, Function.update_idem] at htotal
      have hend := htotal.tail (Step.storeEnd (Function.update_self ..) rfl)
      obtain ⟨store', disk', hput', hafter', -⟩ | ⟨failure, disk', hput', hafter'⟩ :=
        storeEnd_effect ⟨store, disk, _, l.finished, l.halfway⟩ ⟨s, sum, true⟩
      · replace hput' : putEnd store disk s.id s.stop = (.ok (), store', disk') := hput'
        rw [hafter'] at hend
        simpa only [hput, hput', hold, Function.update_idem, hidle] using hend
      · replace hput' : putEnd store disk s.id s.stop = (.error failure, store, disk') := hput'
        rw [hafter'] at hend
        simpa only [hput, hput', hold, Function.update_idem, hidle] using hend
    · replace hput : putTotal l.store l.disk s.id sum = (.error failure, l.store, disk) := hput
      rw [hafter] at htotal
      simpa only [hput, hold, Function.update_idem, hidle] using htotal

end Steps

/-! ## Order -/

/-- Sessions are filed under their own game. -/
def Orderly (l : Ledger) : Prop := ∀ g u, l.underway g = some u → u.session.id = g

theorem orderly_opened (store : Store) (disk : Disk) : (opened store disk).Orderly :=
  fun _ _ hu ↦ absurd hu (by simp [opened])

section Hold

variable {l : Ledger} {g g' : String} {u v : Underway}

theorem underway_hold (l : Ledger) (g g' : String) (u : Option Underway) :
    (l.hold g u).underway g' = if g' = g then u else l.underway g' := Function.update_apply ..

theorem of_underway_hold_some (h : (l.hold g (some v)).underway g' = some u) :
    (g' = g ∧ u = v) ∨ (g' ≠ g ∧ l.underway g' = some u) := by
  rw [underway_hold] at h
  split at h
  · rename_i hg
    exact Or.inl ⟨hg, (Option.some.inj h).symm⟩
  · rename_i hg
    exact Or.inr ⟨hg, h⟩

theorem of_underway_hold_none (h : (l.hold g none).underway g' = some u) :
    g' ≠ g ∧ l.underway g' = some u := by
  rw [underway_hold] at h
  split at h
  · exact absurd h (by simp)
  · rename_i hg
    exact ⟨hg, h⟩

theorem Orderly.hold_none (ho : l.Orderly) : (l.hold g none).Orderly :=
  fun _ _ hu ↦ ho _ _ (of_underway_hold_none hu).2

theorem Orderly.hold_some (ho : l.Orderly) : (l.hold v.session.id (some v)).Orderly := by
  intro g' u hu
  obtain ⟨rfl, rfl⟩ | ⟨-, hu⟩ := of_underway_hold_some hu
  · rfl
  · exact ho _ _ hu

end Hold

theorem Orderly.breakOff {l : Ledger} (ho : l.Orderly) (g : String) : (l.breakOff g).Orderly := by
  rw [Ledger.breakOff]
  split
  · exact ho
  · exact ho.hold_none

theorem Orderly.step [Room] {l l' : Ledger} (ho : l.Orderly) (h : Step l l') : l'.Orderly := by
  cases h with
  | begin hfree hsum => exact ho.hold_some (v := ⟨_, _, _⟩)
  | @storeTotal g u hu hstored =>
    obtain ⟨store, disk, -, hafter, -⟩ | ⟨failure, disk, -, hafter⟩ := storeTotal_effect l u
    · rw [hafter]
      exact ho.hold_some (v := { u with stored := true })
    · rw [hafter]
      exact ho.hold_none
  | @storeEnd g u hu hstored =>
    obtain ⟨store, disk, -, hafter, -⟩ | ⟨failure, disk, -, hafter⟩ := storeEnd_effect l u
    · rw [hafter]
      exact ho.hold_none
    · rw [hafter]
      exact ho.hold_none
  | breakOff games => exact List.foldlRecOn games _ ho fun _ ho g _ ↦ ho.breakOff g
  | elsewhere htime hlast => exact ho

/-! ## What the store holds -/

/-- The total that the store has for a game: the one with the session whose end is still to be
stored, if there is such a session. -/
def onFile (l : Ledger) (g : String) : Option UInt64 :=
  match l.underway g with
  | some ⟨_, sum, true⟩ => some sum
  | _ => l.accrued g

/-- What a ledger says about a game is what its store holds. -/
structure Booked (l : Ledger) (g : String) : Prop where
  time : l.minutes g ≤ 2 ^ 53 →
    l.store.get? (timeKey g) = (l.onFile g).map Decimal.ofUInt64
  last : l.store.get? (lastKey g) = (l.lastEnd g).map Decimal.ofInt64
  sum : ∀ u, l.underway g = some u → l.minutes g + u.session.minutes ≤ 2 ^ 53 →
    u.sum = UInt64.ofNat (l.minutes g + u.session.minutes)

section OnFile

variable {l : Ledger} {g : String} {u : Underway}

theorem onFile_of_none (h : l.underway g = none) : l.onFile g = l.accrued g := by
  rw [onFile, h]

theorem onFile_of_not_stored (h : l.underway g = some u) (hstored : u.stored = false) :
    l.onFile g = l.accrued g := by
  obtain ⟨s, sum, stored⟩ := u
  subst hstored
  rw [onFile, h]

theorem onFile_of_stored (h : l.underway g = some u) (hstored : u.stored = true) :
    l.onFile g = some u.sum := by
  obtain ⟨s, sum, stored⟩ := u
  subst hstored
  rw [onFile, h]

end OnFile

theorem toNat_accrued {l : Ledger} {g : String} (h : l.minutes g ≤ 2 ^ 53) :
    ((l.accrued g).getD 0).toNat = l.minutes g := by
  rw [accrued]
  split
  · rename_i hnil
    rw [minutes, hnil]
    rfl
  · exact UInt64.toNat_ofNat_of_lt' (lt_of_le_of_lt h (by decide))

/-- The total is read back as it was added up. -/
theorem total_eq_accrued {l : Ledger} {g : String} (h : l.minutes g ≤ 2 ^ 53)
    (htime : l.store.get? (timeKey g) = (l.accrued g).map Decimal.ofUInt64) :
    total l.store g = .ok (l.accrued g) := by
  have hnat := toNat_accrued h
  cases hsum : l.accrued g with
  | none => exact total_eq_unknown_iff.mpr (htime.trans (by rw [hsum]; rfl))
  | some n =>
    rw [hsum, Option.getD_some] at hnat
    exact total_of_some (htime.trans (by rw [hsum]; rfl)) (hnat.trans_le h)

/-- The new total of a session is the exact one. -/
theorem newTotal_eq {l : Ledger} {s : Session} {sum : UInt64}
    (h : l.minutes s.id + s.minutes ≤ 2 ^ 53)
    (htime : l.store.get? (timeKey s.id) = (l.accrued s.id).map Decimal.ofUInt64)
    (hsum : newTotal l.store s.id s.start s.stop = .ok sum) :
    sum = UInt64.ofNat (l.minutes s.id + s.minutes) := by
  have hminutes : l.minutes s.id ≤ 2 ^ 53 := by omega
  have hadd : sum = addMinutes ((l.accrued s.id).getD 0) (sessionMinutes s.start s.stop) := by
    rw [newTotal, total_eq_accrued hminutes htime] at hsum
    exact (Except.ok.inj hsum).symm
  rw [hadd, addMinutes, toNat_accrued hminutes, toNat_sessionMinutes (by omega),
    UInt64.ofNatClamp_eq_ofNat _ (lt_of_le_of_lt h (by decide))]

/-! ### One more session -/

/-- One more session counts for the total of its game. -/
def Counts (l l' : Ledger) (s : Session) : Prop :=
  (l'.finished ++ l'.halfway).Perm (s :: (l.finished ++ l.halfway))

theorem Counts.counted {l l' : Ledger} {s : Session} (h : Counts l l' s) (g : String) :
    (l'.counted g).Perm (if s.id = g then s :: l.counted g else l.counted g) := by
  have hfilter := h.filter fun s ↦ decide (s.id = g)
  rw [List.filter_cons] at hfilter
  simpa [Ledger.counted] using hfilter

theorem Counts.halfway {l l' : Ledger} {s : Session} (hfinished : l'.finished = l.finished)
    (hhalfway : l'.halfway = l.halfway ++ [s]) : Counts l l' s := by
  rw [Counts, hfinished, hhalfway, ← List.append_assoc]
  exact List.perm_append_singleton ..

section Agree

variable {l l' : Ledger} {g : String}

theorem minutes_of_perm (h : (l'.counted g).Perm (l.counted g)) : l'.minutes g = l.minutes g :=
  (h.map Session.minutes).sum_nat

theorem accrued_of_perm (h : (l'.counted g).Perm (l.counted g)) : l'.accrued g = l.accrued g := by
  have hnil : l'.counted g = [] ↔ l.counted g = [] := by
    rw [← List.length_eq_zero_iff, h.length_eq, List.length_eq_zero_iff]
  rw [accrued, accrued, minutes_of_perm h]
  exact if_congr hnil rfl rfl

/-- Games that a step is not about stay booked. -/
theorem Booked.of_agree (hb : l.Booked g) (hcounted : (l'.counted g).Perm (l.counted g))
    (hsessions : l'.sessions g = l.sessions g) (hunderway : l'.underway g = l.underway g)
    (htime : l'.store.get? (timeKey g) = l.store.get? (timeKey g))
    (hlast : l'.store.get? (lastKey g) = l.store.get? (lastKey g)) : l'.Booked g := by
  have hminutes := minutes_of_perm hcounted
  have hend : l'.lastEnd g = l.lastEnd g := by rw [lastEnd, lastEnd, hsessions]
  have hfile : l'.onFile g = l.onFile g := by
    rw [onFile, onFile, hunderway, accrued_of_perm hcounted]
  refine ⟨fun h ↦ ?_, ?_, fun u hu h ↦ ?_⟩
  · rw [htime, hfile, hb.time (hminutes ▸ h)]
  · rw [hlast, hend, hb.last]
  · rw [hminutes] at h ⊢
    exact hb.sum u (hunderway ▸ hu) h

end Agree

theorem sessions_of_append {l l' : Ledger} {s : Session}
    (h : l'.finished = l.finished ++ [s]) (g : String) :
    l'.sessions g = if s.id = g then l.sessions g ++ [s] else l.sessions g := by
  rw [sessions, h, List.filter_append, ← sessions]
  split
  · rename_i hid
    rw [List.filter_cons_of_pos (by simpa using hid), List.filter_nil]
  · rename_i hid
    rw [List.filter_cons_of_neg (by simpa using hid), List.filter_nil, List.append_nil]

/-! ### The steps of a session -/

section Steps

variable [Room] {l : Ledger} {g : String} {u : Underway}

omit [Room] in
theorem Booked.begin {s : Session} {sum : UInt64} (hb : l.Booked g)
    (hfree : l.underway s.id = none) (hsum : newTotal l.store s.id s.start s.stop = .ok sum) :
    (l.hold s.id (some ⟨s, sum, false⟩)).Booked g := by
  by_cases hg : g = s.id
  · subst hg
    have htime := hb.time
    rw [onFile_of_none hfree] at htime
    refine ⟨fun h ↦ ?_, hb.last, fun u hu h ↦ ?_⟩
    · rw [onFile_of_not_stored (Function.update_self ..) rfl]
      exact htime h
    · obtain ⟨-, rfl⟩ | ⟨hne, -⟩ := of_underway_hold_some hu
      · have hle : l.minutes s.id + s.minutes ≤ 2 ^ 53 := h
        exact newTotal_eq hle (htime (by omega)) hsum
      · exact absurd rfl hne
  · exact hb.of_agree (.refl _) rfl (Function.update_of_ne hg ..) rfl rfl

omit [Room] in
/-- A session of which nothing is stored can be forgotten. -/
theorem Booked.forget (hb : l.Booked g) (hu : l.underway u.session.id = some u)
    (hstored : u.stored = false) (disk : Disk) :
    ({ l.hold u.session.id none with disk } : Ledger).Booked g := by
  by_cases hg : g = u.session.id
  · subst hg
    refine ⟨fun h ↦ ?_, hb.last, fun v hv ↦ absurd rfl (of_underway_hold_none hv).1⟩
    rw [onFile_of_none (Function.update_self ..)]
    exact (hb.time h).trans (by rw [onFile_of_not_stored hu hstored]; rfl)
  · exact hb.of_agree (.refl _) rfl (Function.update_of_ne hg ..) rfl rfl

theorem Booked.storeTotal (hb : l.Booked g) (hu : l.underway u.session.id = some u)
    (hstored : u.stored = false) : (l.storeTotal u).Booked g := by
  obtain ⟨store, disk, -, hafter, htime, hother⟩ | ⟨failure, disk, -, hafter⟩ :=
    storeTotal_effect l u
  · have hlast := hother (lastKey g) (lastKey_ne_timeKey g _)
    rw [hafter]
    by_cases hg : g = u.session.id
    · subst hg
      refine ⟨fun _ ↦ ?_, hlast.trans hb.last, fun v hv h ↦ ?_⟩
      · rw [onFile_of_stored (Function.update_self ..) rfl]
        exact htime
      · obtain ⟨-, rfl⟩ | ⟨hne, -⟩ := of_underway_hold_some hv
        · exact hb.sum u hu h
        · exact absurd rfl hne
    · exact hb.of_agree (.refl _) rfl (Function.update_of_ne hg ..)
        (hother _ fun h ↦ hg (timeKey_inj.mp h)) hlast
  · rw [hafter]
    exact hb.forget hu hstored disk

omit [Room] in
/-- **A session whose total is stored** counts from the end of its recording on, whether or not its
end is stored as well. -/
theorem Booked.close {l' : Ledger} (hb : l.Booked g) (hu : l.underway u.session.id = some u)
    (hstored : u.stored = true) (hcounts : Counts l l' u.session)
    (hunderway : l'.underway = (l.hold u.session.id none).underway)
    (htime : l'.store.get? (timeKey g) = l.store.get? (timeKey g))
    (hlast : l'.store.get? (lastKey g) = (l'.lastEnd g).map Decimal.ofInt64) : l'.Booked g := by
  have hcounted := hcounts.counted g
  by_cases hg : g = u.session.id
  · subst hg
    rw [if_pos rfl] at hcounted
    have hminutes : l'.minutes u.session.id = l.minutes u.session.id + u.session.minutes := by
      rw [minutes, (hcounted.map Session.minutes).sum_nat, List.map_cons, List.sum_cons, add_comm,
        ← minutes]
    refine ⟨fun h ↦ ?_, hlast, fun v hv ↦ absurd rfl (of_underway_hold_none (hunderway ▸ hv)).1⟩
    -- the total was stored a step ago, and now it is the one of the sessions that count
    rw [hminutes] at h
    have hsum := hb.time (by omega)
    rw [onFile_of_stored hu hstored, hb.sum u hu h] at hsum
    have hsome : l'.counted u.session.id ≠ [] := fun hnil ↦ by
      rw [hnil] at hcounted
      exact absurd hcounted.nil_eq (by simp)
    rw [onFile_of_none (by rw [hunderway]; exact Function.update_self ..), accrued, hminutes,
      if_neg hsome, htime, hsum]
  · rw [if_neg (Ne.symm hg)] at hcounted
    have hkept : l'.underway g = l.underway g := by
      rw [hunderway]
      exact Function.update_of_ne hg ..
    have hminutes := minutes_of_perm hcounted
    refine ⟨fun h ↦ ?_, hlast, fun v hv h ↦ ?_⟩
    · rw [htime, hb.time (hminutes ▸ h), onFile, onFile, hkept, accrued_of_perm hcounted]
    · rw [hminutes] at h ⊢
      exact hb.sum v (hkept ▸ hv) h

theorem Booked.storeEnd (hb : l.Booked g) (hu : l.underway u.session.id = some u)
    (hstored : u.stored = true) : (l.storeEnd u).Booked g := by
  obtain ⟨store, disk, -, hafter, hlast, hother⟩ | ⟨failure, disk, -, hafter⟩ := storeEnd_effect l u
  · have hsessions := sessions_of_append (congrArg finished hafter) g
    rw [hafter] at hsessions ⊢
    refine hb.close hu hstored ?_ rfl (hother _ (timeKey_ne_lastKey g _)) ?_
    · simp only [Counts, List.append_assoc, List.singleton_append]
      exact List.perm_middle
    · rw [lastEnd, hsessions]
      by_cases hg : u.session.id = g
      · subst hg
        rw [if_pos rfl, List.getLast?_concat]
        exact hlast
      · rw [if_neg hg]
        exact (hother _ fun h ↦ hg (lastKey_inj.mp h).symm).trans hb.last
  · rw [hafter]
    exact hb.close hu hstored (.halfway rfl rfl) rfl rfl hb.last

omit [Room] in
theorem Booked.breakOff (hb : l.Booked g) (ho : l.Orderly) (g' : String) :
    (l.breakOff g').Booked g := by
  rw [Ledger.breakOff]
  split
  · exact hb
  · rename_i u hu
    obtain rfl := ho _ _ hu
    cases hstored : u.stored with
    | false => exact hb.forget hu hstored l.disk
    | true => exact hb.close hu hstored (.halfway rfl rfl) rfl rfl hb.last

omit [Room] in
theorem booked_foldl_breakOff (ho : l.Orderly) (hb : l.Booked g) (games : List String) :
    (games.foldl Ledger.breakOff l).Orderly ∧ (games.foldl Ledger.breakOff l).Booked g := by
  refine List.foldlRecOn (motive := fun l ↦ l.Orderly ∧ l.Booked g) games Ledger.breakOff
    ⟨ho, hb⟩ fun l h g' _ ↦ ?_
  exact ⟨h.1.breakOff g', h.2.breakOff h.1 g'⟩

/-! ### Runs -/

theorem Booked.step {l' : Ledger} (hb : l.Booked g) (ho : l.Orderly) (h : Step l l') :
    l'.Booked g := by
  cases h with
  | begin hfree hsum => exact hb.begin hfree hsum
  | @storeTotal g' u hu hstored =>
    obtain rfl := ho _ _ hu
    exact hb.storeTotal hu hstored
  | @storeEnd g' u hu hstored =>
    obtain rfl := ho _ _ hu
    exact hb.storeEnd hu hstored
  | breakOff games =>
    exact (booked_foldl_breakOff ho hb games).2
  | elsewhere htime hlast => exact hb.of_agree (.refl _) rfl rfl (htime g) (hlast g)

theorem orderly_and_booked {l' : Ledger} (ho : l.Orderly) (hb : l.Booked g)
    (h : ReflTransGen Step l l') : l'.Orderly ∧ l'.Booked g := by
  induction h with
  | refl => exact ⟨ho, hb⟩
  | tail hrun hstep ih => exact ⟨ih.1.step hstep, ih.2.step ih.1 hstep⟩

end Steps

theorem booked_opened {store : Store} {disk : Disk} {g : String}
    (htime : store.get? (timeKey g) = none) (hlast : store.get? (lastKey g) = none) :
    (opened store disk).Booked g where
  time _ := htime
  last := hlast
  sum u hu := absurd hu (by simp [opened])

/-- **Accrual.** After any run of sessions of any games, begun over a store in which a game has no
playtime, and when no session of the game is under way, the total of the game is the sum of the
minutes of the sessions whose total was stored: the recorded ones, and those of which the end could
not be stored or the recording was broken off before. Its last end is the end of the last recorded
one. Before the first such session both are unknown. The sum and the ends have to stay within
`2 ^ 53`. -/
theorem accrual [Room] {store : Store} {disk : Disk} {l : Ledger} {g : String}
    (htime : store.get? (timeKey g) = none) (hlast : store.get? (lastKey g) = none)
    (hrun : ReflTransGen Step (opened store disk) l) (hidle : l.underway g = none)
    (hminutes : l.minutes g ≤ 2 ^ 53)
    (hends : ∀ s ∈ l.sessions g, s.stop.toInt.natAbs ≤ 2 ^ 53) :
    total l.store g = .ok (if l.counted g = [] then none else some (UInt64.ofNat (l.minutes g)))
      ∧ lastPlayed l.store g = .ok ((l.sessions g).getLast?.map Session.stop) := by
  obtain ⟨-, hb⟩ := orderly_and_booked (orderly_opened store disk) (booked_opened htime hlast) hrun
  have hfile := hb.time hminutes
  rw [onFile_of_none hidle] at hfile
  refine ⟨total_eq_accrued hminutes hfile, ?_⟩
  have hend := hb.last
  rw [lastEnd] at hend
  cases hsessions : (l.sessions g).getLast? with
  | none => exact lastPlayed_eq_unknown_iff.mpr (hend.trans (by rw [hsessions]; rfl))
  | some s =>
    exact lastPlayed_of_some (hend.trans (by rw [hsessions]; rfl))
      (hends s (List.mem_of_getLast? hsessions))

/-- Two sessions of a game, with one of another game in between that ended before it began. -/
def threeSessions : Ledger :=
  (((opened (.ofEntries .empty) .emptyFolder).recordWhole ⟨"7", 0, 130⟩).recordWhole
    ⟨"8", 500, 140⟩).recordWhole ⟨"7", 150, 210⟩

theorem accrual_threeSessions :
    total threeSessions.store "7" = .ok (some 3)
      ∧ lastPlayed threeSessions.store "7" = .ok (some 210) := by
  have hrun : ReflTransGen Step (opened (.ofEntries .empty) .emptyFolder) threeSessions :=
    ((reaches_recordWhole rfl).trans (reaches_recordWhole rfl)).trans (reaches_recordWhole rfl)
  have hsessions : threeSessions.sessions "7" = [⟨"7", 0, 130⟩, ⟨"7", 150, 210⟩] := rfl
  have hcounted : threeSessions.counted "7" = threeSessions.sessions "7" := rfl
  have hminutes : threeSessions.minutes "7" = 3 := rfl
  have h := accrual (g := "7") rfl rfl hrun rfl (by rw [hminutes]; decide)
    (by rw [hsessions]; decide)
  rwa [hcounted, hsessions, hminutes] at h

/-- A session of which the total was stored before the store stopped taking entries: it is not
recorded, and the game has a minute. And two sessions of one game, of which one is recorded by a
recording that was started anew while the other one was under way, and goes on: both are recorded,
and one of the minutes is lost. -/
theorem accrual_halfway :
    let store : Store := .ofEntries .empty
    let call : Session := ⟨"7", 0, 90⟩
    let called := (opened store .emptyFolder).hold "7" (some ⟨call, 1, false⟩)
    let stored := called.storeTotal ⟨call, 1, false⟩
    let ended := { stored with store := stored.store.failing true }.storeEnd ⟨call, 1, true⟩
    let first := (putTotal store .emptyFolder "7" 1).2.1
    let second := (putTotal (putEnd first .emptyFolder "7" 90).2.1 .emptyFolder "7" 1).2.1
    let last := (putEnd second .emptyFolder "7" 150).2.1
    (ReflTransGen Step (opened store .emptyFolder) ended ∧ ended.underway "7" = none
        ∧ ended.sessions "7" = [] ∧ total ended.store "7" = .ok (some 1))
      ∧ newTotal store "7" 0 90 = .ok 1 ∧ newTotal store "7" 90 150 = .ok 1
      ∧ (putEnd first .emptyFolder "7" 90).1 = .ok ()
      ∧ (putEnd second .emptyFolder "7" 150).1 = .ok () ∧ total last "7" = .ok (some 1) := by
  intro store call called stored ended first second last
  have hbegin : newTotal store "7" 0 90 = .ok 1 := by decide +kernel
  have hcalled : Step (opened store .emptyFolder) called := .begin (s := call) rfl hbegin
  have hrun : ReflTransGen Step (opened store .emptyFolder) stored :=
    (ReflTransGen.single hcalled).tail (.storeTotal (Function.update_self ..) rfl)
  have hstored : stored.store = withTotal store "7" 1 := rfl
  have hheld : stored.underway "7" = some ⟨call, 1, true⟩ :=
    (underway_hold called "7" "7" (some ⟨call, 1, true⟩)).trans (if_pos rfl)
  have hended : ReflTransGen Step (opened store .emptyFolder) ended := by
    refine (hrun.tail (.elsewhere (fun g ↦ ?_) fun g ↦ ?_)).tail (.storeEnd (g := "7") hheld rfl)
    · rw [hstored]
      rfl
    · rw [hstored]
      rfl
  exact ⟨⟨hended, by decide +kernel⟩, hbegin, by decide +kernel⟩

end Ledger

end GameBridge.Playtime
