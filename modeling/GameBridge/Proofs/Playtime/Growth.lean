import GameBridge.Proofs.Playtime.Accrual

/-!
# Playtime never shrinks

Beyond `2 ^ 53` minutes a total is rounded when it is read back, up or down. The sum that is stored
for a session is therefore not always what is read next, and sessions can be lost. But no total that
was ever read is lost: what is read is a double precision value, the sum that is stored is not below
it, and rounding does not go below such a value.

So the readings of a game along any run are in order, as long as the first one is a number at all.
There is no bound on the totals or on the times of the sessions, and at the greatest total that
there is the readings stay.

## The invariant

While a session is under way, its sum was worked out from an earlier reading. It still counts
because no other session of the game is recorded in the meantime: `Ledger.Ahead` says that the sum
is not below what would be read now.
-/

namespace GameBridge.Playtime

open Relation (ReflTransGen)

/-! ## One total and the next -/

/-- A total is known if another one is, and is not below it. -/
def Reaches (later earlier : Option UInt64) : Prop := ∀ n ∈ earlier, ∃ m ∈ later, n ≤ m

theorem reaches_refl (known : Option UInt64) : Reaches known known :=
  fun n hn ↦ ⟨n, hn, UInt64.le_refl n⟩

theorem Reaches.trans {a b c : Option UInt64} (h : Reaches b a) (h' : Reaches c b) :
    Reaches c a := by
  intro n hn
  obtain ⟨m, hm, hnm⟩ := h n hn
  obtain ⟨k, hk, hmk⟩ := h' m hm
  exact ⟨k, hk, UInt64.le_trans hnm hmk⟩

theorem Reaches.getD_le {later earlier : Option UInt64} (h : Reaches later earlier) :
    earlier.getD 0 ≤ later.getD 0 := by
  rcases earlier with _ | n
  · exact UInt64.zero_le
  · obtain ⟨m, rfl, hnm⟩ := h n rfl
    exact hnm

theorem reaches_some {known : Option UInt64} {m : UInt64} (h : known.getD 0 ≤ m) :
    Reaches (some m) known := by
  rintro n rfl
  exact ⟨m, rfl, h⟩

/-- What is known of a game depends on one entry. -/
theorem total_congr {store other : Store} {id : String}
    (h : store.get? (timeKey id) = other.get? (timeKey id)) : total store id = total other id := by
  rw [total, total, number, number, h]

theorem exists_total_iff {store : Store} {id : String} :
    (∃ known, total store id = .ok known)
      ↔ ∀ text ∈ store.get? (timeKey id), (readFinite? text).isSome = true := by
  rw [total, number]
  rcases store.get? (timeKey id) with _ | text
  · simp [Except.map]
  · rcases hread : readFinite? text with _ | x
    · simp [Except.map, hread]
    · simp [Except.map, hread]

theorem rereadUInt64_of_total {store : Store} {id : String} {n : UInt64}
    (h : total store id = .ok (some n)) : Decimal.rereadUInt64 n = n := by
  rw [total, number] at h
  split at h
  · exact absurd h (by simp [Except.map])
  · split at h
    · rename_i x hread
      rw [← Option.some.inj (Except.ok.inj h)]
      exact Decimal.rereadUInt64_toUInt64 (mantissa_of_readFinite? hread)
    · exact absurd h (by simp [Except.map])

/-- **Kept through rounding.** A sum that is not below a total that was read is not read back below
it either. -/
theorem le_rereadUInt64 {store : Store} {id : String} {known : Option UInt64} {sum : UInt64}
    (h : total store id = .ok known) (hsum : known.getD 0 ≤ sum) :
    known.getD 0 ≤ Decimal.rereadUInt64 sum := by
  rcases known with _ | n
  · exact UInt64.zero_le
  · calc n = Decimal.rereadUInt64 n := (rereadUInt64_of_total h).symm
      _ ≤ Decimal.rereadUInt64 sum := Decimal.rereadUInt64_mono hsum

namespace Ledger

/-! ## Steps -/

/-- The total of a game is known, and a session that is under way does not go below it. -/
structure Ahead (l : Ledger) (g : String) (known : Option UInt64) : Prop where
  total : total l.store g = .ok known
  sum : ∀ u, l.underway g = some u → u.stored = false → known.getD 0 ≤ u.sum

theorem Ahead.breakOff {l : Ledger} {g : String} {known : Option UInt64} (h : l.Ahead g known)
    (g' : String) : (l.breakOff g').Ahead g known := by
  rw [Ledger.breakOff]
  split
  · exact h
  · exact ⟨h.total, fun v hv ↦ h.sum v (of_underway_hold_none hv).2⟩

/-- Nothing of a session of this game is changed. -/
theorem Ahead.of_agree {l l' : Ledger} {g : String} {known : Option UInt64} (h : l.Ahead g known)
    (htime : l'.store.get? (timeKey g) = l.store.get? (timeKey g))
    (hunderway : ∀ u, l'.underway g = some u → u.stored = false → l.underway g = some u) :
    l'.Ahead g known where
  total := (total_congr htime).trans h.total
  sum u hu hstored := h.sum u (hunderway u hu hstored) hstored

theorem Ahead.begin {l : Ledger} {g : String} {known : Option UInt64} {s : Session} {sum : UInt64}
    (h : l.Ahead g known) (hsum : newTotal l.store s.id s.start s.stop = .ok sum) :
    (l.hold s.id (some ⟨s, sum, false⟩)).Ahead g known where
  total := h.total
  sum := by
    intro u hu hstored
    obtain ⟨rfl, rfl⟩ | ⟨-, hu⟩ := of_underway_hold_some hu
    · exact le_newTotal h.total hsum
    · exact h.sum u hu hstored

section Steps

variable [Room]

theorem Ahead.storeTotal {l : Ledger} {g : String} {known : Option UInt64} {u : Underway}
    (h : l.Ahead g known) (hu : l.underway u.session.id = some u) (hstored : u.stored = false) :
    ∃ next, (l.storeTotal u).Ahead g next ∧ Reaches next known := by
  obtain ⟨store, disk, -, hafter, htime, hother⟩ | ⟨failure, disk, -, hafter⟩ :=
    storeTotal_effect l u
  · by_cases hg : g = u.session.id
    · subst hg
      rw [hafter]
      refine ⟨some (Decimal.rereadUInt64 u.sum), ⟨total_of_stored htime, fun v hv hfree ↦ ?_⟩,
        reaches_some (le_rereadUInt64 h.total (h.sum u hu hstored))⟩
      -- what is under way now is the same session, and its total is stored
      obtain ⟨-, rfl⟩ | ⟨hne, -⟩ := of_underway_hold_some hv
      · exact absurd hfree (by simp)
      · exact absurd rfl hne
    · refine ⟨known, h.of_agree ?_ fun v hv _ ↦ ?_, reaches_refl known⟩
      · rw [hafter]
        exact hother _ fun hkey ↦ hg (timeKey_inj.mp hkey)
      · rw [hafter] at hv
        obtain ⟨rfl, -⟩ | ⟨-, hv⟩ := of_underway_hold_some hv
        · exact absurd rfl hg
        · exact hv
  · refine ⟨known, h.of_agree ?_ fun v hv _ ↦ ?_, reaches_refl known⟩
    · rw [hafter]
      rfl
    · rw [hafter] at hv
      exact (of_underway_hold_none hv).2

theorem Ahead.storeEnd {l : Ledger} {g : String} {known : Option UInt64} (h : l.Ahead g known)
    (u : Underway) : (l.storeEnd u).Ahead g known := by
  obtain ⟨store, disk, -, hafter, -, hother⟩ | ⟨failure, disk, -, hafter⟩ := storeEnd_effect l u
  · rw [hafter]
    exact h.of_agree (hother _ (timeKey_ne_lastKey g _)) fun v hv _ ↦ (of_underway_hold_none hv).2
  · rw [hafter]
    exact h.of_agree rfl fun v hv _ ↦ (of_underway_hold_none hv).2

/-- After every step the total is known, and it is not below the one before. -/
theorem Ahead.step {l l' : Ledger} {g : String} {known : Option UInt64} (h : l.Ahead g known)
    (ho : l.Orderly) (hstep : Step l l') : ∃ next, l'.Ahead g next ∧ Reaches next known := by
  rcases hstep with @⟨s, sum, -, hsum⟩ | @⟨g', u, hu, hstored⟩ | @⟨g', u, hu, hstored⟩ | ⟨games⟩ |
    @⟨store, disk, htime, -⟩
  · exact ⟨known, h.begin hsum, reaches_refl known⟩
  · obtain rfl := ho _ _ hu
    exact h.storeTotal hu hstored
  · exact ⟨known, h.storeEnd u, reaches_refl known⟩
  · refine ⟨known, ?_, reaches_refl known⟩
    exact List.foldlRecOn (motive := fun l ↦ l.Ahead g known) games Ledger.breakOff h
      fun _ h g' _ ↦ h.breakOff g'
  · exact ⟨known, h.of_agree (htime g) fun u hu _ ↦ hu, reaches_refl known⟩

/-! ## Runs -/

theorem Ahead.run {l l' : Ledger} {g : String} {known : Option UInt64} (h : l.Ahead g known)
    (ho : l.Orderly) (hrun : ReflTransGen Step l l') :
    l'.Orderly ∧ ∃ next, l'.Ahead g next ∧ Reaches next known := by
  induction hrun with
  | refl => exact ⟨ho, known, h, reaches_refl known⟩
  | tail _ hstep ih =>
    obtain ⟨ho', middle, hmiddle, hreaches⟩ := ih
    obtain ⟨next, hnext, hreaches'⟩ := hmiddle.step ho' hstep
    exact ⟨ho'.step hstep, next, hnext, hreaches.trans hreaches'⟩

/-- **Growth.** Over a store in which the total of a game is missing or any number, take any run of
sessions of any games, and any two points of it. At both the total of the game is read; if it is
known at the earlier one it is known at the later one, and not below it. A session that is recorded
at the later point, or is under way there and has its total still to be stored, answers with a total
that is not below the one read at the earlier point. -/
theorem total_run {store : Store} {disk : Disk} {l l' : Ledger} {g : String}
    (hreadable : ∀ text ∈ store.get? (timeKey g), (readFinite? text).isSome = true)
    (hrun : ReflTransGen Step (opened store disk) l) (hrun' : ReflTransGen Step l l') :
    ∃ earlier later, total l.store g = .ok earlier ∧ total l'.store g = .ok later
      ∧ (∀ n ∈ earlier, ∃ m ∈ later, n ≤ m)
      ∧ (∀ start stop sum, (record l'.store l'.disk g start stop).1 = .ok sum →
        earlier.getD 0 ≤ sum)
      ∧ ∀ u, l'.underway g = some u → u.stored = false → earlier.getD 0 ≤ u.sum := by
  obtain ⟨known, hknown⟩ := exists_total_iff.mpr hreadable
  have hopened : (opened store disk).Ahead g known :=
    ⟨hknown, fun u hu ↦ absurd hu (by simp [opened])⟩
  obtain ⟨horderly, earlier, hearlier, -⟩ := hopened.run (orderly_opened store disk) hrun
  obtain ⟨-, later, hlater, hreaches⟩ := hearlier.run horderly hrun'
  refine ⟨earlier, later, hearlier.total, hlater.total, hreaches, fun start stop sum hsum ↦ ?_,
    fun u hu hstored ↦ UInt64.le_trans hreaches.getD_le (hlater.sum u hu hstored)⟩
  refine UInt64.le_trans hreaches.getD_le ?_
  obtain ⟨found, after, last, hfound, hrecord, -⟩ | ⟨failure, after, last, hrecord⟩ :=
    record_cases l'.store l'.disk g start stop
  · rw [hrecord] at hsum
    obtain rfl := Except.ok.inj hsum
    exact le_newTotal hlater.total hfound
  · rw [hrecord] at hsum
    exact absurd hsum (by simp)

end Steps

/-- A total with an exponent and blanks around it, so large that every single minute is lost. -/
def lossy : Ledger :=
  opened (.ofEntries (.ofList [("time7", " 1.8014398509481984e16 ")])) .emptyFolder

/-- A session of a minute, one that ended before it began, and one of three minutes. -/
theorem total_run_lossy :
    let first := lossy.recordWhole ⟨"7", 0, 60⟩
    let second := first.recordWhole ⟨"7", 500, 140⟩
    total first.store "7" = .ok (some 18014398509481984)
      ∧ total second.store "7" = .ok (some 18014398509481984)
      ∧ (record second.store second.disk "7" 0 180).1 = .ok 18014398509481987
      ∧ (18014398509481984 : UInt64) ≤ 18014398509481987 := by
  intro first second
  have hfirst : total first.store "7" = .ok (some 18014398509481984) := by decide +kernel
  have hsum : (record second.store second.disk "7" 0 180).1 = .ok 18014398509481987 := by
    decide +kernel
  have hreadable : ∀ text ∈ lossy.store.get? (timeKey "7"), (readFinite? text).isSome = true := by
    decide +kernel
  obtain ⟨earlier, later, hearlier, hlater, -, hanswer, -⟩ :=
    total_run hreadable (reaches_recordWhole rfl : ReflTransGen Step lossy first)
      (reaches_recordWhole rfl : ReflTransGen Step first second)
  obtain rfl := Except.ok.inj (hfirst.symm.trans hearlier)
  exact ⟨hfirst, by decide +kernel, hsum, hanswer 0 180 _ hsum⟩

end Ledger

end GameBridge.Playtime
