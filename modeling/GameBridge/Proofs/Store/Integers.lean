import GameBridge.Playtime
import GameBridge.Proofs.Number.Nearest
import GameBridge.Schedule

/-!
# Stored integers and their readers

What the bridge stores are decimal texts of 64-bit integers. Three readers take them up again: two
for the minutes and the end of a game's sessions, and one for the last check of a task. All three
take off the white space around the text and read a double precision value, which they cut.

So what comes back of an integer is the double precision value nearest to it, held within 64 bits.
That is `Decimal.rereadInt64` for the times and `Decimal.rereadUInt64` for the minutes
(`exists_isNearest_rereadInt64`, `exists_isNearest_rereadUInt64`), and it keeps the order. The two
readers of times differ only in what they do with a text that is no number: the one reports it, the
other passes over it.
-/

namespace GameBridge

/-! ## White space around a text -/

namespace Text

/-- The texts that are a given one with white space around it. -/
inductive Padded (core : String) : String → Prop
  | mk {front back : List Char} (hfront : ∀ c ∈ front, isBlank c = true)
      (hback : ∀ c ∈ back, isBlank c = true) :
      Padded core (String.ofList (front ++ core.toList ++ back))

private theorem dropWhile_isBlank_append {front cs rest : List Char}
    (hfront : ∀ c ∈ front, isBlank c = true) (hcs : ∀ c ∈ cs, isBlank c = false) (hne : cs ≠ []) :
    (front ++ (cs ++ rest)).dropWhile isBlank = cs ++ rest := by
  rw [List.dropWhile_append_of_pos hfront]
  cases cs with
  | nil => exact absurd rfl hne
  | cons c cs =>
    rw [List.cons_append, List.dropWhile_cons_of_neg (by simp [hcs c List.mem_cons_self])]

theorem trimChars_of_padded {core raw : String} (h : Padded core raw)
    (hcore : ∀ c ∈ core.toList, isBlank c = false) (hne : core.toList ≠ []) :
    trimChars raw.toList = core.toList := by
  cases h with
  | @mk front back hfront hback =>
    -- what is left after the front begins, read backwards, with the back
    have hreverse : (back.reverse ++ (core.toList.reverse ++ [])).dropWhile isBlank
        = core.toList.reverse ++ [] :=
      dropWhile_isBlank_append (fun c hc ↦ hback c (List.mem_reverse.mp hc))
        (fun c hc ↦ hcore c (List.mem_reverse.mp hc)) (List.reverse_ne_nil_iff.mpr hne)
    rw [List.append_nil] at hreverse
    rw [String.toList_ofList, trimChars, List.append_assoc,
      dropWhile_isBlank_append hfront hcore hne, List.reverse_append, hreverse,
      List.reverse_reverse]

end Text

theorem readFinite?_of_padded {i : Int} {raw : String} (h : Text.Padded (Decimal.text i) raw) :
    readFinite? raw = readFinite? (Decimal.text i) := by
  have hcore : ∀ c ∈ (Decimal.text i).toList, Text.isBlank c = false := by
    rw [Decimal.toList_text]
    exact fun c hc ↦ Decimal.isBlank_of_mem_intChars hc
  have hne : (Decimal.text i).toList ≠ [] := by
    rw [Decimal.toList_text]
    cases i with
    | ofNat n => exact Decimal.natChars_ne_nil n
    | negSucc n => exact List.cons_ne_nil _ _
  rw [readFinite?, readFinite?, Text.trimChars_of_padded h hcore hne, Text.trimChars_eq_self hcore]

/-! ## What comes back of an integer -/

namespace Decimal

/-- **Times** come back as the nearest double precision value, held within 64 bits. -/
theorem exists_isNearest_rereadInt64 (n : Int64) :
    ∃ x : Binary64, x.IsNearest n.toInt
      ∧ rereadInt64 n = Int64.ofIntClamp (Binary64.truncate x.toRat) := by
  obtain ⟨x, hx, hvalue⟩ := Option.map_eq_some_iff.mp (toInt64_readFinite? n)
  rw [ofInt64, readFinite?_text] at hx
  exact ⟨x, Binary64.isNearest_ofInt? hx, hvalue.symm.trans x.toInt64_eq⟩

/-- **Counts** come back as the nearest double precision value, held within 64 bits. -/
theorem exists_isNearest_rereadUInt64 (n : UInt64) :
    ∃ x : Binary64, x.IsNearest n.toNat
      ∧ rereadUInt64 n = UInt64.ofNatClamp (Binary64.truncate x.toRat).toNat := by
  obtain ⟨x, hx, hvalue⟩ := Option.map_eq_some_iff.mp (toUInt64_readFinite? n)
  rw [ofUInt64, readFinite?_text] at hx
  exact ⟨x, Binary64.isNearest_ofInt? hx, hvalue.symm.trans x.toUInt64_eq⟩

theorem toInt_ofIntClamp (i : Int) : (Int64.ofIntClamp i).toInt
    = max Int64.minValue.toInt (min i Int64.maxValue.toInt) := by
  have hlimits : Int64.minValue.toInt ≤ Int64.maxValue.toInt := by decide
  rw [Int64.ofIntClamp]
  split_ifs with hlow hhigh
  · rw [Int64.toInt_ofIntLE, min_eq_left hhigh, max_eq_right hlow]
  · rw [min_eq_right (not_le.mp hhigh).le, max_eq_right hlimits]
  · rw [max_eq_left ((min_le_left _ _).trans (not_le.mp hlow).le)]

theorem sign_mul_rounded_mono {i j : Int} (h : i ≤ j) :
    i.sign * Binary64.rounded i.natAbs ≤ j.sign * Binary64.rounded j.natAbs := by
  rcases le_or_gt 0 i with hi | hi
  · have hrounded := Binary64.rounded_mono (by omega : i.natAbs ≤ j.natAbs)
    rcases hi.eq_or_lt with rfl | hi
    · rw [Int.sign_zero, Int.zero_mul]
      exact Int.mul_nonneg (Int.sign_nonneg_iff.mpr h) (Int.natCast_nonneg _)
    · rw [Int.sign_eq_one_of_pos hi, Int.sign_eq_one_of_pos (hi.trans_le h)]
      omega
  · rw [Int.sign_eq_neg_one_of_neg hi]
    rcases le_or_gt 0 j with hj | hj
    · have hnonneg : 0 ≤ j.sign * (Binary64.rounded j.natAbs : Int) :=
        Int.mul_nonneg (Int.sign_nonneg_iff.mpr hj) (Int.natCast_nonneg _)
      omega
    · have hrounded := Binary64.rounded_mono (by omega : j.natAbs ≤ i.natAbs)
      rw [Int.sign_eq_neg_one_of_neg hj]
      omega

theorem rereadInt64_mono {m n : Int64} (h : m ≤ n) : rereadInt64 m ≤ rereadInt64 n := by
  have hrounded := sign_mul_rounded_mono (Int64.le_iff_toInt_le.mp h)
  rw [Int64.le_iff_toInt_le, rereadInt64, rereadInt64, toInt_ofIntClamp, toInt_ofIntClamp]
  exact max_le_max_left _ (min_le_min_right _ hrounded)

end Decimal

/-! ## The readers -/

/-- A stored text is a time for the readers of times, and the same one for both. -/
structure ReadsTime (raw : String) (time : Time) : Prop where
  lastPlayed : ∀ (store : Store) (id : String), store.get? (Playtime.lastKey id) = some raw →
    Playtime.lastPlayed store id = .ok (some time)
  storedCheck : ∀ (store : Store) (task : Task), store.get? task.key = some raw →
    Schedule.storedCheck store task = some time

/-- A stored text is no time for either of the readers of times. -/
structure NotTime (raw : String) : Prop where
  lastPlayed : ∀ (store : Store) (id : String), store.get? (Playtime.lastKey id) = some raw →
    ∃ complaint, Playtime.lastPlayed store id = .error (.malformedRecord id complaint)
  storedCheck : ∀ (store : Store) (task : Task), store.get? task.key = some raw →
    Schedule.storedCheck store task = none

/-- A stored text is a count of minutes. -/
def ReadsMinutes (raw : String) (minutes : UInt64) : Prop :=
  ∀ (store : Store) (id : String), store.get? (Playtime.timeKey id) = some raw →
    Playtime.total store id = .ok (some minutes)

theorem readsTime_of_readFinite? {raw : String} {x : Binary64} (h : readFinite? raw = some x) :
    ReadsTime raw x.toInt64 := by
  constructor
  · intro store id hraw
    simp only [Playtime.lastPlayed, Playtime.number, hraw, h]
    rfl
  · intro store task hraw
    rw [Schedule.storedCheck, hraw, Option.bind_some, h, Option.map_some]

theorem notTime_of_readFinite? {raw : String} (h : readFinite? raw = none) : NotTime raw := by
  constructor
  · intro store id hraw
    simp only [Playtime.lastPlayed, Playtime.number, hraw, h]
    exact ⟨_, rfl⟩
  · intro store task hraw
    rw [Schedule.storedCheck, hraw, Option.bind_some, h, Option.map_none]

/-- **Agreement.** What one of the readers of times takes from a text, the other one takes too. -/
theorem readsTime_or_notTime (raw : String) : (∃ time, ReadsTime raw time) ∨ NotTime raw := by
  cases h : readFinite? raw with
  | none => exact Or.inr (notTime_of_readFinite? h)
  | some x => exact Or.inl ⟨_, readsTime_of_readFinite? h⟩

theorem readsMinutes_of_readFinite? {raw : String} {x : Binary64} (h : readFinite? raw = some x) :
    ReadsMinutes raw x.toUInt64 := by
  intro store id hraw
  simp only [Playtime.total, Playtime.number, hraw, h]
  rfl

theorem readsTime_of_padded {n : Int64} {raw : String} (h : Text.Padded (Decimal.ofInt64 n) raw) :
    ReadsTime raw (Decimal.rereadInt64 n) := by
  obtain ⟨x, hx, hvalue⟩ := Option.map_eq_some_iff.mp (Decimal.toInt64_readFinite? n)
  rw [← hvalue]
  exact readsTime_of_readFinite? ((readFinite?_of_padded h).trans hx)

theorem readsMinutes_of_padded {n : UInt64} {raw : String}
    (h : Text.Padded (Decimal.ofUInt64 n) raw) : ReadsMinutes raw (Decimal.rereadUInt64 n) := by
  obtain ⟨x, hx, hvalue⟩ := Option.map_eq_some_iff.mp (Decimal.toUInt64_readFinite? n)
  rw [← hvalue]
  exact readsMinutes_of_readFinite? ((readFinite?_of_padded h).trans hx)

/-- **Stored integers.** The readers take a stored integer for the double precision value nearest to
it, held within 64 bits, whatever white space stands around its text. So an integer of a magnitude
up to `2 ^ 53` is read as it is, and a greater one never as less. On every other text the two
readers of times agree too, be it a time or not. -/
theorem stored_integers :
    (∀ n raw, Text.Padded (Decimal.ofInt64 n) raw → ReadsTime raw (Decimal.rereadInt64 n))
      ∧ (∀ n raw, Text.Padded (Decimal.ofUInt64 n) raw →
          ReadsMinutes raw (Decimal.rereadUInt64 n))
      ∧ (∀ n : Int64, ∃ x : Binary64, x.IsNearest n.toInt
          ∧ Decimal.rereadInt64 n = Int64.ofIntClamp (Binary64.truncate x.toRat))
      ∧ (∀ n : UInt64, ∃ x : Binary64, x.IsNearest n.toNat
          ∧ Decimal.rereadUInt64 n = UInt64.ofNatClamp (Binary64.truncate x.toRat).toNat)
      ∧ (∀ n : Int64, n.toInt.natAbs ≤ 2 ^ 53 → Decimal.rereadInt64 n = n)
      ∧ (∀ n : UInt64, n.toNat ≤ 2 ^ 53 → Decimal.rereadUInt64 n = n)
      ∧ (∀ m n : Int64, m ≤ n → Decimal.rereadInt64 m ≤ Decimal.rereadInt64 n)
      ∧ (∀ m n : UInt64, m ≤ n → Decimal.rereadUInt64 m ≤ Decimal.rereadUInt64 n)
      ∧ ∀ raw, (∃ time, ReadsTime raw time) ∨ NotTime raw := by
  refine ⟨fun n raw ↦ readsTime_of_padded, fun n raw ↦ readsMinutes_of_padded,
    Decimal.exists_isNearest_rereadInt64, Decimal.exists_isNearest_rereadUInt64,
    fun n ↦ Decimal.rereadInt64_of_le, fun n ↦ Decimal.rereadUInt64_of_le,
    fun m n ↦ Decimal.rereadInt64_mono, fun m n ↦ Decimal.rereadUInt64_mono, readsTime_or_notTime⟩

/-- The time `-2 ^ 53 - 1` lies midway between two values and is read as the even one. The greatest
count is rounded up, and then held within 64 bits. -/
theorem stored_integers_lossy :
    ReadsTime "\u00a0-9007199254740993\n" (-9007199254740992)
      ∧ ReadsMinutes "18446744073709551615" 18446744073709551615
      ∧ Decimal.rereadInt64 9007199254740992 = 9007199254740992
      ∧ Decimal.rereadInt64 (-9007199254740993) ≤ Decimal.rereadInt64 (-9007199254740992) := by
  obtain ⟨htimes, hcounts, -, -, hexact, -, horder, -⟩ := stored_integers
  refine ⟨?_, ?_, hexact _ (by decide), horder _ _ (by decide)⟩
  · have hpadded : Text.Padded (Decimal.ofInt64 (-9007199254740993)) "\u00a0-9007199254740993\n" :=
      Text.Padded.mk (List.forall_mem_singleton.mpr (by decide : Text.isBlank '\u00a0' = true))
        (List.forall_mem_singleton.mpr (by decide : Text.isBlank '\n' = true))
    exact htimes (-9007199254740993) _ hpadded
  · have hpadded : Text.Padded (Decimal.ofUInt64 18446744073709551615) "18446744073709551615" :=
      Text.Padded.mk (List.forall_mem_nil _) (List.forall_mem_nil _)
    exact hcounts 18446744073709551615 _ hpadded

end GameBridge
