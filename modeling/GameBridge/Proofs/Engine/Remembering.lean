import GameBridge.Proofs.Engine.Launching

/-!
# What is remembered of a launch

A launch answers with the total and the end of the session that it has just stored. Both are stored
as decimal texts and read back as double precision values. So what is said about the game from then
on, and what the next launch adds its minutes to, are the stored integers rounded to 53 bits.

For totals and ends up to `2 ^ 53` this makes no difference, and beyond that only for some: a launch
may answer with a minute that is forgotten at once.
-/

namespace GameBridge

open Playtime (timeKey lastKey)

namespace Engine

/-- **A launch that succeeds** answers with what it stored: the total that was there before with the
minutes of the session, and the time at which the game ended. -/
theorem launch_eq_ok [Room] {engine after : Engine} {raw : String} {answer : GameTime}
    (h : engine.launch raw = (.ok answer, after)) :
    ∃ sum stop, answer = ⟨GameId.canonical raw, some sum, some stop⟩
      ∧ stop = engine.world.now.advance engine.world.launcher.session
      ∧ Playtime.newTotal engine.store (GameId.canonical raw) engine.world.now stop = .ok sum
      ∧ after.store.get? (timeKey (GameId.canonical raw)) = some (Decimal.ofUInt64 sum)
      ∧ after.store.get? (lastKey (GameId.canonical raw)) = some (Decimal.ofInt64 stop) := by
  obtain ⟨installed, fetches, hframe⟩ := engine.executableFor_frame (GameId.canonical raw)
  rw [launch] at h
  rcases hfind : engine.executableFor (GameId.canonical raw) with ⟨fault | executable, found⟩
  · rw [hfind] at h
    exact absurd (Prod.mk.inj h).1 (by simp)
  rw [hfind] at h hframe
  obtain rfl := hframe
  cases hfault : engine.world.launcher.runFault with
  | some cause =>
    simp only [World.run, hfault] at h
    exact absurd (Prod.mk.inj h).1 (by simp)
  | none =>
    simp only [World.run, hfault, recordSession] at h
    obtain ⟨sum, store, disk, hsum, hrecord, htime, hlast⟩ | ⟨failure, store, disk, hrecord⟩ :=
      Playtime.record_cases engine.store engine.world.disk (GameId.canonical raw) engine.world.now
        (engine.world.now.advance engine.world.launcher.session)
    · rw [hrecord] at h
      obtain ⟨hanswer, rfl⟩ := Prod.mk.inj h
      exact ⟨sum, _, (Except.ok.inj hanswer).symm, rfl, hsum, htime, hlast⟩
    · rw [hrecord] at h
      exact absurd (Prod.mk.inj h).1 (by simp [Except.map, Except.mapError])

/-- **Recalling a launch.** After a launch the game is known for its answer just if the total and
the end have at most 53 significant bits each, or are the greatest ones. Always, what is known are
the total and the end as they are read back; and that is the total to which the next launch of the
game adds its minutes, whatever else happens in between that is no session of the game. -/
theorem launch_recalled [Room] {engine after : Engine} {raw : String} {answer : GameTime}
    (h : engine.launch raw = (.ok answer, after)) :
    ∃ sum stop, answer = ⟨GameId.canonical raw, some sum, some stop⟩
      ∧ (∀ again, GameId.canonical again = GameId.canonical raw →
        after.gameTime again = .ok ⟨GameId.canonical raw, some (Decimal.rereadUInt64 sum),
            some (Decimal.rereadInt64 stop)⟩
          ∧ (after.gameTime again = .ok answer ↔
            (Binary64.Holds sum.toNat ∨ sum.toNat = UInt64.size - 1)
              ∧ (Binary64.Holds stop.toInt.natAbs ∨ stop = Int64.maxValue)))
      ∧ (Decimal.rereadUInt64 sum = sum ↔ Binary64.Holds sum.toNat ∨ sum.toNat = UInt64.size - 1)
      ∧ (engine.store.Roomy → ∀ events, after.brokenOff events = [])
      ∧ ∀ events again next last, GameId.canonical raw ∉ after.played events →
        GameId.canonical raw ∉ after.brokenOff events →
        GameId.canonical again = GameId.canonical raw →
        (after.run events).launch again = (.ok next, last) →
          ∃ stop', next.lastPlayed = some stop' ∧ next.minutes = some (Playtime.addMinutes
            (Decimal.rereadUInt64 sum)
            (Playtime.sessionMinutes (after.run events).world.now stop')) := by
  obtain ⟨sum, stop, rfl, -, -, htime, hlast⟩ := launch_eq_ok h
  have hroomy : engine.store.Roomy → after.store.Roomy := fun hroom ↦ by
    have hafter := roomy_launch hroom raw
    rwa [h] at hafter
  refine ⟨sum, stop, rfl, fun again hagain ↦ ?_, Decimal.rereadUInt64_eq_self_iff,
    fun hroom ↦ brokenOff_of_roomy (hroomy hroom),
    fun events again next last hplayed hbroken hagain hnext ↦ ?_⟩
  · have hknown : after.gameTime again = .ok ⟨GameId.canonical raw,
        some (Decimal.rereadUInt64 sum), some (Decimal.rereadInt64 stop)⟩ := by
      rw [gameTime, hagain, Playtime.total_of_stored htime, Playtime.lastPlayed_of_stored hlast]
      rfl
    refine ⟨hknown, ?_⟩
    rw [hknown, ← Decimal.rereadUInt64_eq_self_iff, ← Decimal.rereadInt64_eq_self_iff]
    simp
  · obtain ⟨sum', stop', rfl, -, hsum, -, -⟩ := launch_eq_ok hnext
    have hkept : (after.run events).store.get? (timeKey (GameId.canonical raw))
        = some (Decimal.ofUInt64 sum) := by
      rw [get?_run (Playtime.timeKey_ne_key _) (fun id hid ↦ ⟨fun heq ↦ ?_, ?_⟩)
        fun id hid heq ↦ ?_, htime]
      · exact hplayed (Playtime.timeKey_inj.mp heq ▸ hid)
      · exact Playtime.timeKey_ne_lastKey _ _
      · exact hbroken (Playtime.timeKey_inj.mp heq ▸ hid)
    rw [hagain, Playtime.newTotal, Playtime.total_of_stored hkept] at hsum
    exact ⟨stop', rfl, congrArg some (Except.ok.inj hsum).symm⟩

/-- A new engine over a store with a total of the game 7, which can be launched. -/
def playedFor (minutes : String) : Engine :=
  start .default (.ofEntries (.ofList [("time7", minutes)])) (installedWith [verdictWith "a"]).world

/-- A total with a fraction is cut. What the launch makes of it is remembered, also over a tick. -/
theorem launch_recalled_fraction :
    let launched := (playedFor " 12.5 ").launch "7"
    let later := launched.2.run [.tick, .setClock 5000]
    launched.1 = .ok ⟨"7", some 13, some 1000090⟩
      ∧ launched.2.gameTime "007" = .ok ⟨"7", some 13, some 1000090⟩
      ∧ (later.launch "7").1 = .ok ⟨"7", some 14, some 5090⟩
      ∧ 14 = Playtime.addMinutes 13 (Playtime.sessionMinutes later.world.now 5090) := by
  intro launched later
  have hanswer : launched.1 = .ok ⟨"7", some 13, some 1000090⟩ := by decide +kernel
  have hlater : (later.launch "7").1 = .ok ⟨"7", some 14, some 5090⟩ := by decide +kernel
  have hcanonical : GameId.canonical "007" = GameId.canonical "7" := by decide +kernel
  have hplayed : GameId.canonical "7" ∉ launched.2.played [.tick, .setClock 5000] :=
    List.not_mem_nil
  have hnext : later.launch "7" = (.ok ⟨"7", some 14, some 5090⟩, (later.launch "7").2) :=
    Prod.ext hlater rfl
  obtain ⟨sum, stop, heq, hknown, hsum, -, hadds⟩ := launch_recalled
    (Prod.ext hanswer rfl : launched = (.ok ⟨"7", some 13, some 1000090⟩, launched.2))
  obtain ⟨hid, hminutes, hlast⟩ := GameTime.mk.inj heq
  obtain rfl := Option.some.inj hminutes
  obtain rfl := Option.some.inj hlast
  have hbroken : GameId.canonical "7" ∉ launched.2.brokenOff [.tick, .setClock 5000] :=
    List.not_mem_nil
  obtain ⟨stop', hstop', hadded⟩ := hadds _ "7" _ _ hplayed hbroken rfl hnext
  obtain rfl := Option.some.inj hstop'
  rw [hsum.mpr (by decide)] at hadded
  exact ⟨hanswer, (hknown "007" hcanonical).2.mpr (by decide), hlater, Option.some.inj hadded⟩

/-- A total that is answered but not remembered. Every further session of a minute is lost. -/
theorem launch_recalled_forgotten :
    let engine := playedFor "9007199254740992"
    let after := (engine.launch "7").2
    (engine.launch "7").1 = .ok ⟨"7", some 9007199254740993, some 1000090⟩
      ∧ after.gameTime "7" = .ok ⟨"7", some 9007199254740992, some 1000090⟩
      ∧ (after.launch "7").1 = .ok ⟨"7", some 9007199254740993, some 1000180⟩ := by
  decide +kernel

end Engine

end GameBridge
