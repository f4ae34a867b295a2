import GameBridge.Capacity
import GameBridge.Proofs.Engine.Reading

/-!
# Reads among other events

A read of a cold cache takes several steps, and others can come in between any two of them. A
`Course` is such a read, with all that has happened in the meantime. `Reached` says for each phase
of the read what must have happened for the read to get there. A step of the read keeps it, and so
does an event of others, which can be anything but the return of a claim that the read holds.

So a read can be relied on, whoever comes in between: it lists the cache only after a refresh has
succeeded, it refreshes the cache at most once and under a claim of its own, and it fails only as
its own refresh did. There is one thing that it can miss. A refresh that succeeds after the read has
looked and before it has claimed the task is not seen. The read then refreshes a cache that is warm,
and if the source fails by now, the read fails, though the cache could be listed.
-/

namespace GameBridge

namespace Engine

/-! ## Claims that are held -/

section Running

variable [Room] {engine : Engine} {task : Task}

theorem running_finish_of_ne {other : Task} (hne : other ≠ task)
    (h : engine.schedule.states.get task = .running) :
    (engine.finish other).schedule.states.get task = .running :=
  (PerTask.get_set_of_ne _ _ hne.symm).trans h

theorem running_refreshClaimed_of_ne {other : Task} (hne : other ≠ task)
    (h : engine.schedule.states.get task = .running) :
    (engine.refreshClaimed other).2.schedule.states.get task = .running :=
  running_finish_of_ne hne ((congrArg (·.states.get task) (refresh_asks engine other).1).trans h)

omit [Room] in
theorem running_claimed (other : Task) (h : engine.schedule.states.get task = .running) :
    (engine.claimed other).schedule.states.get task = .running := by
  by_cases hne : other = task
  · rw [hne]
    exact state_claimed engine task
  · exact (PerTask.get_set_of_ne _ _ (Ne.symm hne)).trans h

omit [Room] in
theorem ne_of_mem_claimDue {due : Task} (hdue : due ∈ engine.claimDue.1)
    (h : engine.schedule.states.get task = .running) : due ≠ task := by
  rintro rfl
  have hisDue := (Schedule.mem_claimDue engine.schedule engine.world.now due).mp hdue
  rw [TaskStatus.isDue, show (engine.schedule.status due).state = _ from h] at hisDue
  exact absurd hisDue Bool.false_ne_true

omit [Room] in
theorem running_claimDue (h : engine.schedule.states.get task = .running) :
    engine.claimDue.2.schedule.states.get task = .running := by
  have hfold : ∀ (due : List Task) (schedule : Schedule), schedule.states.get task = .running →
      (due.foldl Schedule.claim schedule).states.get task = .running := by
    intro due
    induction due with
    | nil => exact fun _ h ↦ h
    | cons other rest ih =>
      intro schedule h
      refine ih _ ?_
      by_cases hne : other = task
      · rw [hne]
        exact PerTask.get_set_self ..
      · exact (PerTask.get_set_of_ne _ _ (Ne.symm hne)).trans h
  exact hfold _ _ h

theorem running_tick (h : engine.schedule.states.get task = .running) :
    engine.tick.2.schedule.states.get task = .running := by
  have hfold : ∀ (due : List Task) (engine : Engine), (∀ other ∈ due, other ≠ task) →
      engine.schedule.states.get task = .running →
      (due.foldl (fun engine task ↦ (engine.refreshClaimed task).2) engine).schedule.states.get task
        = .running := by
    intro due
    induction due with
    | nil => exact fun _ _ h ↦ h
    | cons other rest ih =>
      intro engine hdue h
      obtain ⟨hother, hrest⟩ := List.forall_mem_cons.mp hdue
      exact ih _ hrest (running_refreshClaimed_of_ne hother h)
  exact hfold _ _ (fun _ hdue ↦ ne_of_mem_claimDue hdue h) (running_claimDue h)

theorem running_prime (other : Task) (h : engine.schedule.states.get task = .running) :
    (engine.prime other).2.schedule.states.get task = .running := by
  rw [prime]
  split
  · exact h
  · rw [fill, tryClaim, Schedule.tryClaim]
    cases hstate : engine.schedule.states.get other with
    | running => exact h
    | idle =>
      have hne : other ≠ task := by
        rintro rfl
        exact absurd (hstate.symm.trans h) (by simp)
      exact running_refreshClaimed_of_ne hne (running_claimed other h)

theorem schedule_perform {event : Event} (h : event.isUpkeep = false) :
    (engine.perform event).schedule = engine.schedule := by
  have hfind (id : String) : (engine.executableFor id).2.schedule = engine.schedule := by
    rw [executableFor]
    split
    · rfl
    · dsimp only
      split <;> rfl
  cases event with
  | launch raw =>
    obtain ⟨fault, world, -, hlaunch⟩ | ⟨start, world, -, hlaunch⟩ := launch_cases engine raw
    · rw [perform, hlaunch, hfind]
    · rw [perform, hlaunch]
      exact hfind (GameId.canonical raw)
  | find raw => exact hfind (GameId.canonical raw)
  | play _ | record _ _ | gameTime _ | status | authenticate | openGame _ | setClock _
  | surround _ _ _ _ | failWrites _ => rfl
  | _ => exact absurd h (by simp [Event.isUpkeep])

/-- **A claim is kept** until it is given back. -/
theorem running_perform {event : Event} (hevent : event ≠ .finish task)
    (h : engine.schedule.states.get task = .running) :
    (engine.perform event).schedule.states.get task = .running := by
  cases hupkeep : event.isUpkeep with
  | false => rwa [schedule_perform hupkeep]
  | true =>
    cases event with
    | tick => exact running_tick h
    | claimDue => exact running_claimDue h
    | tryClaim other =>
      rw [perform, tryClaim, Schedule.tryClaim]
      cases engine.schedule.states.get other with
      | running => exact h
      | idle => exact running_claimed other h
    | refresh other => rwa [perform, (refresh_asks engine other).1]
    | finish other =>
      rw [perform]
      cases engine.schedule.states.get other with
      | idle => exact h
      | running => exact running_finish_of_ne (fun heq ↦ hevent (by rw [heq])) h
    | ownedGames => exact running_prime .ownership h
    | localGames => exact running_prime .installation h
    | _ => exact absurd hupkeep (by simp [Event.isUpkeep])

theorem running_run {events : List Event} (hevents : .finish task ∉ events)
    (h : engine.schedule.states.get task = .running) :
    (engine.run events).schedule.states.get task = .running := by
  induction events generalizing engine with
  | nil => exact h
  | cons event rest ih =>
    obtain ⟨hevent, hrest⟩ := not_or.mp (mt List.mem_cons.mpr hevents)
    exact ih hrest (running_perform (Ne.symm hevent) h)

end Running

/-! ## Courses -/

namespace Priming

/-- What a step of a read does to the engine, as an event. -/
def deeds (task : Task) (engine : Engine) : Priming → List Event
  | claiming =>
    match engine.schedule.states.get task with
    | .idle => [.tryClaim task]
    | .running => []
  | refreshing => [.refresh task]
  | returning _ => [.finish task]
  | looking | waiting | ended _ => []

end Priming

/-- A read among other events, from one phase to another: all that happens meanwhile, and what of it
the read does. While the read holds the claim nobody else can give it back. -/
inductive Course [Room] (task : Task) :
    Engine → Priming → List Event → List Event → Priming → Prop
  | here {engine : Engine} {phase : Priming} : Course task engine phase [] [] phase
  | step {engine after : Engine} {phase next last : Priming} {all own : List Event}
      (hstep : phase.step task engine = some (next, after))
      (hrest : Course task after next all own last) :
      Course task engine phase (phase.deeds task engine ++ all) (phase.deeds task engine ++ own)
        last
  | other {engine : Engine} {phase last : Priming} {event : Event} {all own : List Event}
      (hfree : phase.holds = true → event ≠ .finish task)
      (hrest : Course task (engine.perform event) phase all own last) :
      Course task engine phase (event :: all) own last

/-! ## What must have happened -/

/-- A read has found the cache cold and, a gap later, has claimed the task, which nobody was working
on. It has held the claim since. -/
structure Claimed [Room] (task : Task) (engine : Engine) (before gap held : List Event) :
    Prop where
  cold : (engine.run before).isPrimed task = false
  idle : (engine.run (before ++ gap)).schedule.states.get task = .idle
  kept : .finish task ∉ held

/-- What must have happened since a read began for it to have reached a phase, and what of it the
read has done. -/
inductive Reached [Room] (task : Task) (engine : Engine) :
    List Event → List Event → Priming → Prop
  | looking {past : List Event} : Reached task engine past [] .looking
  | waiting {past : List Event} : Reached task engine past [] .waiting
  | claiming {past before gap : List Event} (hpast : past = before ++ gap)
    (hcold : (engine.run before).isPrimed task = false) :
    Reached task engine past [] .claiming
  | refreshing {past before gap held : List Event}
    (hpast : past = before ++ gap ++ .tryClaim task :: held)
    (hclaimed : Claimed task engine before gap held) :
    Reached task engine past [.tryClaim task] .refreshing
  | returning {past before gap held back : List Event}
    (hpast : past = before ++ gap ++ .tryClaim task :: (held ++ .refresh task :: back))
    (hclaimed : Claimed task engine before gap (held ++ .refresh task :: back)) :
    Reached task engine past [.tryClaim task, .refresh task]
      (.returning ((engine.run (before ++ gap ++ .tryClaim task :: held)).refresh task).1)
  | warm {past before later : List Event} (hpast : past = before ++ later)
    (hwarm : (engine.run before).isPrimed task = true) :
    Reached task engine past [] (.ended (.ok ()))
  | filled {past before gap held back later : List Event}
    (hpast : past = before ++ gap ++ .tryClaim task :: (held ++ .refresh task :: back)
      ++ .finish task :: later)
    (hclaimed : Claimed task engine before gap (held ++ .refresh task :: back)) :
    Reached task engine past [.tryClaim task, .refresh task, .finish task]
      (.ended (((engine.run (before ++ gap ++ .tryClaim task :: held)).refresh task).1.map
        fun _ ↦ ()))

namespace Claimed

variable [Room] {task : Task} {engine : Engine} {before gap held : List Event}

theorem running (h : Claimed task engine before gap held) :
    (engine.run (before ++ gap ++ .tryClaim task :: held)).schedule.states.get task = .running := by
  rw [run_append, run_cons, perform, tryClaim_of_idle h.idle, Option.getD_some]
  exact running_run h.kept (state_claimed _ task)

theorem snoc (h : Claimed task engine before gap held) {event : Event}
    (hevent : event ≠ .finish task) : Claimed task engine before gap (held ++ [event]) where
  cold := h.cold
  idle := h.idle
  kept hmem := by
    rcases List.mem_append.mp hmem with hheld | hlast
    · exact h.kept hheld
    · exact hevent (List.mem_singleton.mp hlast).symm

theorem of_append {more : List Event} (h : Claimed task engine before gap (held ++ more)) :
    Claimed task engine before gap held where
  cold := h.cold
  idle := h.idle
  kept hmem := h.kept (List.mem_append_left _ hmem)

end Claimed

namespace Reached

variable [Room] {task : Task} {engine : Engine} {past own : List Event} {phase : Priming}

/-- **Others come in between.** -/
theorem other (h : Reached task engine past own phase) {event : Event}
    (hfree : phase.holds = true → event ≠ .finish task) :
    Reached task engine (past ++ [event]) own phase := by
  cases h with
  | looking => exact .looking
  | waiting => exact .waiting
  | claiming hpast hcold => exact .claiming (by rw [hpast, List.append_assoc]) hcold
  | refreshing hpast hclaimed =>
    refine .refreshing ?_ (hclaimed.snoc (hfree rfl))
    rw [hpast, List.append_assoc, List.cons_append]
  | returning hpast hclaimed =>
    have h := hclaimed.snoc (hfree rfl)
    rw [List.append_assoc, List.cons_append] at h
    refine .returning ?_ h
    simp only [hpast, List.append_assoc, List.cons_append]
  | warm hpast hwarm => exact .warm (by rw [hpast, List.append_assoc]) hwarm
  | @filled before gap held back later hpast hclaimed =>
    have hlater : past ++ [event] = before ++ gap ++ .tryClaim task ::
        (held ++ .refresh task :: back) ++ .finish task :: (later ++ [event]) := by
      rw [hpast, List.append_assoc, List.cons_append]
    exact .filled hlater hclaimed

/-- **A step of the read** does its deeds and nothing else, and gets to the next phase. -/
theorem step (h : Reached task engine past own phase) {next : Priming} {after : Engine}
    (hstep : phase.step task (engine.run past) = some (next, after)) :
    after = engine.run (past ++ phase.deeds task (engine.run past))
      ∧ Reached task engine (past ++ phase.deeds task (engine.run past))
        (own ++ phase.deeds task (engine.run past)) next := by
  rw [run_append]
  cases h with
  | looking =>
    rw [Priming.deeds, List.append_nil, List.append_nil]
    cases hprimed : (engine.run past).isPrimed task with
    | true =>
      rw [Priming.step, if_pos hprimed] at hstep
      obtain ⟨rfl, rfl⟩ := Prod.mk.inj (Option.some.inj hstep)
      exact ⟨rfl, .warm (List.append_nil past).symm hprimed⟩
    | false =>
      rw [Priming.step, hprimed, if_neg Bool.false_ne_true] at hstep
      obtain ⟨rfl, rfl⟩ := Prod.mk.inj (Option.some.inj hstep)
      exact ⟨rfl, .claiming (List.append_nil past).symm hprimed⟩
  | waiting =>
    rw [Priming.deeds, List.append_nil, List.append_nil]
    rw [Priming.step] at hstep
    cases hstate : (engine.run past).schedule.states.get task with
    | running => rw [hstate] at hstep; exact absurd hstep (by simp)
    | idle =>
      rw [hstate] at hstep
      obtain ⟨rfl, rfl⟩ := Prod.mk.inj (Option.some.inj hstep)
      exact ⟨rfl, .looking⟩
  | claiming hpast hcold =>
    rw [Priming.deeds]
    cases hstate : (engine.run past).schedule.states.get task with
    | running =>
      rw [Priming.step, tryClaim, Schedule.tryClaim, hstate] at hstep
      obtain ⟨rfl, rfl⟩ := Prod.mk.inj (Option.some.inj hstep)
      exact ⟨rfl, .waiting⟩
    | idle =>
      rw [Priming.step, tryClaim_of_idle hstate] at hstep
      obtain ⟨rfl, rfl⟩ := Prod.mk.inj (Option.some.inj hstep)
      subst hpast
      refine ⟨?_, .refreshing rfl ⟨hcold, hstate, List.not_mem_nil⟩⟩
      dsimp only
      rw [run_cons, perform, tryClaim_of_idle hstate]
      rfl
  | refreshing hpast hclaimed =>
    rw [Priming.step] at hstep
    obtain ⟨rfl, rfl⟩ := Prod.mk.inj (Option.some.inj hstep)
    subst hpast
    refine ⟨rfl, .returning ?_ (hclaimed.snoc (by simp))⟩
    rw [Priming.deeds, List.append_assoc, List.cons_append]
  | returning hpast hclaimed =>
    rw [Priming.step] at hstep
    obtain ⟨rfl, rfl⟩ := Prod.mk.inj (Option.some.inj hstep)
    subst hpast
    refine ⟨?_, .filled rfl hclaimed⟩
    rw [Priming.deeds, run_cons, perform, hclaimed.running]
    rfl
  | warm _ _ => exact absurd hstep (by simp [Priming.step])
  | filled _ _ => exact absurd hstep (by simp [Priming.step])

/-- **The course of a read** leads where its steps and those of others do. -/
theorem course (h : Reached task engine past own phase) {all own' : List Event} {last : Priming}
    (hcourse : Course task (engine.run past) phase all own' last) :
    Reached task engine (past ++ all) (own ++ own') last := by
  generalize hbegin : engine.run past = begin at hcourse
  induction hcourse generalizing past own with
  | here => rwa [List.append_nil, List.append_nil]
  | step hstep hrest ih =>
    subst hbegin
    obtain ⟨hafter, hnext⟩ := h.step hstep
    rw [← List.append_assoc, ← List.append_assoc]
    exact ih hnext hafter.symm
  | @other engine' phase last event all own' hfree hrest ih =>
    rw [List.append_cons]
    refine ih (h.other hfree) ?_
    rw [run_append, hbegin]
    rfl

end Reached

/-! ## Courses without others -/

namespace Course

variable [Room] {task : Task} {engine : Engine} {phase last : Priming} {all own : List Event}

/-- Others can come first as long as the read does not hold the claim. -/
theorem others (hfree : phase.holds = false) {events : List Event}
    (h : Course task (engine.run events) phase all own last) :
    Course task engine phase (events ++ all) own last := by
  induction events generalizing engine with
  | nil => exact h
  | cons event rest ih => exact .other (by simp [hfree]) (ih h)

theorem looked_cold (hcold : engine.isPrimed task = false)
    (h : Course task engine .claiming all own last) : Course task engine .looking all own last := by
  have hstep : Priming.looking.step task engine = some (.claiming, engine) := by
    rw [Priming.step, hcold, if_neg Bool.false_ne_true]
  exact .step hstep h

theorem looked_warm (hwarm : engine.isPrimed task = true) :
    Course task engine .looking [] [] (.ended (.ok ())) := by
  have hstep : Priming.looking.step task engine = some (.ended (.ok ()), engine) := by
    rw [Priming.step, if_pos hwarm]
  exact .step hstep .here

theorem blocked (hrunning : engine.schedule.states.get task = .running) :
    Course task engine .claiming [] [] .waiting
      ∧ Priming.waiting.step task engine = none := by
  have hstep : Priming.claiming.step task engine = some (.waiting, engine) := by
    rw [Priming.step, tryClaim, Schedule.tryClaim, hrunning]
    rfl
  refine ⟨?_, by rw [Priming.step, hrunning]⟩
  have hcourse := Course.step hstep .here
  rwa [Priming.deeds, hrunning] at hcourse

/-- A read that can claim its task refreshes the cache. -/
theorem filled (hidle : engine.schedule.states.get task = .idle) :
    Course task engine .claiming [.tryClaim task, .refresh task, .finish task]
      [.tryClaim task, .refresh task, .finish task] (.ended (engine.fill task).1) := by
  have hclaim : Priming.claiming.step task engine = some (.refreshing, engine.claimed task) := by
    rw [Priming.step, tryClaim_of_idle hidle]
  have hfill : (engine.fill task).1 = ((engine.claimed task).refresh task).1.map fun _ ↦ () := by
    rw [fill, tryClaim_of_idle hidle]
    rfl
  have hcourse := Course.step hclaim (.step rfl (.step rfl .here))
  rw [Priming.deeds, hidle] at hcourse
  rw [hfill]
  exact hcourse

end Course

/-- **Alone**, a read goes through the steps of which `prime` is made, unless it has to wait. -/
theorem course_prime [Room] {engine : Engine} {task : Task}
    (hfree : engine.isPrimed task = true ∨ engine.schedule.states.get task = .idle) :
    ∃ own, Course task engine .looking own own (.ended (engine.prime task).1)
      ∧ engine.run own = (engine.prime task).2 := by
  cases hprimed : engine.isPrimed task with
  | true =>
    rw [prime_warm hprimed]
    exact ⟨[], .looked_warm hprimed, rfl⟩
  | false =>
    have hidle := hfree.resolve_left (by simp [hprimed])
    have hprime : engine.prime task = engine.fill task := by
      rw [prime, hprimed, if_neg Bool.false_ne_true]
    refine ⟨_, hprime ▸ Course.looked_cold hprimed (Course.filled hidle), ?_⟩
    rw [run_refreshClaimed hidle, prime_cold hprimed hidle]

/-! ## What a read can be relied on for -/

namespace Listing

variable {α : Type}

/-- A read has refreshed its cache, with others before, during and after that. -/
structure Refreshes [Room] (listing : Listing α) (engine : Engine)
    (before gap held back : List Event) (result : Except Fault Unit) : Prop where
  /-- When the read claimed the task nobody was working on it. -/
  idle : (engine.run (before ++ gap)).schedule.states.get listing.task = .idle
  /-- From then on the claim was the read's own. -/
  running : ∀ kept, kept <+: held ++ .refresh listing.task :: back →
    (engine.run (before ++ gap ++ .tryClaim listing.task :: kept)).schedule.states.get listing.task
      = .running
  /-- The source was asked once. What it gave was put into the cache. If it gave nothing, the read
  fails in the same way, and the cache stays what it was. -/
  outcome : let now := engine.run (before ++ gap ++ .tryClaim listing.task :: held)
    let after := now.perform (.refresh listing.task)
    after.world.journal.fetches = listing.task.ask now.world.journal.fetches
      ∧ match listing.fresh now with
        | .ok index => result = .ok ()
          ∧ listing.cache after
            = (listing.cache now).apply index now.settings.staleness now.world.now
        | .error fault => result = .error fault ∧ listing.cache after = listing.cache now
  /-- The claim was given back, and the time of that is the time of the check. -/
  returned : let last := (engine.run (before ++ gap ++ .tryClaim listing.task ::
      (held ++ .refresh listing.task :: back)))
    let free := last.perform (.finish listing.task)
    free.schedule.states.get listing.task = .idle
      ∧ free.schedule.lastChecks.get listing.task = some last.world.now

/-- What can be said at any time of a read that began after the events of a run. `all` has happened
since, and `own` of it is the read's. -/
structure Stands [Room] (listing : Listing α) (first : Engine) (events all own : List Event)
    (phase : Priming) : Prop where
  /-- All that it does is to refresh the cache once, under a claim of its own. -/
  once : own <+: [.tryClaim listing.task, .refresh listing.task, .finish listing.task]
  /-- After a refresh, it does nothing and does not fail. -/
  warm : listing.refreshed first events = true →
    own = [] ∧ ∀ result, phase = .ended result → result = .ok ()
  /-- It lists the cache only after a refresh. -/
  succeeds : phase = .ended (.ok ()) → listing.refreshed first (events ++ all) = true
  /-- It is over only after a refresh, or after a time when nobody was working on the task. -/
  waits : ∀ result, phase = .ended result → listing.refreshed first (events ++ all) = true ∨
    ∃ before later, all = before ++ later
      ∧ (first.run (events ++ before)).schedule.states.get listing.task = .idle
  /-- When it is over, it has found the cache warm and done nothing, or found it cold and refreshed
  it. Its refresh is not the first one just if one has succeeded after it found the cache cold and
  before it claimed the task. -/
  ended : ∀ result, phase = .ended result →
    (own = [] ∧ result = .ok () ∧ ∃ before later, all = before ++ later
        ∧ listing.refreshed first (events ++ before) = true) ∨
      (own = [.tryClaim listing.task, .refresh listing.task, .finish listing.task]
        ∧ ∃ before gap held back later,
          all = before ++ gap ++ .tryClaim listing.task :: (held ++ .refresh listing.task :: back)
              ++ .finish listing.task :: later
            ∧ listing.Refreshes (first.run events) before gap held back result
            ∧ listing.refreshed first (events ++ before) = false
            ∧ listing.refreshed first (events ++ (before ++ gap))
              = listing.refreshed (first.run (events ++ before)) gap)

namespace Lawful

variable [Room] {listing : Listing α}

theorem refreshes (h : listing.Lawful) {engine : Engine} {before gap held back : List Event}
    (hclaimed : Claimed listing.task engine before gap (held ++ .refresh listing.task :: back)) :
    listing.Refreshes engine before gap held back
      (((engine.run (before ++ gap ++ .tryClaim listing.task :: held)).refresh listing.task).1.map
        fun _ ↦ ()) where
  idle := hclaimed.idle
  running kept hkept := by
    obtain ⟨more, hmore⟩ := hkept
    rw [← hmore] at hclaimed
    exact hclaimed.of_append.running
  outcome := by
    intro now after
    obtain ⟨hresult, hcache⟩ := h.refresh now
    refine ⟨(refresh_asks now listing.task).2, ?_⟩
    rcases hfresh : listing.fresh now with fault | index
    · rw [hfresh] at hresult hcache
      exact ⟨congrArg _ hresult, hcache⟩
    · rw [hfresh] at hresult hcache
      exact ⟨congrArg _ hresult, hcache⟩
  returned := by
    intro last free
    have hrunning : last.schedule.states.get listing.task = .running := hclaimed.running
    have hfree : last.perform (.finish listing.task) = last.finish listing.task := by
      rw [Engine.perform, hrunning]
    rw [show free = _ from hfree]
    exact ⟨PerTask.get_set_self .., PerTask.get_set_self ..⟩

section Stands

variable (h : listing.Lawful) {first : Engine} (hcold : first.isPrimed listing.task = false)

include h hcold

theorem primed_start (events : List Event) :
    (first.run events).isPrimed listing.task = listing.refreshed first events := by
  rw [h.primed_run, hcold, Bool.false_or]

theorem primed_began (events before : List Event) :
    ((first.run events).run before).isPrimed listing.task
      = listing.refreshed first (events ++ before) := by
  rw [← run_append, h.primed_start hcold]

omit h hcold in
theorem refreshed_of_began {events : List Event} (hevents : listing.refreshed first events = true)
    (more : List Event) : listing.refreshed first (events ++ more) = true := by
  rw [refreshed_append, hevents, Bool.true_or]

/-- A read that has refreshed its cache goes on only if the source gave a list. -/
theorem refreshed_of_ok {events before gap held back : List Event}
    (hrefreshes : listing.Refreshes (first.run events) before gap held back (.ok ())) :
    listing.refreshed first (events ++ (before ++ gap ++ .tryClaim listing.task ::
      (held ++ [.refresh listing.task]))) = true := by
  have houtcome := hrefreshes.outcome.2
  rcases hfresh : listing.fresh ((first.run events).run
      (before ++ gap ++ .tryClaim listing.task :: held)) with fault | index
  · rw [hfresh] at houtcome
    exact absurd houtcome.1 (by simp)
  · rw [hfresh] at houtcome
    rw [← h.primed_began hcold, h.primed, ← List.cons_append, ← List.append_assoc, run_append]
    exact (congrArg Cache.isPrimed houtcome.2).trans (Cache.isPrimed_apply ..)

/-- **A read among other events.** -/
theorem stands {events all own : List Event} {phase : Priming}
    (hcourse : Course listing.task (first.run events) .looking all own phase) :
    listing.Stands first events all own phase := by
  have hbegun : Reached listing.task (first.run events) [] [] .looking := .looking
  have hreached : Reached listing.task (first.run events) all own phase := hbegun.course hcourse
  have hwas (before : List Event) := h.primed_began hcold events before
  constructor
  case once =>
    cases hreached
    case filled => exact List.prefix_refl _
    all_goals simp
  case warm =>
    intro hwarm
    have hnot {before : List Event}
        (hfound : ((first.run events).run before).isPrimed listing.task = false) : False := by
      rw [hwas, refreshed_of_began hwarm] at hfound
      exact absurd hfound (by simp)
    cases hreached with
    | looking => exact ⟨rfl, by simp⟩
    | waiting => exact ⟨rfl, by simp⟩
    | claiming _ hfound => exact (hnot hfound).elim
    | refreshing _ hclaimed => exact (hnot hclaimed.cold).elim
    | returning _ hclaimed => exact (hnot hclaimed.cold).elim
    | warm => exact ⟨rfl, fun result hresult ↦ (Priming.ended.inj hresult).symm⟩
    | filled _ hclaimed => exact (hnot hclaimed.cold).elim
  case succeeds =>
    intro hover
    cases hreached with
    | warm hall hwarm =>
      rw [hall, ← List.append_assoc]
      exact refreshed_of_began (by rwa [← hwas]) _
    | @filled before gap held back later hall hclaimed =>
      have hrefreshes := h.refreshes hclaimed
      rw [Priming.ended.inj hover] at hrefreshes
      have hsplit : events ++ all = events ++ (before ++ gap ++ .tryClaim listing.task ::
          (held ++ [.refresh listing.task])) ++ (back ++ .finish listing.task :: later) := by
        simp [hall]
      rw [hsplit]
      exact refreshed_of_began (h.refreshed_of_ok hcold hrefreshes) _
    | _ => exact absurd hover (by simp)
  case waits =>
    rintro result rfl
    cases hreached with
    | warm hall hwarm =>
      rw [hall, ← List.append_assoc]
      exact Or.inl (refreshed_of_began (by rwa [← hwas]) _)
    | @filled before gap held back later hall hclaimed =>
      refine Or.inr ⟨before ++ gap, _, by rw [hall, List.append_assoc], ?_⟩
      rw [run_append]
      exact hclaimed.idle
  case ended =>
    rintro result rfl
    cases hreached with
    | warm hall hwarm => exact Or.inl ⟨rfl, rfl, _, _, hall, by rwa [← hwas]⟩
    | @filled before gap held back later hall hclaimed =>
      have hfirst : listing.refreshed first (events ++ before) = false := by
        rw [← hwas]
        exact hclaimed.cold
      refine Or.inr ⟨rfl, before, gap, held, back, later, hall, h.refreshes hclaimed, hfirst, ?_⟩
      rw [← List.append_assoc, refreshed_append, hfirst, Bool.false_or]

end Stands

end Lawful

/-! ## Reads in a run -/

/-- What a host is given when a read is over. -/
def answer (listing : Listing α) (engine : Engine) (result : Except Fault Unit) :
    Except Fault (List α) :=
  result.map fun _ ↦ (listing.cache engine).entries.values

/-- What a read may give, and when, after the events of a run. -/
structure Reliable [Room] (listing : Listing α) (first : Engine) (events : List Event) :
    Prop where
  /-- A read that succeeds had a refresh before it, if it was not one itself. -/
  succeeds : (listing.read (first.run events)).1.isOk = true →
    listing.refreshed first (events ++ [listing.event]) = true
  /-- After a refresh, the cache is listed and nothing else happens. -/
  warm : listing.refreshed first events = true →
    listing.read (first.run events)
      = (.ok (listing.cache (first.run events)).entries.values, first.run events)
  /-- Before that, a read refreshes the cache if it can. If this fails, the next read refreshes it
  again, without regard to any interval. -/
  cold : listing.refreshed first events = false →
    (first.run events).schedule.states.get listing.task = .idle →
    listing.Fills (first.run events)
      ∧ ((listing.read (first.run events)).1.isOk = false →
        listing.Fills (listing.read (first.run events)).2)
  /-- If it cannot, it waits. -/
  busy : listing.refreshed first events = false →
    (first.run events).schedule.states.get listing.task = .running →
    listing.read (first.run events)
      = (.error (.stopped (.waiting listing.task)), first.run events)
  /-- A read to which nobody comes in between takes steps of its own only. -/
  alone : listing.refreshed first events = true ∨
      (first.run events).schedule.states.get listing.task = .idle →
    ∃ own result, Course listing.task (first.run events) .looking own own (.ended result)
      ∧ listing.read (first.run events)
        = (listing.answer ((first.run events).run own) result, (first.run events).run own)
  /-- A read that cannot claim its task waits, and takes no step. -/
  blocked : listing.refreshed first events = false →
    (first.run events).schedule.states.get listing.task = .running →
    Course listing.task (first.run events) .looking [] [] .waiting
      ∧ Priming.waiting.step listing.task (first.run events) = none
  /-- When the claim was given back, the read looks at the cache again. -/
  resumed : (first.run events).schedule.states.get listing.task = .idle →
    Priming.waiting.step listing.task (first.run events) = some (.looking, first.run events)
  /-- Whoever comes in between, all of `Stands` can be said of a read. -/
  among : ∀ {all own phase}, Course listing.task (first.run events) .looking all own phase →
    listing.Stands first events all own phase
  /-- A launch is no refresh. -/
  launches : ∀ raw, listing.refreshed first (events ++ [.launch raw])
      = listing.refreshed first events
    ∧ listing.refreshed first (events ++ [.find raw]) = listing.refreshed first events

theorem Lawful.reliable [Room] {listing : Listing α} (h : listing.Lawful) {first : Engine}
    (hcold : first.isPrimed listing.task = false) (events : List Event) :
    listing.Reliable first events := by
  have hprimed := h.primed_start hcold
  have hsought : ∀ {event raw}, event.sought = some raw →
      listing.refreshed first (events ++ [event]) = listing.refreshed first events := by
    intro event raw hevent
    rw [refreshed_append, refreshed, h.gives_sought hevent, refreshed, Bool.or_false, Bool.or_false]
  constructor
  case succeeds =>
    intro hok
    rw [← hprimed, run_append]
    show ((first.run events).perform listing.event).isPrimed listing.task = true
    rw [h.perform, h.read, ← isOk_prime, ← hok, h.read]
    rcases ((first.run events).prime listing.task).1 with fault | _ <;> rfl
  case warm =>
    intro hrefreshed
    exact h.read_warm ((hprimed events).trans hrefreshed)
  case cold =>
    intro hnever hidle
    have hfills := h.fills ((hprimed events).trans hnever) hidle
    refine ⟨hfills, fun hfailed ↦ h.fills ?_ hfills.idle⟩
    rw [h.primed]
    have houtcome := hfills.outcome
    rcases hcases : listing.fresh (first.run events) with fault | index
    · rw [hcases] at houtcome
      rw [houtcome.2, ← h.primed, hprimed, hnever]
    · rw [hcases] at houtcome
      rw [houtcome.1] at hfailed
      exact absurd hfailed (by simp [Except.isOk, Except.toBool])
  case busy =>
    intro hnever hrunning
    exact h.read_busy ((hprimed events).trans hnever) hrunning
  case alone =>
    intro hfree
    rw [← hprimed] at hfree
    obtain ⟨own, hcourse, hown⟩ := course_prime hfree
    refine ⟨own, _, hcourse, ?_⟩
    rw [hown, h.read]
    rfl
  case blocked =>
    intro hnever hrunning
    have hblocked := Course.blocked hrunning
    exact ⟨.looked_cold ((hprimed events).trans hnever) hblocked.1, hblocked.2⟩
  case resumed =>
    intro hidle
    rw [Priming.step, hidle]
  case among => exact h.stands hcold
  case launches =>
    intro raw
    exact ⟨hsought rfl, hsought rfl⟩

end Listing

/-- **Reading.** After any run, both caches can be relied on: a read lists what the source has given
and never a cache for which it has given nothing. -/
theorem reading_run [Room] (settings : Settings) (store : Store) (world : World)
    (events : List Event) : ownedListing.Reliable (start settings store world) events
      ∧ installedListing.Reliable (start settings store world) events :=
  ⟨lawful_ownedListing.reliable rfl events, lawful_installedListing.reliable rfl events⟩

/-- A new engine, for which one game is owned. -/
def ownerOfSeven : Engine :=
  start .default (.ofEntries .empty)
    ⟨1000000, .ofRows [⟨7, some "Seven", 0, true⟩] [] none, fun _ ↦ false, ⟨90, none, none⟩,
      .emptyFolder, .blank⟩

/-- The failure of a source that is gone. -/
def gone : Failure := .databaseUnavailable "/missing/butler.db" "file does not exist"

/-- Somebody refreshes the owned games, and then the source is gone. -/
def overtaking : List Event :=
  [.tryClaim .ownership, .refresh .ownership, .finish .ownership,
    .surround (.failing gone) (fun _ ↦ false) ⟨90, none, none⟩ .emptyFolder]

/-- A read finds the cache of the owned games cold. Before it claims the task somebody else
refreshes the cache, which can be listed from then on, and then the source is gone. The read asks
the source again all the same, and fails. -/
theorem reading_overtaken :
    let own : List Event := [.tryClaim .ownership, .refresh .ownership, .finish .ownership]
    let before := ownerOfSeven.run overtaking
    ownedListing.refreshed ownerOfSeven overtaking = true
      ∧ (ownedListing.read before).1 = .ok [⟨"7", "Seven", .freeToPlay⟩]
      ∧ Course .ownership ownerOfSeven .looking (overtaking ++ own) own
        (.ended (.error (.failed gone)))
      ∧ before.world.journal.fetches.ownership = 1
      ∧ (ownerOfSeven.run (overtaking ++ own)).world.journal.fetches.ownership = 2 := by
  have hidle : (ownerOfSeven.run overtaking).schedule.states.get .ownership = .idle := by
    decide +kernel
  have hfill : ((ownerOfSeven.run overtaking).fill .ownership).1 = .error (.failed gone) := by
    decide +kernel
  exact ⟨by decide +kernel, by decide +kernel,
    .looked_cold rfl (.others rfl (hfill ▸ .filled hidle)), by decide +kernel, by decide +kernel⟩

end Engine

end GameBridge
