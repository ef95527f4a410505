/-
This file shows that sleeps can be cancelled at any time. A coroutine that sleeps and the callback
of its sleep know each other: the stage of the coroutine names the callback, and as long as the
callback holds its guard, its flag says whether the coroutine is in this sleep or destroyed. A
resume ends the sleep and a cancel clears the flag, each in the same step.
-/

import AsyncNet.Executor.ScheduledTasks

namespace AsyncNet.Executor

open Library Io

/-! ### The invariant -/

/-- A callback of a sleep that holds a work guard. -/
def holdsGuard (callback : Option SleepCallback) : Bool := callback.any (·.guard)

/-- The callback of a sleep holds the guard until it is called. Until then its flag says whether the
coroutine is in this sleep or destroyed. -/
structure SleepCallback.Sound (schedule : Schedule) (number : Nat) (sleep : SleepCallback) :
    Prop where
  unfired : sleep.guard = true ↔ some number ∉ schedule.timers.ran
  asleep : sleep.guard = true → schedule.stages[sleep.coroutine]? =
    some (if sleep.alive then .sleeping number else .destroyed)
  woken : sleep.guard = false → schedule.stages[sleep.coroutine]? = some .destroyed ∨
    number ∈ schedule.resumes.map (·.number)

/-- What is known of a call of `resume`. -/
structure Resume.Sound (schedule : Schedule) (resume : Resume) : Prop where
  called : ∃ sleep, schedule.callbacks[resume.number]? = some (some sleep) ∧ sleep.guard = false
  suspended : resume.stage = some (.sleeping resume.number)
  notEarly : ∃ deadline ≤ resume.time,
    Dated schedule.timers.deadlines (some resume.number) deadline

namespace Schedule

/-- The coroutines on the stack run, and a coroutine that sleeps has a callback with a guard, whose
flag is set. -/
structure Sound (schedule : Schedule) : Prop where
  timers : schedule.timers.Sound
  posted : schedule.callbacks.length = schedule.timers.deadlines.length
  distinct : schedule.stack.Nodup
  running : ∀ coroutine ∈ schedule.stack, schedule.stages[coroutine]? = some .running
  sleeping : ∀ (coroutine : Nat) number, schedule.stages[coroutine]? = some (.sleeping number) →
    schedule.callbacks[number]? = some (some { coroutine })
  sleeps : ∀ (number : Nat) sleep, schedule.callbacks[number]? = some (some sleep) →
    sleep.Sound schedule number
  resumed : ∀ resume ∈ schedule.resumes, resume.Sound schedule
  once : (schedule.resumes.map (·.number)).Nodup
  workCount : schedule.workCount = schedule.callbacks.countP holdsGuard

theorem sound_new : Sound {} where
  timers := Timers.sound_new
  posted := rfl
  distinct := List.nodup_nil
  running := fun _ inside => absurd inside List.not_mem_nil
  sleeping := fun _ _ found => by cases found
  sleeps := fun _ _ found => by cases found
  resumed := fun _ inside => absurd inside List.not_mem_nil
  once := List.nodup_nil
  workCount := rfl

variable {schedule next : Schedule}

/-! ### What other timers do -/

/-- The timers go on, and no callback is called or posted. -/
theorem Sound.withTimers (sound : schedule.Sound) {timers : Timers} (kept : timers.Sound)
    (ran : timers.ran = schedule.timers.ran) (same : timers.deadlines = schedule.timers.deadlines) :
    Sound { schedule with timers } where
  timers := kept
  posted := sound.posted.trans (congrArg List.length same.symm)
  distinct := sound.distinct
  running := sound.running
  sleeping := sound.sleeping
  sleeps := by
    intro number sleep found
    have known := sound.sleeps number sleep found
    refine ⟨?_, known.asleep, known.woken⟩
    show sleep.guard = true ↔ some number ∉ timers.ran
    rw [ran]
    exact known.unfired
  resumed := by
    intro resume inside
    have known := sound.resumed resume inside
    refine ⟨known.called, known.suspended, ?_⟩
    show ∃ deadline ≤ resume.time, Dated timers.deadlines (some resume.number) deadline
    rw [same]
    exact known.notEarly
  once := sound.once
  workCount := sound.workCount

/-- What is known of a sleep stays so when a callback is posted. -/
theorem Sound.post (sound : schedule.Sound) (deadline : Nat) (callback : Option SleepCallback)
    {resume : Resume} (inside : resume ∈ schedule.resumes) :
    (∃ sleep, (schedule.callbacks ++ [callback])[resume.number]? = some (some sleep) ∧
        sleep.guard = false) ∧
      ∃ late ≤ resume.time,
        Dated (schedule.timers.deadlines ++ [deadline]) (some resume.number) late := by
  have known := sound.resumed resume inside
  obtain ⟨sleep, found, released⟩ := known.called
  obtain ⟨late, le, dated⟩ := known.notEarly
  refine ⟨⟨sleep, ?_, released⟩, late, le, dated.post deadline⟩
  rw [List.getElem?_append_left (List.getElem?_eq_some_iff.mp found).1]
  exact found

/-- A callback is one that has been there, or the one that has been posted. -/
theorem getElem?_concat {callbacks : List (Option SleepCallback)} {callback : Option SleepCallback}
    {number : Nat} {sleep : SleepCallback}
    (found : (callbacks ++ [callback])[number]? = some (some sleep)) :
    callbacks[number]? = some (some sleep) ∨
      number = callbacks.length ∧ callback = some sleep := by
  rcases Nat.lt_trichotomy number callbacks.length with earlier | last | later
  · rw [List.getElem?_append_left earlier] at found
    exact Or.inl found
  · rw [last, List.getElem?_concat_length] at found
    exact Or.inr ⟨last, Option.some.inj found⟩
  · have outside : (callbacks ++ [callback]).length ≤ number := by
      rw [List.length_append, List.length_singleton]
      exact later
    rw [List.getElem?_eq_none outside] at found
    cases found

theorem Sound.postAt (sound : schedule.Sound) (deadline : Nat) :
    Sound { schedule with
      timers := schedule.timers.postAt deadline, callbacks := schedule.callbacks ++ [none] } where
  timers := sound.timers.postAt deadline
  posted := by
    show (schedule.callbacks ++ [none]).length = (schedule.timers.deadlines ++ [deadline]).length
    rw [List.length_append, List.length_append, sound.posted]
    rfl
  distinct := sound.distinct
  running := sound.running
  sleeping := by
    intro coroutine number asleep
    have found := sound.sleeping coroutine number asleep
    show (schedule.callbacks ++ [none])[number]? = _
    rw [List.getElem?_append_left (List.getElem?_eq_some_iff.mp found).1]
    exact found
  sleeps := by
    intro number sleep found
    rcases getElem?_concat found with earlier | ⟨_, wrong⟩
    · have known := sound.sleeps number sleep earlier
      exact ⟨known.unfired, known.asleep, known.woken⟩
    · cases wrong
  resumed := by
    intro resume inside
    obtain ⟨called, notEarly⟩ := sound.post deadline none inside
    exact ⟨called, (sound.resumed resume inside).suspended, notEarly⟩
  once := sound.once
  workCount := by
    show schedule.workCount = (schedule.callbacks ++ [none]).countP holdsGuard
    rw [List.countP_append, sound.workCount]
    rfl

/-! ### What a coroutine does -/

/-- What is known of a sleep is not about a coroutine that is awake. -/
theorem stages_set {number : Nat} {sleep : SleepCallback} (known : sleep.Sound schedule number)
    {coroutine : Nat} {before : Stage} (found : schedule.stages[coroutine]? = some before)
    (awake : Awake before) (stage : Stage) :
    (sleep.guard = true → (schedule.stages.set coroutine stage)[sleep.coroutine]? =
      some (if sleep.alive then .sleeping number else .destroyed)) ∧
    (sleep.guard = false →
      (schedule.stages.set coroutine stage)[sleep.coroutine]? = some .destroyed ∨
        number ∈ schedule.resumes.map (·.number)) := by
  have keeps {here : Stage} (found' : schedule.stages[sleep.coroutine]? = some here)
      (differs : here ≠ before) :
      (schedule.stages.set coroutine stage)[sleep.coroutine]? = some here := by
    have other : coroutine ≠ sleep.coroutine := by
      intro same
      rw [← same, found] at found'
      exact differs (Option.some.inj found').symm
    exact (List.getElem?_set_ne other).trans found'
  refine ⟨fun guard => keeps (known.asleep guard) ?_, fun released => ?_⟩
  · split
    · exact (awake.2 number).symm
    · exact awake.1.symm
  · exact (known.woken released).imp_left fun gone => keeps gone awake.1.symm

/-- A coroutine that is awake gets another stage, in which it does not sleep. -/
theorem Sound.restage (sound : schedule.Sound) {coroutine : Nat} {before stage : Stage}
    (found : schedule.stages[coroutine]? = some before)
    (awake : Awake before)
    (still : ∀ number, stage ≠ .sleeping number) {stack : List Nat} (distinct : stack.Nodup)
    (running : ∀ other ∈ stack,
      (schedule.stages.set coroutine stage)[other]? = some .running) :
    Sound { schedule with stages := schedule.stages.set coroutine stage, stack } where
  timers := sound.timers
  posted := sound.posted
  distinct := distinct
  running := running
  sleeping := by
    intro other number asleep
    have inside := (List.getElem?_eq_some_iff.mp found).1
    by_cases same : coroutine = other
    · subst same
      change (schedule.stages.set coroutine stage)[coroutine]? = _ at asleep
      rw [List.getElem?_set_self inside] at asleep
      exact absurd (Option.some.inj asleep) (still number)
    · change (schedule.stages.set coroutine stage)[other]? = _ at asleep
      rw [List.getElem?_set_ne same] at asleep
      exact sound.sleeping other number asleep
  sleeps := by
    intro number sleep posted
    have known := sound.sleeps number sleep posted
    obtain ⟨asleep, woken⟩ := stages_set known found awake stage
    exact ⟨known.unfired, asleep, woken⟩
  resumed := by
    intro resume inside
    have known := sound.resumed resume inside
    exact ⟨known.called, known.suspended, known.notEarly⟩
  once := sound.once
  workCount := sound.workCount

/-- The coroutines behind the first one on the stack are other ones. -/
theorem Sound.behind (sound : schedule.Sound) {coroutine : Nat} {stack : List Nat}
    (top : schedule.stack = coroutine :: stack) :
    schedule.stages[coroutine]? = some .running ∧ stack.Nodup ∧
      ∀ stage, ∀ other ∈ stack,
        (schedule.stages.set coroutine stage)[other]? = some .running := by
  have distinct := sound.distinct
  rw [top] at distinct
  obtain ⟨fresh, rest⟩ := List.nodup_cons.mp distinct
  refine ⟨sound.running coroutine (top ▸ List.mem_cons_self), rest, fun stage other inside => ?_⟩
  have differs : coroutine ≠ other := fun same => fresh (same ▸ inside)
  rw [List.getElem?_set_ne differs]
  exact sound.running other (top ▸ List.mem_cons_of_mem coroutine inside)

theorem Sound.leave (sound : schedule.Sound) {stage : Stage}
    (still : ∀ number, stage ≠ .sleeping number) (taken : schedule.leave stage = some next) :
    next.Sound := by
  rw [Schedule.leave] at taken
  split at taken
  · cases taken
  · rename_i coroutine stack top
    cases taken
    obtain ⟨found, distinct, running⟩ := sound.behind top
    exact sound.restage found awake_running still distinct (running stage)

/-- A coroutine that is suspended goes on, inside of the run of the one that it has been resumed
by. -/
theorem Sound.push (sound : schedule.Sound) {coroutine : Nat} {stage : Stage}
    (found : schedule.stages[coroutine]? = some stage) (suspended : stage ≠ .running) :
    (coroutine :: schedule.stack).Nodup ∧ ∀ other ∈ coroutine :: schedule.stack,
      (schedule.stages.set coroutine .running)[other]? = some .running := by
  have fresh : coroutine ∉ schedule.stack := by
    intro inside
    have runs := sound.running coroutine inside
    rw [found] at runs
    exact suspended (Option.some.inj runs)
  refine ⟨List.nodup_cons.mpr ⟨fresh, sound.distinct⟩, fun other inside => ?_⟩
  rcases List.mem_cons.mp inside with rfl | behind
  · exact List.getElem?_set_self (List.getElem?_eq_some_iff.mp found).1
  · have differs : coroutine ≠ other := fun same => fresh (same ▸ behind)
    rw [List.getElem?_set_ne differs]
    exact sound.running other behind

theorem Sound.goOn (sound : schedule.Sound) {coroutine : Nat}
    (paused : schedule.stages[coroutine]? = some .paused) :
    Sound { schedule with
      stages := schedule.stages.set coroutine .running
      stack := coroutine :: schedule.stack } := by
  obtain ⟨distinct, running⟩ := sound.push paused fun wrong => by cases wrong
  exact sound.restage paused awake_paused awake_running.2 distinct running

theorem Sound.spawn (sound : schedule.Sound) : schedule.spawn.Sound := by
  have old {coroutine : Nat} {stage : Stage}
      (found : schedule.stages[coroutine]? = some stage) :
      (schedule.stages ++ [.running])[coroutine]? = some stage := by
    rw [List.getElem?_append_left (List.getElem?_eq_some_iff.mp found).1]
    exact found
  refine ⟨sound.timers, sound.posted, ?_, ?_, ?_, ?_, ?_, sound.once, sound.workCount⟩
  · refine List.nodup_cons.mpr ⟨fun inside => ?_, sound.distinct⟩
    have runs := sound.running _ inside
    rw [List.getElem?_eq_none (Nat.le_refl _)] at runs
    cases runs
  · rintro coroutine (_ | ⟨_, inside⟩)
    · exact List.getElem?_concat_length
    · exact old (sound.running coroutine inside)
  · intro coroutine number asleep
    change (schedule.stages ++ [.running])[coroutine]? = _ at asleep
    rw [List.getElem?_append] at asleep
    split at asleep
    · exact sound.sleeping coroutine number asleep
    · obtain ⟨_, wrong⟩ := List.getElem?_eq_some_iff.mp asleep
      rw [List.getElem_singleton] at wrong
      cases wrong
  · intro number sleep found
    have known := sound.sleeps number sleep found
    exact ⟨known.unfired, fun guard => old (known.asleep guard), fun released =>
      (known.woken released).imp_left old⟩
  · intro resume inside
    have known := sound.resumed resume inside
    exact ⟨known.called, known.suspended, known.notEarly⟩

/-- A callback that has run has been posted. -/
theorem Sound.lt_of_mem_ran (sound : schedule.Sound) {number : Nat}
    (ran : some number ∈ schedule.timers.ran) : number < schedule.callbacks.length := by
  obtain ⟨pass, inside, called⟩ := List.mem_flatMap.mp ran
  obtain ⟨deadline, _, other, same, found⟩ :=
    (sound.timers.passes pass inside).due _ (List.mem_append_left _ called)
  cases same
  rw [sound.posted]
  exact (List.getElem?_eq_some_iff.mp found).1

theorem Sound.sleep (sound : schedule.Sound) (deadline : Nat) {coroutine : Nat} {stack : List Nat}
    (top : schedule.stack = coroutine :: stack) :
    (schedule.sleep deadline coroutine stack).Sound := by
  rw [Schedule.sleep]
  split
  · exact sound
  · obtain ⟨runs, distinct, running⟩ := sound.behind top
    have inside := (List.getElem?_eq_some_iff.mp runs).1
    have last : (schedule.callbacks ++ [some (SleepCallback.mk coroutine true true)])[
        schedule.callbacks.length]? = some (some (SleepCallback.mk coroutine true true)) :=
      List.getElem?_concat_length
    refine ⟨sound.timers.postAt deadline, ?_, distinct, running _, ?_, ?_, ?_, sound.once, ?_⟩
    · show (schedule.callbacks ++ [_]).length = (schedule.timers.deadlines ++ [deadline]).length
      rw [List.length_append, List.length_append, sound.posted]
      rfl
    · intro other number asleep
      by_cases same : coroutine = other
      · subst same
        change (schedule.stages.set coroutine _)[coroutine]? = _ at asleep
        rw [List.getElem?_set_self inside] at asleep
        cases asleep
        exact last
      · change (schedule.stages.set coroutine _)[other]? = _ at asleep
        rw [List.getElem?_set_ne same] at asleep
        have found := sound.sleeping other number asleep
        show (schedule.callbacks ++ [_])[number]? = _
        rw [List.getElem?_append_left (List.getElem?_eq_some_iff.mp found).1]
        exact found
    · intro number sleep found
      rcases getElem?_concat found with earlier | ⟨isLast, same⟩
      · have known := sound.sleeps number sleep earlier
        obtain ⟨asleep, woken⟩ :=
          stages_set known runs awake_running (.sleeping schedule.callbacks.length)
        exact ⟨known.unfired, asleep, woken⟩
      · cases same
        rw [isLast]
        refine ⟨iff_of_true rfl fun ran => ?_, fun _ => ?_, fun wrong => by cases wrong⟩
        · exact Nat.lt_irrefl _ (sound.lt_of_mem_ran ran)
        · exact List.getElem?_set_self inside
    · intro resume inside
      obtain ⟨called, notEarly⟩ := sound.post deadline (some ⟨coroutine, true, true⟩) inside
      exact ⟨called, (sound.resumed resume inside).suspended, notEarly⟩
    · show schedule.workCount + 1 = (schedule.callbacks ++ [some _]).countP holdsGuard
      rw [List.countP_append, sound.workCount]
      rfl

/-! ### What a `scheduled_task` does -/

/-- What is known does not depend on who has the handles. -/
theorem Sound.withTasks (sound : schedule.Sound) (tasks : List (Option Nat)) :
    Sound { schedule with tasks } where
  timers := sound.timers
  posted := sound.posted
  distinct := sound.distinct
  running := sound.running
  sleeping := sound.sleeping
  sleeps := by
    intro number sleep found
    have known := sound.sleeps number sleep found
    exact ⟨known.unfired, known.asleep, known.woken⟩
  resumed := by
    intro resume inside
    have known := sound.resumed resume inside
    exact ⟨known.called, known.suspended, known.notEarly⟩
  once := sound.once
  workCount := sound.workCount

theorem clearAlive_eq {callbacks : List (Option SleepCallback)} {number : Nat}
    {sleep : SleepCallback} (found : callbacks[number]? = some (some sleep)) :
    clearAlive callbacks number = callbacks.set number (some { sleep with alive := false }) := by
  rw [clearAlive, found]

/-- The awaiter of a coroutine that is destroyed clears the flag. -/
theorem Sound.callbacks_destroy (sound : schedule.Sound) (coroutine : Nat) :
    (∃ number, schedule.stages[coroutine]? = some (.sleeping number) ∧
      (schedule.destroy coroutine).callbacks =
        schedule.callbacks.set number (some { coroutine, alive := false })) ∨
    (∀ number, schedule.stages[coroutine]? ≠ some (.sleeping number)) ∧
      (schedule.destroy coroutine).callbacks = schedule.callbacks := by
  rw [Schedule.destroy]
  split
  · rename_i number asleep
    exact Or.inl ⟨number, asleep, clearAlive_eq (sound.sleeping coroutine number asleep)⟩
  · rename_i awake
    exact Or.inr ⟨awake, rfl⟩

theorem Sound.destroy_self (sound : schedule.Sound) {coroutine number : Nat}
    (asleep : schedule.stages[coroutine]? = some (.sleeping number)) :
    (schedule.destroy coroutine).callbacks[number]? =
      some (some { coroutine, alive := false }) := by
  have inside := (List.getElem?_eq_some_iff.mp (sound.sleeping coroutine number asleep)).1
  rcases sound.callbacks_destroy coroutine with ⟨other, asleepToo, set⟩ | ⟨awake, _⟩
  · rw [asleep] at asleepToo
    cases asleepToo
    rw [set, List.getElem?_set_self inside]
  · exact absurd asleep (awake number)

/-- A callback keeps its flag if the coroutine was not in this sleep. -/
theorem Sound.destroy_other (sound : schedule.Sound) {coroutine number : Nat}
    (awake : schedule.stages[coroutine]? ≠ some (.sleeping number)) :
    (schedule.destroy coroutine).callbacks[number]? = schedule.callbacks[number]? := by
  rcases sound.callbacks_destroy coroutine with ⟨other, asleep, set⟩ | ⟨_, same⟩
  · have differs : other ≠ number := by
      intro same
      rw [same] at asleep
      exact awake asleep
    rw [set, List.getElem?_set_ne differs]
  · rw [same]

theorem Sound.length_destroy (sound : schedule.Sound) (coroutine : Nat) :
    (schedule.destroy coroutine).callbacks.length = schedule.callbacks.length := by
  rcases sound.callbacks_destroy coroutine with ⟨number, _, set⟩ | ⟨_, same⟩
  · rw [set, List.length_set]
  · rw [same]

/-- A cancel leaves the guard to the callback. -/
theorem Sound.countP_destroy (sound : schedule.Sound) (coroutine : Nat) :
    (schedule.destroy coroutine).callbacks.countP holdsGuard =
      schedule.callbacks.countP holdsGuard := by
  rcases sound.callbacks_destroy coroutine with ⟨number, asleep, set⟩ | ⟨_, same⟩
  · obtain ⟨inside, here⟩ :=
      List.getElem?_eq_some_iff.mp (sound.sleeping coroutine number asleep)
    have positive : 0 < schedule.callbacks.countP holdsGuard :=
      List.countP_pos_iff.mpr ⟨_, List.getElem_mem inside, by rw [here]; rfl⟩
    rw [set, List.countP_set inside, here]
    exact Nat.sub_add_cancel positive
  · rw [same]

/-- What is known of a sleep when a coroutine has been destroyed. -/
theorem Sound.sleep_destroy (sound : schedule.Sound) {coroutine number : Nat}
    (inside : coroutine < schedule.stages.length) {sleep : SleepCallback}
    (found : (schedule.destroy coroutine).callbacks[number]? = some (some sleep)) :
    sleep.Sound (schedule.destroy coroutine) number := by
  have gone : (schedule.stages.set coroutine .destroyed)[coroutine]? = some .destroyed :=
    List.getElem?_set_self inside
  by_cases asleep : schedule.stages[coroutine]? = some (.sleeping number)
  · rw [sound.destroy_self asleep] at found
    cases found
    have known := sound.sleeps number _ (sound.sleeping coroutine number asleep)
    exact ⟨known.unfired, fun _ => gone, fun _ => Or.inl gone⟩
  · rw [sound.destroy_other asleep] at found
    have known := sound.sleeps number sleep found
    by_cases same : coroutine = sleep.coroutine
    · have goneToo : (schedule.destroy coroutine).stages[sleep.coroutine]? = some .destroyed :=
        same ▸ gone
      refine ⟨known.unfired, fun guard => ?_, fun _ => Or.inl goneToo⟩
      -- the flag was clear, or the coroutine would be in this sleep
      have here := known.asleep guard
      cases flag : sleep.alive with
      | true =>
        rw [flag, ← same] at here
        exact absurd here asleep
      | false => exact goneToo
    · have kept : (schedule.stages.set coroutine .destroyed)[sleep.coroutine]? =
          schedule.stages[sleep.coroutine]? := List.getElem?_set_ne same
      refine ⟨known.unfired, fun guard => kept.trans (known.asleep guard), fun released => ?_⟩
      exact (known.woken released).imp_left kept.trans

theorem Sound.destroy (sound : schedule.Sound) {coroutine : Nat}
    (suspended : coroutine ∉ schedule.stack) (inside : coroutine < schedule.stages.length) :
    (schedule.destroy coroutine).Sound where
  timers := sound.timers
  posted := (sound.length_destroy coroutine).trans sound.posted
  distinct := sound.distinct
  running := by
    intro other onStack
    have differs : coroutine ≠ other := fun same => suspended (same ▸ onStack)
    exact (List.getElem?_set_ne differs).trans (sound.running other onStack)
  sleeping := by
    intro other number asleep
    change (schedule.stages.set coroutine .destroyed)[other]? = _ at asleep
    by_cases same : coroutine = other
    · rw [← same, List.getElem?_set_self inside] at asleep
      cases asleep
    · rw [List.getElem?_set_ne same] at asleep
      have found := sound.sleeping other number asleep
      refine (sound.destroy_other fun wrong => ?_).trans found
      have foundToo := sound.sleeping coroutine number wrong
      rw [found] at foundToo
      cases foundToo
      exact same rfl
  sleeps := fun _ _ => sound.sleep_destroy inside
  resumed := by
    intro resume made
    have known := sound.resumed resume made
    obtain ⟨sleep, found, released⟩ := known.called
    refine ⟨⟨sleep, (sound.destroy_other fun wrong => ?_).trans found, released⟩,
      known.suspended, known.notEarly⟩
    have foundToo := sound.sleeping coroutine resume.number wrong
    rw [found] at foundToo
    cases foundToo
    cases released
  once := sound.once
  workCount := sound.workCount.trans (sound.countP_destroy coroutine).symm

theorem Sound.cancel (sound : schedule.Sound) (owned : schedule.Owned) {task : Nat}
    (taken : schedule.cancel task = some next) : next.Sound := by
  rw [Schedule.cancel] at taken
  split at taken
  · cases taken
  · cases taken
    exact sound
  · rename_i coroutine handle
    split at taken
    · cases taken
    · rename_i suspended
      cases taken
      obtain ⟨stage, found, _⟩ := owned.undestroyed coroutine (List.mem_of_getElem? handle)
      exact (sound.destroy suspended (List.getElem?_eq_some_iff.mp found).1).withTasks _

theorem Sound.handOver (sound : schedule.Sound) (task other : Nat) :
    (schedule.handOver task other).Sound := by
  rw [Schedule.handOver]
  split
  · exact sound
  · exact sound.withTasks _

theorem Sound.assign (sound : schedule.Sound) (owned : schedule.Owned) {task other : Nat}
    (taken : schedule.assign task other = some next) : next.Sound := by
  rw [Schedule.assign] at taken
  split at taken
  · cases taken
    exact sound
  · obtain ⟨middle, cancelled, rfl⟩ := Option.map_eq_some_iff.mp taken
    exact (sound.cancel owned cancelled).handOver task other

/-! ### What the callback of a sleep does -/

/-- What the call of a callback leaves: the timers have called it and no other one. -/
structure Calls (schedule : Schedule) (callback : Nat) (timers : Timers) : Prop where
  sound : timers.Sound
  deadlines : timers.deadlines = schedule.timers.deadlines
  ran : ∀ other, other ∈ timers.ran ↔ other = some callback ∨ other ∈ schedule.timers.ran
  fresh : some callback ∉ schedule.timers.ran
  due : ∃ deadline ≤ timers.clock, Dated timers.deadlines (some callback) deadline

/-- What a call of `process_timers` calls is due, and it has not been called. -/
theorem Sound.call (sound : schedule.Sound) {number callback : Nat} {pass : Pass}
    {expired : List Callback} (found : schedule.timers.passes[number]? = some pass)
    (first : pass.expired = some callback :: expired) :
    schedule.Calls callback (schedule.timers.call number pass (some callback) expired) := by
  have kept := sound.timers.call found first
  have ran := Timers.ran_call found (some callback) expired
  have distinct := ran.nodup_iff.mp kept.fireInOrder.once
  refine ⟨kept, rfl, fun other => ran.mem_iff.trans List.mem_cons,
    (List.nodup_cons.mp distinct).1, ?_⟩
  have passSound := sound.timers.passes pass (List.mem_of_getElem? found)
  have inside : some callback ∈ pass.callbacks :=
    List.mem_append_right _ (first ▸ List.mem_cons_self)
  obtain ⟨deadline, due, dated⟩ := passSound.due (some callback) inside
  exact ⟨deadline, Nat.le_trans due passSound.read, dated⟩

theorem Calls.unfired {callback : Nat} {timers : Timers} (calls : schedule.Calls callback timers)
    {number : Nat} {sleep : SleepCallback} (known : sleep.Sound schedule number)
    (other : number ≠ callback) : sleep.guard = true ↔ some number ∉ timers.ran := by
  rw [calls.ran, known.unfired]
  refine not_congr ⟨Or.inr, fun both => ?_⟩
  rcases both with same | ran
  · exact absurd (Option.some.inj same) other
  · exact ran

theorem Calls.notEarly {callback : Nat} {timers : Timers} (calls : schedule.Calls callback timers)
    {resume : Resume} (known : resume.Sound schedule) :
    ∃ deadline ≤ resume.time, Dated timers.deadlines (some resume.number) deadline := by
  rw [calls.deadlines]
  exact known.notEarly

/-- The callback of a sleep releases its guard. The coroutines that are not in this sleep stay where
they are, and the one that is in it leaves it. -/
theorem Sound.released (sound : schedule.Sound) {callback : Nat} {timers : Timers}
    (calls : schedule.Calls callback timers) {sleep : SleepCallback}
    (found : schedule.callbacks[callback]? = some (some sleep)) {stages : List Stage}
    {stack : List Nat} {resumes : List Resume}
    (kept : ∀ (other : Nat) stage, schedule.stages[other]? = some stage →
      stage ≠ .sleeping callback → stages[other]? = some stage)
    (asleep : ∀ (other number : Nat), stages[other]? = some (.sleeping number) →
      schedule.stages[other]? = some (.sleeping number) ∧ number ≠ callback)
    (distinct : stack.Nodup) (running : ∀ other ∈ stack, stages[other]? = some .running)
    (woken : stages[sleep.coroutine]? = some .destroyed ∨ callback ∈ resumes.map (·.number))
    (more : ∀ resume ∈ schedule.resumes, resume ∈ resumes)
    (made : ∀ resume ∈ resumes, resume ∈ schedule.resumes ∨ resume.number = callback ∧
      resume.stage = some (.sleeping callback) ∧ resume.time = timers.clock)
    (once : (resumes.map (·.number)).Nodup) :
    Sound { schedule with
      timers, stages, stack, resumes
      workCount := schedule.workCount - 1
      callbacks := schedule.callbacks.set callback
        (some { sleep with guard := false, alive := false }) } := by
  have inside := (List.getElem?_eq_some_iff.mp found).1
  have guard : sleep.guard = true := (sound.sleeps callback sleep found).unfired.mpr calls.fresh
  have set : (schedule.callbacks.set callback
      (some { sleep with guard := false, alive := false }))[callback]? =
        some (some { sleep with guard := false, alive := false }) := List.getElem?_set_self inside
  refine ⟨calls.sound, ?_, distinct, running, ?_, ?_, ?_, once, ?_⟩
  · exact List.length_set.trans (sound.posted.trans (congrArg List.length calls.deadlines.symm))
  · intro other number sleeps
    obtain ⟨before, differs⟩ := asleep other number sleeps
    exact (List.getElem?_set_ne differs.symm).trans (sound.sleeping other number before)
  · intro number each posted
    by_cases same : callback = number
    · subst same
      rw [set] at posted
      cases posted
      refine ⟨iff_of_false ?_ ?_, ?_, fun _ => woken⟩
      · exact fun wrong => by cases wrong
      · exact fun unfired => unfired ((calls.ran _).mpr (Or.inl rfl))
      · exact fun wrong => by cases wrong
    · rw [List.getElem?_set_ne same] at posted
      have known := sound.sleeps number each posted
      have differs : number ≠ callback := fun wrong => same wrong.symm
      refine ⟨calls.unfired known differs, fun holds => ?_, fun released => ?_⟩
      · refine kept _ _ (known.asleep holds) ?_
        split
        · intro wrong
          cases wrong
          exact differs rfl
        · exact fun wrong => by cases wrong
      · rcases known.woken released with gone | resumed
        · exact Or.inl (kept _ _ gone fun wrong => by cases wrong)
        · obtain ⟨resume, inResumes, same⟩ := List.mem_map.mp resumed
          exact Or.inr (List.mem_map.mpr ⟨resume, more resume inResumes, same⟩)
  · intro resume inResumes
    rcases made resume inResumes with earlier | ⟨same, stage, time⟩
    · have known := sound.resumed resume earlier
      refine ⟨?_, known.suspended, calls.notEarly known⟩
      obtain ⟨each, posted, released⟩ := known.called
      have differs : callback ≠ resume.number := by
        intro same
        rw [← same, found] at posted
        cases posted
        rw [guard] at released
        cases released
      exact ⟨each, (List.getElem?_set_ne differs).trans posted, released⟩
    · refine ⟨⟨{ sleep with guard := false, alive := false }, ?_, rfl⟩, ?_, ?_⟩
      · rw [same]
        exact set
      · rw [same]
        exact stage
      · rw [same, time]
        exact calls.due
  · obtain ⟨_, here⟩ := List.getElem?_eq_some_iff.mp found
    have held : holdsGuard (some sleep) = true := guard
    show schedule.workCount - 1 = _
    rw [List.countP_set inside, here, held, sound.workCount]
    rfl

/-- The callback of a sleep whose flag is set resumes the coroutine. -/
theorem fire_alive (timers : Timers) {callback : Nat} {sleep : SleepCallback}
    (found : schedule.callbacks[callback]? = some (some sleep)) (guard : sleep.guard = true)
    (alive : sleep.alive = true) :
    Schedule.fire { schedule with timers } callback = { schedule with
      timers
      stages := schedule.stages.set sleep.coroutine .running
      stack := sleep.coroutine :: schedule.stack
      workCount := schedule.workCount - 1
      callbacks := schedule.callbacks.set callback
        (some { sleep with guard := false, alive := false })
      resumes := schedule.resumes ++
        [⟨callback, schedule.stages[sleep.coroutine]?, timers.clock⟩] } := by
  have inside := (List.getElem?_eq_some_iff.mp found).1
  have cleared (released : SleepCallback) :
      clearAlive (schedule.callbacks.set callback (some released)) callback =
        schedule.callbacks.set callback (some { released with alive := false }) := by
    rw [clearAlive_eq (List.getElem?_set_self inside), List.set_set]
  simp only [fire, found, alive, if_true, releaseGuard, guard, resume, cleared]

/-- The callback of a sleep whose flag is clear releases the guard, and no more. -/
theorem fire_dead (timers : Timers) {callback : Nat} {sleep : SleepCallback}
    (found : schedule.callbacks[callback]? = some (some sleep)) (guard : sleep.guard = true)
    (dead : sleep.alive = false) :
    Schedule.fire { schedule with timers } callback = { schedule with
      timers
      workCount := schedule.workCount - 1
      callbacks := schedule.callbacks.set callback
        (some { sleep with guard := false, alive := false }) } := by
  simp only [fire, found, dead, releaseGuard, guard, if_true]
  rfl

theorem fire_other (timers : Timers) {callback : Nat}
    (other : ∀ sleep, schedule.callbacks[callback]? ≠ some (some sleep)) :
    Schedule.fire { schedule with timers } callback = { schedule with timers } := by
  rw [fire]
  split
  · rename_i sleep found
    exact absurd found (other sleep)
  · rfl

theorem Sound.fire_alive (sound : schedule.Sound) {callback : Nat} {timers : Timers}
    (calls : schedule.Calls callback timers) {sleep : SleepCallback}
    (found : schedule.callbacks[callback]? = some (some sleep)) (alive : sleep.alive = true) :
    (Schedule.fire { schedule with timers } callback).Sound := by
  have known := sound.sleeps callback sleep found
  have guard : sleep.guard = true := known.unfired.mpr calls.fresh
  have here := known.asleep guard
  rw [alive, if_pos rfl] at here
  obtain ⟨distinct, running⟩ := sound.push here fun wrong => by cases wrong
  have isInside := (List.getElem?_eq_some_iff.mp here).1
  have others {other : Nat} {stage : Stage} (found : schedule.stages[other]? = some stage)
      (differs : stage ≠ .sleeping callback) : sleep.coroutine ≠ other := by
    intro same
    rw [← same, here] at found
    exact differs (Option.some.inj found).symm
  have fresh : callback ∉ schedule.resumes.map (·.number) := by
    intro wrong
    obtain ⟨resume, made, rfl⟩ := List.mem_map.mp wrong
    obtain ⟨each, posted, released⟩ := (sound.resumed resume made).called
    rw [found] at posted
    cases posted
    rw [guard] at released
    cases released
  rw [Schedule.fire_alive timers found guard alive]
  refine sound.released calls found ?_ ?_ distinct running ?_ ?_ ?_ ?_
  · exact fun other stage before differs =>
      (List.getElem?_set_ne (others before differs)).trans before
  · intro other number asleep
    by_cases same : sleep.coroutine = other
    · rw [← same, List.getElem?_set_self isInside] at asleep
      cases asleep
    · rw [List.getElem?_set_ne same] at asleep
      refine ⟨asleep, fun wrong => same ?_⟩
      have posted := sound.sleeping other number asleep
      rw [wrong, found] at posted
      exact congrArg SleepCallback.coroutine (Option.some.inj (Option.some.inj posted))
  · exact Or.inr (List.mem_map.mpr ⟨_, List.mem_append_right _ (List.mem_singleton.mpr rfl), rfl⟩)
  · exact fun resume made => List.mem_append_left _ made
  · intro resume made
    rcases List.mem_append.mp made with earlier | last
    · exact Or.inl earlier
    · cases List.mem_singleton.mp last
      exact Or.inr ⟨rfl, here, rfl⟩
  · rw [List.map_append]
    refine List.nodup_append.mpr ⟨sound.once, List.nodup_singleton _, ?_⟩
    intro number made other last same
    have isLast : other = callback := List.mem_singleton.mp last
    rw [same, isLast] at made
    exact fresh made

theorem Sound.fire_dead (sound : schedule.Sound) {callback : Nat} {timers : Timers}
    (calls : schedule.Calls callback timers) {sleep : SleepCallback}
    (found : schedule.callbacks[callback]? = some (some sleep)) (dead : sleep.alive = false) :
    (Schedule.fire { schedule with timers } callback).Sound := by
  have known := sound.sleeps callback sleep found
  have guard : sleep.guard = true := known.unfired.mpr calls.fresh
  have here := known.asleep guard
  rw [dead, if_neg Bool.false_ne_true] at here
  rw [Schedule.fire_dead timers found guard dead]
  refine sound.released calls found ?_ ?_ sound.distinct sound.running (Or.inl here) ?_ ?_
    sound.once
  · exact fun other stage before _ => before
  · intro other number asleep
    refine ⟨asleep, fun wrong => ?_⟩
    have posted := sound.sleeping other number asleep
    rw [wrong, found] at posted
    cases posted
    cases dead
  · exact fun resume made => made
  · exact fun resume made => Or.inl made

theorem Sound.fire_other (sound : schedule.Sound) {callback : Nat} {timers : Timers}
    (calls : schedule.Calls callback timers)
    (other : ∀ sleep, schedule.callbacks[callback]? ≠ some (some sleep)) :
    (Schedule.fire { schedule with timers } callback).Sound := by
  rw [Schedule.fire_other timers other]
  refine ⟨calls.sound, ?_, sound.distinct, sound.running, sound.sleeping, ?_, ?_, sound.once,
    sound.workCount⟩
  · exact sound.posted.trans (congrArg List.length calls.deadlines.symm)
  · intro number sleep found
    have known := sound.sleeps number sleep found
    have differs : number ≠ callback := by
      intro same
      rw [same] at found
      exact other sleep found
    exact ⟨calls.unfired known differs, known.asleep, known.woken⟩
  · intro resume made
    have known := sound.resumed resume made
    exact ⟨known.called, known.suspended, calls.notEarly known⟩

theorem Sound.fire (sound : schedule.Sound) {callback : Nat} {timers : Timers}
    (calls : schedule.Calls callback timers) :
    (Schedule.fire { schedule with timers } callback).Sound := by
  by_cases isSleep : ∃ sleep, schedule.callbacks[callback]? = some (some sleep)
  · obtain ⟨sleep, found⟩ := isSleep
    cases flag : sleep.alive with
    | true => exact sound.fire_alive calls found flag
    | false => exact sound.fire_dead calls found flag
  · exact sound.fire_other calls fun sleep found => isSleep ⟨sleep, found⟩

/-! ### Steps -/

/-- A step of the timers that calls nothing and posts nothing. -/
theorem Sound.quiet (sound : schedule.Sound) (action : TimerAction)
    (notCall : ∀ number, action ≠ .call number) (notPost : ∀ deadline, action ≠ .postAt deadline)
    (taken : (schedule.timers.step action).map (fun timers => { schedule with timers }) =
      some next) : next.Sound := by
  obtain ⟨timers, stepped, rfl⟩ := Option.map_eq_some_iff.mp taken
  exact sound.withTimers (sound.timers.step stepped) (Timers.ran_step stepped notCall)
    (Timers.deadlines_step stepped notPost)

theorem Sound.step (sound : schedule.Sound) (owned : schedule.Owned) {action : ScheduleAction}
    (taken : schedule.step action = some next) : next.Sound := by
  cases action with
  | tick time =>
    exact sound.quiet (.tick time) (fun _ wrong => by cases wrong) (fun _ wrong => by cases wrong)
      taken
  | spawn =>
    cases taken
    exact sound.spawn
  | sleep deadline =>
    rw [Schedule.step] at taken
    split at taken
    · cases taken
    · rename_i coroutine stack top
      cases taken
      exact sound.sleep deadline top
  | pause => exact sound.leave awake_paused.2 taken
  | goOn coroutine =>
    rw [Schedule.step] at taken
    split at taken
    · rename_i paused
      cases taken
      exact sound.goOn paused
    · cases taken
  | finish => exact sound.leave (fun _ wrong => by cases wrong) taken
  | cancel task => exact sound.cancel owned taken
  | assign task other => exact sound.assign owned taken
  | postAt deadline =>
    cases taken
    exact sound.postAt deadline
  | begin =>
    exact sound.quiet .begin (fun _ wrong => by cases wrong) (fun _ wrong => by cases wrong) taken
  | take number =>
    exact sound.quiet (.take number) (fun _ wrong => by cases wrong) (fun _ wrong => by cases wrong)
      taken
  | call number =>
    rw [Schedule.step] at taken
    split at taken
    · cases taken
    · rename_i pass found
      split at taken
      · rename_i callback expired first
        cases taken
        exact sound.fire (sound.call found first)
      · cases taken

/-! ### The sleeps that have not ended -/

/-- The timer of a sleep has not fired as long as its callback holds the guard. -/
theorem Sound.holdsGuard_iff (sound : schedule.Sound) (number : Nat) :
    schedule.callbacks[number]?.any holdsGuard = true ↔
      (schedule.callbacks[number]?.join.isSome && decide (some number ∉ schedule.timers.ran)) =
        true := by
  rw [Bool.and_eq_true, decide_eq_true_iff]
  cases found : schedule.callbacks[number]? with
  | none => exact iff_of_false Bool.false_ne_true fun both => Bool.false_ne_true both.1
  | some callback =>
    cases callback with
    | none => exact iff_of_false Bool.false_ne_true fun both => Bool.false_ne_true both.1
    | some sleep =>
      have known := sound.sleeps number sleep found
      show sleep.guard = true ↔ _
      rw [known.unfired]
      exact ⟨fun unrun => ⟨rfl, unrun⟩, And.right⟩

/-- The places of a list at which a condition holds are as many as the entries that meet it. -/
theorem countP_eq_length_places {callbacks : List (Option SleepCallback)}
    (counts : Option SleepCallback → Bool) :
    callbacks.countP counts = ((List.range callbacks.length).filter fun number =>
      callbacks[number]?.any counts).length := by
  induction callbacks using List.reverseRecOn with
  | nil => rfl
  | append_singleton callbacks callback inductionHypothesis =>
    have before : (List.range callbacks.length).filter (fun number =>
        (callbacks ++ [callback])[number]?.any counts) =
          (List.range callbacks.length).filter fun number => callbacks[number]?.any counts := by
      refine List.filter_congr fun number inside => ?_
      rw [List.getElem?_append_left (List.mem_range.mp inside)]
    rw [List.countP_append, inductionHypothesis, List.length_append, List.length_singleton,
      List.range_succ, List.filter_append, List.length_append, before, List.countP_singleton,
      List.filter_singleton, List.getElem?_concat_length]
    show _ = _ + (bif counts callback then [callbacks.length] else []).length
    cases counts callback <;> rfl

theorem Sound.workCount_eq (sound : schedule.Sound) :
    schedule.workCount = schedule.unfired.length := by
  rw [sound.workCount, countP_eq_length_places]
  refine congrArg List.length (List.filter_congr fun number _ => ?_)
  exact Bool.eq_iff_iff.mpr (sound.holdsGuard_iff number)

theorem Sound.waits (sound : schedule.Sound) {number : Nat}
    (unfired : number ∈ schedule.unfired) :
    some number ∈ schedule.timers.timers.toList.map (·.callback) ∨
      ∃ pass ∈ schedule.timers.passes, some number ∈ pass.expired := by
  obtain ⟨inside, holds⟩ := List.mem_filter.mp unfired
  have unrun : some number ∉ schedule.timers.ran :=
    of_decide_eq_true (Bool.and_eq_true_iff.mp holds).2
  have somewhere : some number ∈ schedule.timers.passes.flatMap Pass.callbacks ++
      schedule.timers.timers.toList.map (·.callback) := by
    refine sound.timers.once.mem_iff.mpr (List.mem_map.mpr ⟨number, ?_, rfl⟩)
    rw [← sound.posted]
    exact inside
  rcases List.mem_append.mp somewhere with taken | queued
  · obtain ⟨pass, isPass, among⟩ := List.mem_flatMap.mp taken
    rcases List.mem_append.mp among with ran | waits
    · exact absurd (List.mem_flatMap.mpr ⟨pass, isPass, ran⟩) unrun
    · exact Or.inr ⟨pass, isPass, waits⟩
  · exact Or.inl queued

theorem Sound.fired (sound : schedule.Sound) {number : Nat} {sleep : SleepCallback}
    (found : schedule.callbacks[number]? = some (some sleep))
    (undestroyed : schedule.stages[sleep.coroutine]? ≠ some .destroyed) :
    number ∈ schedule.resumes.map (·.number) ↔ some number ∈ schedule.timers.ran := by
  have known := sound.sleeps number sleep found
  constructor
  · intro resumed
    obtain ⟨resume, made, rfl⟩ := List.mem_map.mp resumed
    obtain ⟨each, posted, released⟩ := (sound.resumed resume made).called
    rw [found] at posted
    cases posted
    refine Decidable.not_not.mp fun unrun => ?_
    rw [known.unfired.mpr unrun] at released
    cases released
  · intro ran
    have released : sleep.guard = false :=
      Bool.eq_false_iff.mpr fun guard => known.unfired.mp guard ran
    exact (known.woken released).resolve_left undestroyed

theorem Sound.safe (sound : schedule.Sound) (owned : schedule.Owned) : schedule.Safe where
  suspended := fun resume made => (sound.resumed resume made).suspended
  notEarly := fun resume made => (sound.resumed resume made).notEarly
  once := sound.once
  fired := fun _ _ => sound.fired
  workCount := sound.workCount_eq
  waits := fun _ => sound.waits
  handles := by
    intro coroutine handle destroyed
    obtain ⟨stage, found, undestroyed⟩ := owned.undestroyed coroutine handle
    rw [destroyed] at found
    exact undestroyed (Option.some.inj found).symm

/-! ### Runs -/

theorem timers_cancel {task : Nat} (taken : schedule.cancel task = some next) :
    next.timers = schedule.timers := by
  rw [Schedule.cancel] at taken
  split at taken
  · cases taken
  · cases taken
    rfl
  · split at taken
    · cases taken
    · cases taken
      rfl

theorem timers_assign {task other : Nat} (taken : schedule.assign task other = some next) :
    next.timers = schedule.timers := by
  rw [Schedule.assign] at taken
  split at taken
  · cases taken
    rfl
  · obtain ⟨middle, cancelled, rfl⟩ := Option.map_eq_some_iff.mp taken
    rw [← timers_cancel cancelled, Schedule.handOver]
    split <;> rfl

theorem timers_leave {stage : Stage} (taken : schedule.leave stage = some next) :
    next.timers = schedule.timers := by
  rw [Schedule.leave] at taken
  split at taken
  · cases taken
  · cases taken
    rfl

theorem timers_fire_eq (callback : Nat) : (schedule.fire callback).timers = schedule.timers := by
  rw [Schedule.fire]
  split
  · show (if _ then _ else _ : Schedule).timers = _
    split <;> rfl
  · rfl

/-- A step is a step of the timers, or leaves them. -/
theorem timers_step {action : ScheduleAction} (taken : schedule.step action = some next) :
    next.timers = schedule.timers ∨
      ∃ timerAction, schedule.timers.step timerAction = some next.timers := by
  have quiet {timerAction : TimerAction}
      (taken : (schedule.timers.step timerAction).map (fun timers => { schedule with timers }) =
        some next) : ∃ timerAction, schedule.timers.step timerAction = some next.timers := by
    obtain ⟨timers, stepped, rfl⟩ := Option.map_eq_some_iff.mp taken
    exact ⟨timerAction, stepped⟩
  cases action with
  | tick time => exact Or.inr (quiet taken)
  | spawn =>
    cases taken
    exact Or.inl rfl
  | sleep deadline =>
    rw [Schedule.step] at taken
    split at taken
    · cases taken
    · cases taken
      rw [Schedule.sleep]
      split
      · exact Or.inl rfl
      · exact Or.inr ⟨.postAt deadline, rfl⟩
  | pause => exact Or.inl (timers_leave taken)
  | goOn coroutine =>
    rw [Schedule.step] at taken
    split at taken
    · cases taken
      exact Or.inl rfl
    · cases taken
  | finish => exact Or.inl (timers_leave taken)
  | cancel task => exact Or.inl (timers_cancel taken)
  | assign task other => exact Or.inl (timers_assign taken)
  | postAt deadline =>
    cases taken
    exact Or.inr ⟨.postAt deadline, rfl⟩
  | begin =>
    cases taken
    exact Or.inr ⟨.begin, rfl⟩
  | take number => exact Or.inr (quiet taken)
  | call number =>
    rw [Schedule.step] at taken
    split at taken
    · cases taken
    · rename_i pass found
      split at taken
      · rename_i callback expired first
        cases taken
        rw [timers_fire_eq]
        refine Or.inr ⟨.call number, ?_⟩
        simp only [Timers.step, found, first]
      · cases taken

theorem sound_after {actions : List ScheduleAction} (run : after step {} actions = some schedule) :
    schedule.Sound ∧ schedule.Owned := by
  refine after_invariant (fun middle => middle.Sound ∧ middle.Owned)
    (fun middle action last both taken => ?_) ⟨sound_new, owned_new⟩ run
  exact ⟨both.1.step both.2 taken, both.2.step taken⟩

theorem exists_follows_after {actions : List ScheduleAction}
    (run : after step schedule actions = some next) (number : Nat) (pass : Pass)
    (found : schedule.timers.passes[number]? = some pass) :
    ∃ later, next.timers.passes[number]? = some later ∧ pass.Follows later := by
  refine after_invariant
    (fun middle => ∃ later, middle.timers.passes[number]? = some later ∧ pass.Follows later)
    (fun middle action last holds taken => ?_) ⟨pass, found, Pass.Follows.refl pass⟩ run
  obtain ⟨later, foundLater, follows⟩ := holds
  rcases timers_step taken with same | ⟨timerAction, stepped⟩
  · rw [same]
    exact ⟨later, foundLater, follows⟩
  · obtain ⟨latest, foundLatest, followsToo⟩ := Timers.exists_follows stepped foundLater
    exact ⟨latest, foundLatest, follows.trans followsToo⟩

/-- A coroutine that is destroyed is never resumed, and one that is not destroyed once for each of
its sleeps, not before the deadline, however batches, cancels and runs of coroutines are
interleaved. When no call of `process_timers` is under way, all timers have fired that were due at
the time that one of them has read and had been posted before its section. -/
theorem sleeps_safe {actions : List ScheduleAction} {final : Schedule}
    (run : after step {} actions = some final) :
    final.Safe ∧
    ∀ (front : List ScheduleAction) (number : Nat) (before : Schedule) (pass : Pass),
      front ++ [.take number] <+: actions → after step {} front = some before →
      before.timers.passes[number]? = some pass →
      (∀ other ∈ final.timers.passes, other.expired = []) →
      ∀ callback deadline, Dated before.timers.deadlines (some callback) deadline →
        deadline ≤ pass.now → some callback ∈ final.timers.ran := by
  obtain ⟨sound, owned⟩ := sound_after run
  refine ⟨sound.safe owned, ?_⟩
  rintro front number before pass ⟨rest, rfl⟩ reached found ended callback deadline dated due
  obtain ⟨next, taken, later⟩ := after_append.mp run
  obtain ⟨middle, same, last⟩ := after_concat.mp taken
  cases reached.symm.trans same
  have soundBefore := (sound_after reached).1
  have soundNext := (sound_after taken).1
  obtain ⟨timers, stepped, rfl⟩ : ∃ timers, before.timers.step (.take number) = some timers ∧
      { before with timers } = next := Option.map_eq_some_iff.mp last
  have taking : timers = before.timers.take number pass := by
    rw [Timers.step, found] at stepped
    cases taken : pass.taken with
    | true => simp [taken] at stepped
    | false => simpa [taken] using stepped.symm
  rcases soundBefore.timers.mem_take found dated due with earlier | ⟨after, foundAfter, _, inAfter⟩
  · obtain ⟨other, inside, among⟩ := earlier
    refine soundBefore.timers.mem_ran ended ?_ inside among
    exact exists_follows_after (after_cons.mpr ⟨_, last, later⟩)
  · rw [← taking] at foundAfter
    refine soundNext.timers.mem_ran ended ?_ (List.mem_of_getElem? foundAfter) inAfter
    exact exists_follows_after later

/-- Two coroutines sleep, and both timers expire in one batch, in which the first one cancels the
second one. -/
def cancelInBatch : List ScheduleAction :=
  [.spawn, .sleep 4, .spawn, .sleep 5, .tick 6, .begin, .take 0, .call 0, .cancel 1, .finish,
    .call 0]

theorem sleeps_safe_cancelInBatch :
    ∃ final, after step {} cancelInBatch = some final ∧ final.Safe ∧
      final.resumes = [⟨0, some (.sleeping 0), 6⟩] ∧ final.workCount = 0 ∧
      final.stages = [.finished, .destroyed] := by
  have ran : (after step {} cancelInBatch).map (fun final =>
      (final.resumes, final.workCount, final.stages)) =
        some ([⟨0, some (.sleeping 0), 6⟩], 0, [.finished, .destroyed]) := by decide
  obtain ⟨final, run, same⟩ := Option.map_eq_some_iff.mp ran
  refine ⟨final, run, (sleeps_safe run).1, congrArg Prod.fst same, ?_, ?_⟩
  · exact congrArg (fun parts => parts.2.1) same
  · exact congrArg (fun parts => parts.2.2) same

end Schedule

end AsyncNet.Executor
