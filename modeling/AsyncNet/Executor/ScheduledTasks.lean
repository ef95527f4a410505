/-
This file shows that a `scheduled_task` only destroys a coroutine once. The handle is in one of
these objects at a time: a coroutine is spawned with one, a move takes the handle out of the
other one, and a cancel leaves null behind.
-/

import AsyncNet.Executor.Schedule

namespace AsyncNet.Executor.Schedule

open Io

/-- Every `scheduled_task` has the handle of a coroutine of its own, which is not destroyed. -/
structure Owned (schedule : Schedule) : Prop where
  alone : ∀ (task other : Nat) coroutine, schedule.tasks[task]? = some (some coroutine) →
    schedule.tasks[other]? = some (some coroutine) → task = other
  undestroyed : ∀ coroutine, some coroutine ∈ schedule.tasks →
    ∃ stage, schedule.stages[coroutine]? = some stage ∧ stage ≠ .destroyed

theorem owned_new : Owned {} where
  alone := fun _ _ _ found => by cases found
  undestroyed := fun _ inside => absurd inside List.not_mem_nil

variable {schedule next : Schedule}

/-- The stage of one coroutine changes, and it is not destroyed. -/
theorem Owned.restage (owned : schedule.Owned) {coroutine : Nat} {stage : Stage}
    (still : stage ≠ .destroyed) (same : next.tasks = schedule.tasks)
    (changed : next.stages = schedule.stages.set coroutine stage) : next.Owned := by
  refine ⟨same ▸ owned.alone, fun other handle => ?_⟩
  rw [same] at handle
  obtain ⟨before, found, undestroyed⟩ := owned.undestroyed other handle
  rw [changed, List.getElem?_set]
  split
  · rename_i isSame
    rw [isSame, if_pos (List.getElem?_eq_some_iff.mp found).1]
    exact ⟨stage, rfl, still⟩
  · exact ⟨before, found, undestroyed⟩

/-- A coroutine that is neither asleep nor destroyed. -/
def Awake (stage : Stage) : Prop := stage ≠ .destroyed ∧ ∀ number, stage ≠ .sleeping number

theorem awake_running : Awake .running := by
  refine ⟨?_, fun number => ?_⟩
  · exact fun wrong => by cases wrong
  · exact fun wrong => by cases wrong

theorem awake_paused : Awake .paused := by
  refine ⟨?_, fun number => ?_⟩
  · exact fun wrong => by cases wrong
  · exact fun wrong => by cases wrong

theorem Owned.spawn (owned : schedule.Owned) : schedule.spawn.Owned := by
  have old (coroutine : Nat) (handle : some coroutine ∈ schedule.tasks) :
      coroutine < schedule.stages.length := by
    obtain ⟨stage, found, _⟩ := owned.undestroyed coroutine handle
    exact (List.getElem?_eq_some_iff.mp found).1
  refine ⟨fun task other coroutine first second => ?_, fun coroutine handle => ?_⟩
  · change (schedule.tasks ++ [some schedule.stages.length])[task]? = _ at first
    change (schedule.tasks ++ [some schedule.stages.length])[other]? = _ at second
    rw [List.getElem?_append] at first second
    split at first
    · rename_i taskInside
      have early := old coroutine (List.mem_of_getElem? first)
      split at second
      · exact owned.alone task other coroutine first second
      · obtain ⟨_, wrong⟩ := List.getElem?_eq_some_iff.mp second
        rw [List.getElem_singleton] at wrong
        cases wrong
        exact absurd early (Nat.lt_irrefl _)
    · rename_i taskOutside
      obtain ⟨lastFirst, isNew⟩ := List.getElem?_eq_some_iff.mp first
      rw [List.getElem_singleton] at isNew
      cases isNew
      split at second
      · exact absurd (old _ (List.mem_of_getElem? second)) (Nat.lt_irrefl _)
      · rename_i otherOutside
        obtain ⟨lastSecond, _⟩ := List.getElem?_eq_some_iff.mp second
        rw [List.length_singleton] at lastFirst lastSecond
        omega
  · show ∃ stage, (schedule.stages ++ [.running])[coroutine]? = some stage ∧ _
    rcases List.mem_append.mp handle with earlier | last
    · obtain ⟨stage, found, undestroyed⟩ := owned.undestroyed coroutine earlier
      refine ⟨stage, ?_, undestroyed⟩
      rw [List.getElem?_append_left (old coroutine earlier)]
      exact found
    · cases List.mem_singleton.mp last
      exact ⟨.running, List.getElem?_concat_length, awake_running.1⟩

/-- The handle of a coroutine that is destroyed was in no other `scheduled_task`. -/
theorem Owned.cancel (owned : schedule.Owned) {task : Nat}
    (taken : schedule.cancel task = some next) : next.Owned := by
  rw [Schedule.cancel] at taken
  split at taken
  · cases taken
  · cases taken
    exact owned
  · rename_i coroutine handle
    split at taken
    · cases taken
    · cases taken
      have isInside := (List.getElem?_eq_some_iff.mp handle).1
      have cleared : (schedule.tasks.set task none)[task]? = some none :=
        List.getElem?_set_self isInside
      have unchanged {other coroutine : Nat}
          (found : (schedule.tasks.set task none)[other]? = some (some coroutine)) :
          task ≠ other ∧ schedule.tasks[other]? = some (some coroutine) := by
        by_cases same : task = other
        · rw [← same, cleared] at found
          cases found
        · rw [List.getElem?_set_ne same] at found
          exact ⟨same, found⟩
      refine ⟨fun first second other one two => ?_, fun other remains => ?_⟩
      · exact owned.alone first second other (unchanged one).2 (unchanged two).2
      · obtain ⟨place, found⟩ := List.mem_iff_getElem?.mp remains
        obtain ⟨differs, before⟩ := unchanged found
        obtain ⟨stage, here, undestroyed⟩ :=
          owned.undestroyed other (List.mem_of_getElem? before)
        refine ⟨stage, ?_, undestroyed⟩
        have apart : coroutine ≠ other := by
          intro same
          rw [same] at handle
          exact differs (owned.alone task place other handle before)
        exact (List.getElem?_set_ne apart).trans here

/-- A handle that is moved leaves the `scheduled_task` that it is moved from. -/
theorem Owned.handOver (owned : schedule.Owned) (task other : Nat) :
    (schedule.handOver task other).Owned := by
  rw [Schedule.handOver]
  split
  · exact owned
  · rename_i handle found
    -- where a handle is now, it was before, or it was in the other object
    have came {place coroutine : Nat}
        (here : ((schedule.tasks.set task handle).set other none)[place]? =
          some (some coroutine)) :
        place ≠ other ∧
          (place = task ∧ schedule.tasks[other]? = some (some coroutine) ∨
            place ≠ task ∧ schedule.tasks[place]? = some (some coroutine)) := by
      rw [List.getElem?_set] at here
      split at here
      · split at here <;> cases here
      · rename_i apart
        refine ⟨fun same => apart same.symm, ?_⟩
        rw [List.getElem?_set] at here
        split at here
        · rename_i same
          split at here
          · cases here
            exact Or.inl ⟨same.symm, found⟩
          · cases here
        · rename_i differs
          exact Or.inr ⟨fun same => differs same.symm, here⟩
    refine ⟨fun first second coroutine one two => ?_, fun coroutine remains => ?_⟩
    · obtain ⟨firstApart, firstBefore⟩ := came one
      obtain ⟨secondApart, secondBefore⟩ := came two
      rcases firstBefore with ⟨rfl, moved⟩ | ⟨_, stayed⟩
      · rcases secondBefore with ⟨rfl, _⟩ | ⟨_, stayed⟩
        · rfl
        · exact absurd (owned.alone second other coroutine stayed moved) secondApart
      · rcases secondBefore with ⟨rfl, moved⟩ | ⟨_, stayedToo⟩
        · exact absurd (owned.alone first other coroutine stayed moved) firstApart
        · exact owned.alone first second coroutine stayed stayedToo
    · obtain ⟨place, here⟩ := List.mem_iff_getElem?.mp remains
      rcases (came here).2 with ⟨_, moved⟩ | ⟨_, stayed⟩
      · exact owned.undestroyed coroutine (List.mem_of_getElem? moved)
      · exact owned.undestroyed coroutine (List.mem_of_getElem? stayed)

theorem Owned.assign (owned : schedule.Owned) {task other : Nat}
    (taken : schedule.assign task other = some next) : next.Owned := by
  rw [Schedule.assign] at taken
  split at taken
  · cases taken
    exact owned
  · obtain ⟨middle, cancelled, rfl⟩ := Option.map_eq_some_iff.mp taken
    exact (owned.cancel cancelled).handOver task other

theorem Owned.leave (owned : schedule.Owned) {stage : Stage} (still : stage ≠ .destroyed)
    (taken : schedule.leave stage = some next) : next.Owned := by
  rw [Schedule.leave] at taken
  split at taken
  · cases taken
  · cases taken
    exact owned.restage still rfl rfl

theorem Owned.sleep (owned : schedule.Owned) (deadline coroutine : Nat) (stack : List Nat) :
    (schedule.sleep deadline coroutine stack).Owned := by
  rw [Schedule.sleep]
  split
  · exact owned
  · exact owned.restage (fun wrong => by cases wrong) rfl rfl

/-- What the callback of a sleep resumes is not destroyed by it. -/
theorem Owned.fire (owned : schedule.Owned) (timers : Timers) (callback : Nat) :
    (Schedule.fire { schedule with timers } callback).Owned := by
  rw [Schedule.fire]
  split
  · rename_i sleep found
    show Owned (if sleep.alive then _ else _)
    split
    · exact owned.restage awake_running.1 rfl rfl
    · exact ⟨owned.alone, owned.undestroyed⟩
  · exact ⟨owned.alone, owned.undestroyed⟩

theorem Owned.quiet (owned : schedule.Owned) (action : TimerAction)
    (taken : (schedule.timers.step action).map (fun timers => { schedule with timers }) =
      some next) : next.Owned := by
  obtain ⟨timers, _, rfl⟩ := Option.map_eq_some_iff.mp taken
  exact ⟨owned.alone, owned.undestroyed⟩

theorem Owned.step (owned : schedule.Owned) {action : ScheduleAction}
    (taken : schedule.step action = some next) : next.Owned := by
  cases action with
  | tick time => exact owned.quiet (.tick time) taken
  | spawn =>
    cases taken
    exact owned.spawn
  | sleep deadline =>
    rw [Schedule.step] at taken
    split at taken
    · cases taken
    · cases taken
      exact owned.sleep deadline _ _
  | pause => exact owned.leave awake_paused.1 taken
  | goOn coroutine =>
    rw [Schedule.step] at taken
    split at taken
    · cases taken
      exact owned.restage awake_running.1 rfl rfl
    · cases taken
  | finish => exact owned.leave (fun wrong => by cases wrong) taken
  | cancel task => exact owned.cancel taken
  | assign task other => exact owned.assign taken
  | postAt deadline =>
    cases taken
    exact ⟨owned.alone, owned.undestroyed⟩
  | begin => exact owned.quiet .begin taken
  | take number => exact owned.quiet (.take number) taken
  | call number =>
    rw [Schedule.step] at taken
    split at taken
    · cases taken
    · split at taken
      · cases taken
        exact owned.fire _ _
      · cases taken

end AsyncNet.Executor.Schedule
