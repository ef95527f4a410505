/-
This file models sleeping coroutines: `SleepAwaiter`, through which `sleep_for` and
`sleep_until` suspend a coroutine, and `scheduled_task`, which destroys one. A sleep posts a
callback to the timers of the context. The callback holds the handle of the coroutine, the work
guard, which has been moved out of the awaiter, and the flag `alive`, which it shares with the
awaiter. The awaiter lives in the frame of the coroutine and clears the flag when it is
destroyed, with the frame or at the end of the sleep, so that a callback that outlives it
resumes nothing.

A coroutine is the frame that a `scheduled_task` holds, with the frames of the tasks that it awaits.
All of them run on one thread. `schedule_once` sleeps before its task, and `schedule_at_fixed_rate`
before each of them: here a coroutine that runs may sleep at any time, wait for something else and
start coroutines, which run inside of its own run until they are suspended. Whatever else it may
wait for is taken to resume it only while it waits for that. A call of `process_timers` may begin
while another one has callbacks left, as it does when a callback polls the context.

A cancel of a coroutine by itself is left out, and so is one that a coroutine makes that runs inside
of its run: the frame is not suspended there. A sleep without a context throws in `await_suspend`
and suspends nothing.
-/

import AsyncNet.Io.Timers

namespace AsyncNet.Executor

open Library Io

/-! ### The state -/

/-- The callback that a sleep posts: the coroutine whose handle it has captured, whether it holds
the work guard, and the shared flag. -/
structure SleepCallback where
  coroutine : Nat
  guard : Bool := true
  alive : Bool := true
  deriving DecidableEq

/-- Where a coroutine is. A coroutine that sleeps has an awaiter in its frame, which shares its flag
with the callback that has the number. -/
inductive Stage where
  | running
  | sleeping (number : Nat)
  /-- Suspended by another awaitable. -/
  | paused
  | finished
  | destroyed
  deriving DecidableEq

/-- A call of `resume` in the callback of a sleep, with the stage of the coroutine and the time at
which it was made. -/
structure Resume where
  number : Nat
  stage : Option Stage
  time : Nat
  deriving DecidableEq

/-- The timers, with what the callbacks are that have been posted, by their numbers: those of
sleeps, and others. The coroutines on the stack run, each inside of the run of the one behind it. -/
structure Schedule where
  timers : Timers := {}
  callbacks : List (Option SleepCallback) := []
  stages : List Stage := []
  /-- `handle_` of each `scheduled_task`. -/
  tasks : List (Option Nat) := []
  stack : List Nat := []
  /-- What sleeps hold of `work_count_`. -/
  workCount : Nat := 0
  resumes : List Resume := []

/-! ### The operations -/

/-- `*alive = false`, where the flag is shared with a callback. -/
def clearAlive (callbacks : List (Option SleepCallback)) (number : Nat) :
    List (Option SleepCallback) :=
  match callbacks[number]? with
  | some (some sleep) => callbacks.set number (some { sleep with alive := false })
  | _ => callbacks

namespace Schedule

/-- A coroutine is spawned, and a `scheduled_task` gets its handle. -/
def spawn (schedule : Schedule) : Schedule :=
  { schedule with
    stages := schedule.stages ++ [.running]
    tasks := schedule.tasks ++ [some schedule.stages.length]
    stack := schedule.stages.length :: schedule.stack }

/-- `co_await` on a `SleepAwaiter`, by the first coroutine on the stack. It is not suspended when
the deadline has come. -/
def sleep (schedule : Schedule) (deadline coroutine : Nat) (stack : List Nat) : Schedule :=
  if deadline ≤ schedule.timers.clock then schedule
  else
    { schedule with
      workCount := schedule.workCount + 1
      timers := schedule.timers.postAt deadline
      callbacks := schedule.callbacks ++ [some { coroutine }]
      stages := schedule.stages.set coroutine (.sleeping schedule.callbacks.length)
      stack }

/-- The frame of a coroutine is destroyed, with the awaiter in it. -/
def destroy (schedule : Schedule) (coroutine : Nat) : Schedule :=
  { schedule with
    stages := schedule.stages.set coroutine .destroyed
    callbacks :=
      match schedule.stages[coroutine]? with
      | some (.sleeping number) => clearAlive schedule.callbacks number
      | _ => schedule.callbacks }

/-- `scheduled_task::cancel`, and the destructor. -/
def cancel (schedule : Schedule) (task : Nat) : Option Schedule :=
  match schedule.tasks[task]? with
  | none => none
  | some none => some schedule
  | some (some coroutine) =>
      if coroutine ∈ schedule.stack then none
      else some { schedule.destroy coroutine with tasks := schedule.tasks.set task none }

/-- The handle of a `scheduled_task` is moved into another one, which is empty. -/
def handOver (schedule : Schedule) (task other : Nat) : Schedule :=
  match schedule.tasks[other]? with
  | none => schedule
  | some handle => { schedule with tasks := (schedule.tasks.set task handle).set other none }

/-- The move assignment of a `scheduled_task`. -/
def assign (schedule : Schedule) (task other : Nat) : Option Schedule :=
  if task = other then some schedule
  else (schedule.cancel task).map fun next => next.handOver task other

/-- `resume` on the handle that the callback of a sleep has captured. The awaiter is destroyed when
the coroutine goes on. -/
def resume (schedule : Schedule) (number coroutine : Nat) : Schedule :=
  { schedule with
    stages := schedule.stages.set coroutine .running
    stack := coroutine :: schedule.stack
    callbacks := clearAlive schedule.callbacks number
    resumes := schedule.resumes ++
      [{ number, stage := schedule.stages[coroutine]?, time := schedule.timers.clock }] }

/-- `g.reset()` in the callback of a sleep. -/
def releaseGuard (schedule : Schedule) (number : Nat) (sleep : SleepCallback) : Schedule :=
  { schedule with
    workCount := if sleep.guard then schedule.workCount - 1 else schedule.workCount
    callbacks := schedule.callbacks.set number (some { sleep with guard := false }) }

/-- The callback with a number is called. -/
def fire (schedule : Schedule) (number : Nat) : Schedule :=
  match schedule.callbacks[number]? with
  | some (some sleep) =>
      let released := schedule.releaseGuard number sleep
      if sleep.alive then released.resume number sleep.coroutine else released
  | _ => schedule

end Schedule

/-! ### The steps -/

inductive ScheduleAction where
  | tick (time : Nat)
  | spawn
  /-- The first coroutine on the stack sleeps, until the deadline that `sleep_for` computes or
  `sleep_until` gets. -/
  | sleep (deadline : Nat)
  /-- The first coroutine on the stack waits for something else, which will resume it. -/
  | pause
  | goOn (coroutine : Nat)
  | finish
  /-- A `scheduled_task` is cancelled or destroyed. -/
  | cancel (task : Nat)
  | assign (task other : Nat)
  /-- Another timer is posted. -/
  | postAt (deadline : Nat)
  | begin
  | take (number : Nat)
  | call (number : Nat)
  deriving DecidableEq

namespace Schedule

/-- The first coroutine on the stack leaves it. -/
def leave (schedule : Schedule) (stage : Stage) : Option Schedule :=
  match schedule.stack with
  | [] => none
  | coroutine :: stack =>
      some { schedule with stages := schedule.stages.set coroutine stage, stack }

/-- A step, if it is there. A call of `process_timers` begins, takes what has expired and calls it.
-/
def step (schedule : Schedule) : ScheduleAction → Option Schedule
  | .tick time =>
      (schedule.timers.step (.tick time)).map fun timers => { schedule with timers }
  | .spawn => some schedule.spawn
  | .sleep deadline =>
      match schedule.stack with
      | [] => none
      | coroutine :: stack => some (schedule.sleep deadline coroutine stack)
  | .pause => schedule.leave .paused
  | .goOn coroutine =>
      if schedule.stages[coroutine]? = some .paused then
        some { schedule with
          stages := schedule.stages.set coroutine .running, stack := coroutine :: schedule.stack }
      else none
  | .finish => schedule.leave .finished
  | .cancel task => schedule.cancel task
  | .assign task other => schedule.assign task other
  | .postAt deadline =>
      some { schedule with
        timers := schedule.timers.postAt deadline, callbacks := schedule.callbacks ++ [none] }
  | .begin => (schedule.timers.step .begin).map fun timers => { schedule with timers }
  | .take number =>
      (schedule.timers.step (.take number)).map fun timers => { schedule with timers }
  | .call number =>
      match schedule.timers.passes[number]? with
      | none => none
      | some pass =>
          match pass.expired with
          | some callback :: expired =>
              let timers := schedule.timers.call number pass (some callback) expired
              some (fire { schedule with timers } callback)
          | _ => none

/-! ### What is guaranteed -/

/-- The sleeps whose timers have not fired. -/
def unfired (schedule : Schedule) : List Nat :=
  (List.range schedule.callbacks.length).filter fun number =>
    schedule.callbacks[number]?.join.isSome && decide (some number ∉ schedule.timers.ran)

/-- A coroutine is resumed in the sleep whose callback does it, so that it is not destroyed, and not
before the deadline. It is resumed once for every sleep whose timer has fired, unless it is
destroyed, and never for another one. The work count is the number of the other sleeps, whose timers
are in the queue, or taken out of it and about to be called. No `scheduled_task` has the handle of a
coroutine that is destroyed. -/
structure Safe (schedule : Schedule) : Prop where
  suspended : ∀ resume ∈ schedule.resumes, resume.stage = some (.sleeping resume.number)
  notEarly : ∀ resume ∈ schedule.resumes,
    ∃ deadline ≤ resume.time, Dated schedule.timers.deadlines (some resume.number) deadline
  once : (schedule.resumes.map (·.number)).Nodup
  fired : ∀ (number : Nat) sleep, schedule.callbacks[number]? = some (some sleep) →
    schedule.stages[sleep.coroutine]? ≠ some .destroyed →
      (number ∈ schedule.resumes.map (·.number) ↔ some number ∈ schedule.timers.ran)
  workCount : schedule.workCount = schedule.unfired.length
  waits : ∀ number ∈ schedule.unfired,
    some number ∈ schedule.timers.timers.toList.map (·.callback) ∨
      ∃ pass ∈ schedule.timers.passes, some number ∈ pass.expired
  handles : ∀ coroutine, some coroutine ∈ schedule.tasks →
    schedule.stages[coroutine]? ≠ some .destroyed

end Schedule

end AsyncNet.Executor
