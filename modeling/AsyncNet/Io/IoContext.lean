/-
This file models `io_context` of `io/io_context.cpp`: the queue of posted handlers, the timers, the
work count and the functions that run the loop. One thread runs the loop, and every section under a
mutex and every atomic access is one step of it; between the steps any thread may post.

A pass of the loop takes the whole queue as a batch. What has been called, what is left of the batch
and what has been queued since are together what has been posted, in that order, and this is the
invariant from which the order of the calls follows.
-/

import AsyncNet.Library.Schedules
import Mathlib.Data.List.Perm.Basic

namespace AsyncNet.Io

open Library

/-! ### The context -/

/-- `TimerEntry`, with its deadline in ticks of the steady clock. -/
structure TimerEntry (Handler : Type) where
  deadline : Nat
  callback : Handler
  deriving DecidableEq

/-- The functions that run the loop. -/
inductive Loop where
  | run
  | runUntilComplete
  | runOne
  | poll
  deriving DecidableEq

/-- Where the loop is: before the test of `stopped_`, before the load of `work_count_`, before the
section that looks at the queue, in the poll of the backend, before the section of `process_timers`,
after it with the callbacks it has taken, before the section of `execute_pending`, between two
handlers of the batch, in the call of a handler. -/
inductive Point (Handler : Type) where
  | top
  | work
  | queue
  | polling
  | clock
  | timers (expired : List (TimerEntry Handler))
  | pending
  | batch (batch : List Handler)
  | calling (fn : Handler) (batch : List Handler)
  deriving DecidableEq

/-- The handlers of the batch that have not been called. -/
def Point.left {Handler : Type} : Point Handler → List Handler
  | .batch handlers => handlers
  | .calling _ handlers => handlers
  | _ => []

/-- `io_context`, with the place of the loop thread in it. The last two fields record which handlers
have been posted and which have been called. -/
structure IoContext (Handler : Type) where
  stopped : Bool := false
  workCount : Nat := 0
  handlersExecuted : Nat := 0
  pending : List Handler := []
  timers : List (TimerEntry Handler) := []
  place : Option (Loop × Point Handler) := none
  posted : List Handler := []
  called : List Handler := []
  deriving DecidableEq

/-- The steps of the loop thread. The clock and the order of timers with the same deadline are given
with the step that reads them. -/
inductive LoopStep (Handler : Type) where
  | test
  | loadWork
  | checkPending
  | poll
  | processTimers (now : Nat) (expired : List (TimerEntry Handler))
  | callback
  | executePending
  | call
  | returned
  deriving DecidableEq

/-- The steps of all threads. -/
inductive ContextAction (Handler : Type) where
  | enter (loop : Loop)
  | advance (step : LoopStep Handler)
  | post (fn : Handler)
  | postAt (deadline : Nat) (callback : Handler)
  | makeWork
  | releaseWork
  | stop
  | restart
  deriving DecidableEq

namespace IoContext

variable {Handler : Type}

/-- What is left of the batch. -/
def batch (context : IoContext Handler) : List Handler :=
  match context.place with
  | none => []
  | some (_, point) => point.left

/-- The call of a function that runs the loop, up to its first step. -/
def enter (context : IoContext Handler) : Loop → IoContext Handler
  | .poll => { context with handlersExecuted := 0, place := some (.poll, .polling) }
  | loop => { context with place := some (loop, .top) }

/-- The test of `stopped_`, with which `run`, `run_until_complete` and `run_one` begin. -/
def test (context : IoContext Handler) (loop : Loop) : IoContext Handler :=
  if context.stopped then { context with place := none }
  else
    match loop with
    | .runUntilComplete => { context with place := some (loop, .work) }
    | .runOne => { context with handlersExecuted := 0, place := some (loop, .polling) }
    | _ => { context with place := some (loop, .polling) }

/-- The load of the work count by `run_until_complete`. -/
def loadWork (context : IoContext Handler) (loop : Loop) : IoContext Handler :=
  { context with place := some (loop, if context.workCount = 0 then .queue else .polling) }

/-- The section of `run_until_complete`, which leaves the loop if nothing is queued. -/
def checkPending (context : IoContext Handler) (loop : Loop) : IoContext Handler :=
  { context with place := if context.pending = [] then none else some (loop, .polling) }

variable [DecidableEq Handler]

/-- The section of `process_timers`: the timers that have expired are taken by their deadlines. -/
def processTimers (context : IoContext Handler) (loop : Loop) (now : Nat)
    (expired : List (TimerEntry Handler)) : Option (IoContext Handler) :=
  if expired.Perm (context.timers.filter (·.deadline ≤ now)) ∧
      expired.Pairwise (·.deadline ≤ ·.deadline) then
    some { context with
      timers := context.timers.filter (now < ·.deadline), place := some (loop, .timers expired) }
  else none

/-- The next callback of `process_timers`, or its end. -/
def callback (context : IoContext Handler) (loop : Loop) :
    List (TimerEntry Handler) → IoContext Handler
  | [] => { context with place := some (loop, .pending) }
  | _ :: expired =>
      { context with
        handlersExecuted := context.handlersExecuted + 1, place := some (loop, .timers expired) }

/-- The section of `execute_pending`. -/
def executePending (context : IoContext Handler) (loop : Loop) : IoContext Handler :=
  { context with pending := [], place := some (loop, .batch context.pending) }

/-- The next call of `execute_pending`, or its end, where the loop begins again or is left. -/
def call (context : IoContext Handler) (loop : Loop) : List Handler → IoContext Handler
  | [] =>
      { context with
        place :=
          match loop with
          | .run | .runUntilComplete => some (loop, .top)
          | .runOne | .poll => none }
  | fn :: batch =>
      { context with
        called := context.called ++ [fn], place := some (loop, .calling fn batch) }

/-- A step of the loop thread, if it is at that step. -/
def advance (context : IoContext Handler) (loopStep : LoopStep Handler) :
    Option (IoContext Handler) :=
  match context.place with
  | none => none
  | some (loop, point) =>
      match loopStep, point with
      | .test, .top => some (context.test loop)
      | .loadWork, .work => some (context.loadWork loop)
      | .checkPending, .queue => some (context.checkPending loop)
      | .poll, .polling => some { context with place := some (loop, .clock) }
      | .processTimers now expired, .clock => context.processTimers loop now expired
      | .callback, .timers expired => some (context.callback loop expired)
      | .executePending, .pending => some (context.executePending loop)
      | .call, .batch batch => some (context.call loop batch)
      | .returned, .calling _ batch =>
          some { context with
            handlersExecuted := context.handlersExecuted + 1, place := some (loop, .batch batch) }
      | _, _ => none

/-- A step of a thread, if it can take it. The guards release what they have added. -/
def step (context : IoContext Handler) : ContextAction Handler → Option (IoContext Handler)
  | .enter loop => if context.place = none then some (context.enter loop) else none
  | .advance loopStep => context.advance loopStep
  | .post fn =>
      some { context with pending := context.pending ++ [fn], posted := context.posted ++ [fn] }
  | .postAt deadline callback =>
      some { context with timers := context.timers ++ [⟨deadline, callback⟩] }
  | .makeWork => some { context with workCount := context.workCount + 1 }
  | .releaseWork =>
      if context.workCount = 0 then none
      else some { context with workCount := context.workCount - 1 }
  | .stop => some { context with stopped := true }
  | .restart => some { context with stopped := false }

/-! ### What a step does to the handlers -/

variable {context next : IoContext Handler} {action : ContextAction Handler}

/-- A step moves handlers from the queue into the batch and from the batch to what has been called,
and it appends to the queue what is posted. -/
theorem step_handlers (taken : context.step action = some next) :
    ∃ ran posts, next.called = context.called ++ ran ∧ next.posted = context.posted ++ posts ∧
      ran ++ next.batch ++ next.pending = context.batch ++ context.pending ++ posts := by
  have still {next : IoContext Handler} (called : next.called = context.called)
      (posted : next.posted = context.posted) (pending : next.pending = context.pending)
      (batch : next.batch = context.batch) :
      ∃ ran posts, next.called = context.called ++ ran ∧ next.posted = context.posted ++ posts ∧
        ran ++ next.batch ++ next.pending = context.batch ++ context.pending ++ posts := by
    refine ⟨[], [], ?_, ?_, ?_⟩
    · rw [called, List.append_nil]
    · rw [posted, List.append_nil]
    · rw [batch, pending, List.nil_append, List.append_nil]
  cases action with
  | enter loop =>
    rw [step] at taken
    split at taken
    · rename_i outside
      cases taken
      have empty : context.batch = [] := by rw [batch, outside]
      cases loop <;> exact still rfl rfl rfl empty.symm
    · cases taken
  | advance loopStep =>
    change context.advance loopStep = some next at taken
    unfold IoContext.advance at taken
    split at taken
    · cases taken
    · rename_i loop point place
      have batch : context.batch = point.left := by rw [IoContext.batch, place]
      split at taken
      · cases taken
        unfold test
        split
        · exact still rfl rfl rfl batch.symm
        · cases loop <;> exact still rfl rfl rfl batch.symm
      · cases taken
        refine still rfl rfl rfl (Eq.trans ?_ batch.symm)
        unfold loadWork
        split <;> rfl
      · cases taken
        refine still rfl rfl rfl (Eq.trans ?_ batch.symm)
        unfold checkPending
        split <;> rfl
      · cases taken
        exact still rfl rfl rfl batch.symm
      · unfold IoContext.processTimers at taken
        split at taken
        · cases taken
          exact still rfl rfl rfl batch.symm
        · cases taken
      · cases taken
        rename_i expired
        cases expired <;> exact still rfl rfl rfl batch.symm
      · cases taken
        refine ⟨[], [], (List.append_nil _).symm, (List.append_nil _).symm, ?_⟩
        rw [batch]
        rfl
      · cases taken
        rename_i left
        cases left with
        | nil => cases loop <;> exact still rfl rfl rfl batch.symm
        | cons fn left =>
          refine ⟨[fn], [], rfl, (List.append_nil _).symm, ?_⟩
          rw [batch, List.append_nil]
          rfl
      · cases taken
        exact still rfl rfl rfl batch.symm
      · cases taken
  | post fn =>
    cases taken
    exact ⟨[], [fn], (List.append_nil _).symm, rfl, (List.append_assoc ..).symm⟩
  | postAt _ _ | makeWork | stop | restart =>
    cases taken
    exact still rfl rfl rfl rfl
  | releaseWork =>
    rw [step] at taken
    split at taken
    · cases taken
    · cases taken
      exact still rfl rfl rfl rfl

end IoContext

end AsyncNet.Io
