/-
This file models `coroutine/task.hpp`: the frames of the coroutines, the `Task` objects that own
them, the promise with its continuation and its result, and the transfer of control in
`Awaiter::await_suspend` and in `FinalAwaiter::await_suspend`. An event loop starts tasks, resumes
the coroutine whose operation has been completed, and destroys tasks.

The last section says what is to be seen of this. Each task performs the operations of its body,
with the awaited tasks in the place of the `co_await`, and stores the result of its body, and each
frame that is left is owned by a task that has been started and not been destroyed.
-/

import AsyncNet.Library.LazyTasks
import Mathlib.Logic.Relation

namespace AsyncNet.Coroutine

open Library

universe u

variable {Operation Response Failure Value : Type u}

/-! ### Coroutine frames -/

/-- `std::coroutine_handle`. The handle of a frame is not used again for another one. -/
abbrev Handle := Nat

/-- Where a coroutine is. -/
inductive Point (Operation Response Failure Value : Type u) where
  /-- At `initial_suspend`. -/
  | initial (body : Program Operation Response Failure Value)
  /-- In the `co_await` of a task. The handle is the one of the `Awaiter`. -/
  | task (handle : Handle)
      (next : Except Failure Value → Program Operation Response Failure Value)
  /-- In the `co_await` of an operation of the event loop. -/
  | operation (next : Response → Program Operation Response Failure Value)
  | running
  /-- At `final_suspend`. -/
  | final

/-- The coroutine has control. -/
def Point.isRunning : Point Operation Response Failure Value → Bool
  | .running => true
  | _ => false

/-- `handle_.done()`. -/
def Point.isFinal : Point Operation Response Failure Value → Bool
  | .final => true
  | _ => false

/-- A coroutine frame: the variables of type `Task` and the `TaskPromise`. The result is a value
or an exception. -/
structure Frame (Operation Response Failure Value : Type u) where
  point : Point Operation Response Failure Value
  tasks : Bindings Nat Handle := []
  continuation : Option Handle := none
  result : Option (Except Failure Value) := none

/-- The handles of the `Awaiter` and of the `Task` objects in the frame. -/
def Frame.owned (frame : Frame Operation Response Failure Value) : List Handle :=
  match frame.point with
  | .task handle _ => handle :: frame.tasks.map Prod.snd
  | _ => frame.tasks.map Prod.snd

/-- The frame of a coroutine that has just been called. -/
def Frame.called (body : Program Operation Response Failure Value) :
    Frame Operation Response Failure Value :=
  { point := .initial body }

/-- The frames that have not been destroyed. -/
abbrev Frames (Operation Response Failure Value : Type u) :=
  Handle → Option (Frame Operation Response Failure Value)

/-- What has no defined behaviour. `outOfFuel` is none of the program: the model has been given too
few steps. -/
inductive Misuse where
  /-- A handle of a frame that has been destroyed. -/
  | destroyed
  /-- A coroutine is resumed that has control or is at its end, or one is destroyed that has
  control. -/
  | notSuspended
  /-- `await_resume` of an operation that is not completed. -/
  | notCompleted
  /-- `await_resume` with a handle that is null. -/
  | emptyTask
  /-- `result()` of a promise that has none. -/
  | noResult
  | outOfFuel
  deriving DecidableEq

/-- The frame of the handle. -/
def frameOf (frames : Frames Operation Response Failure Value) (handle : Handle) :
    Except Misuse (Frame Operation Response Failure Value) :=
  match frames handle with
  | none => .error .destroyed
  | some frame => .ok frame

/-- `TaskPromise::result`. An exception is rethrown in the coroutine that awaits. -/
def promiseResult (frames : Frames Operation Response Failure Value) (handle : Handle) :
    Except Misuse (Except Failure Value) := do
  match (← frameOf frames handle).result with
  | none => .error .noResult
  | some result => .ok result

/-- `handle_.destroy()`: what is in the frame is destroyed with it. The number is a bound on how
often this goes from a frame to one that it owns. -/
def destroy : Nat → Frames Operation Response Failure Value → Handle →
    Except Misuse (Frames Operation Response Failure Value)
  | 0, _, _ => .error .outOfFuel
  | depth + 1, frames, handle => do
      let frame ← frameOf frames handle
      if frame.point.isRunning then .error .notSuspended
      else
        let frames ← frame.owned.foldlM (destroy depth) frames
        return Function.update frames handle none

/-! ### The machine -/

/-- The coroutines and the event loop. `control` is the coroutine that runs, with the rest of its
body. `tasks` are the `Task` objects of those that start tasks, in the order of the starts; one
that has been destroyed is `none`. `operations` are the operations that are not completed, each
with the handle that it resumes. An operation belongs to the task whose coroutines perform it,
which is the task `current`. -/
structure Machine (Operation Response Failure Value : Type u) where
  frames : Frames Operation Response Failure Value := fun _ => none
  fresh : Handle := 0
  control : Option (Handle × Program Operation Response Failure Value) := none
  tasks : List (Option Handle) := []
  operations : Nat → Option (Operation × Handle) := fun _ => none
  current : Nat := 0

inductive Event (Operation Response Failure Value : Type u) where
  /-- A call of a coroutine, and `Task::resume`. -/
  | start (body : Program Operation Response Failure Value)
  /-- The operation of the task is completed. -/
  | complete (task : Nat) (response : Response)
  /-- `~Task`. -/
  | destroy (task : Nat)

namespace Machine

variable (machine : Machine Operation Response Failure Value)

/-- The bound is large enough for all frames there have been. -/
def destroyFrame (handle : Handle) : Except Misuse (Machine Operation Response Failure Value) := do
  return { machine with frames := ← destroy (machine.fresh + 1) machine.frames handle }

/-- `~Task` or the assignment to a `Task`, for what it has held. -/
def destroyHeld : Option Handle → Except Misuse (Machine Operation Response Failure Value)
  | none => .ok machine
  | some handle => machine.destroyFrame handle

/-- A coroutine goes on with this. -/
def run (handle : Handle) (frame : Frame Operation Response Failure Value)
    (program : Program Operation Response Failure Value) :
    Machine Operation Response Failure Value :=
  { machine with
    frames := Function.update machine.frames handle (some { frame with point := .running })
    control := some (handle, program) }

/-- `Awaiter::await_resume`, and `~Awaiter`. -/
def awaitResume (handle awaited : Handle) (frame : Frame Operation Response Failure Value)
    (next : Except Failure Value → Program Operation Response Failure Value) :
    Except Misuse (Machine Operation Response Failure Value) := do
  let result ← promiseResult machine.frames awaited
  let machine ← machine.destroyFrame awaited
  return machine.run handle frame (next result)

/-- `handle.resume()`. -/
def resume (handle : Handle) : Except Misuse (Machine Operation Response Failure Value) := do
  let frame ← frameOf machine.frames handle
  match frame.point with
  | .initial body => return machine.run handle frame body
  | .task awaited next => machine.awaitResume handle awaited frame next
  | .operation _ => .error .notCompleted
  | .running | .final => .error .notSuspended

/-- The event loop resumes the coroutine whose operation is completed. -/
def answer (handle : Handle) (response : Response) :
    Except Misuse (Machine Operation Response Failure Value) := do
  let frame ← frameOf machine.frames handle
  match frame.point with
  | .operation next => return machine.run handle frame (next response)
  | _ => .error .notSuspended

/-- The frame has this contents now. -/
def setFrame (handle : Handle) (frame : Frame Operation Response Failure Value) :
    Machine Operation Response Failure Value :=
  { machine with frames := Function.update machine.frames handle (some frame) }

/-- A coroutine is called. -/
def call (body : Program Operation Response Failure Value) :
    Machine Operation Response Failure Value :=
  { machine with
    frames := Function.update machine.frames machine.fresh (some (Frame.called body))
    fresh := machine.fresh + 1 }

/-- `FinalAwaiter::await_suspend`: control goes to the continuation, if there is one, and otherwise
back to the event loop. -/
def finalSuspend : Option Handle → Except Misuse (Machine Operation Response Failure Value)
  | none => .ok { machine with control := none }
  | some continuation => { machine with control := none }.resume continuation

/-- The end of the body: `return_value` or `unhandled_exception`, the variables are destroyed, and
the coroutine is suspended for the last time. -/
def finish (handle : Handle) (frame : Frame Operation Response Failure Value)
    (result : Except Failure Value) :
    Except Misuse (Machine Operation Response Failure Value) := do
  let machine ← (frame.tasks.map Prod.snd).foldlM destroyFrame machine
  (machine.setFrame handle
    { frame with point := .final, tasks := [], result := some result }).finalSuspend
      frame.continuation

/-- `co_await std::move(name)`: `operator co_await`, `Awaiter::await_ready` and
`Awaiter::await_suspend`, which transfers control to the task. -/
def awaitTask (handle : Handle) (frame : Frame Operation Response Failure Value) (name : Nat)
    (next : Except Failure Value → Program Operation Response Failure Value) :
    Except Misuse (Machine Operation Response Failure Value) :=
  match Bindings.read name frame.tasks with
  | none => .error .emptyTask
  | some awaited => do
      let frame := { frame with tasks := Bindings.clear name frame.tasks }
      let task ← frameOf machine.frames awaited
      if task.point.isFinal then machine.awaitResume handle awaited frame next
      else
        ((machine.setFrame awaited { task with continuation := some handle }).setFrame handle
          { frame with point := .task awaited next }).resume awaited

/-- A step of the coroutine that has control. -/
def advance (handle : Handle) :
    Program Operation Response Failure Value →
      Except Misuse (Machine Operation Response Failure Value)
  | .finish result => do machine.finish handle (← frameOf machine.frames handle) result
  | .perform operation next => do
      let frame ← frameOf machine.frames handle
      return { machine.setFrame handle { frame with point := .operation next } with
        control := none
        operations := Function.update machine.operations machine.current
          (some (operation, handle)) }
  | .assign name task next => do
      let frame ← frameOf machine.frames handle
      let called ← (machine.call task).destroyHeld (Bindings.read name frame.tasks)
      return called.run handle
        { frame with tasks := Bindings.write name (some machine.fresh) frame.tasks } next
  | .move target source next => do
      let frame ← frameOf machine.frames handle
      let moved ← machine.destroyHeld
        (if target = source then none else Bindings.read target frame.tasks)
      return moved.run handle
        { frame with tasks := Bindings.move target source frame.tasks } next
  | .await name next => do machine.awaitTask handle (← frameOf machine.frames handle) name next

/-- Steps until control is back at the event loop. -/
def drive : Nat → Machine Operation Response Failure Value →
    Except Misuse (Machine Operation Response Failure Value)
  | 0, machine => if machine.control.isNone then .ok machine else .error .outOfFuel
  | fuel + 1, machine =>
      match machine.control with
      | none => .ok machine
      | some (handle, program) => do drive fuel (← machine.advance handle program)

/-- An event, and what the coroutines do until control is back at the event loop. -/
def step (fuel : Nat) (machine : Machine Operation Response Failure Value) :
    Event Operation Response Failure Value →
      Except Misuse (Machine Operation Response Failure Value)
  | .start body => do
      let started := { machine.call body with
        tasks := machine.tasks ++ [some machine.fresh], current := machine.tasks.length }
      drive fuel (← started.resume machine.fresh)
  | .complete task response =>
      match machine.operations task with
      | none => .error .notSuspended
      | some (_, handle) => do
          let completed := { machine with
            operations := Function.update machine.operations task none, current := task }
          drive fuel (← completed.answer handle response)
  | .destroy task =>
      match machine.tasks[task]? with
      | some (some handle) => do
          return { ← machine.destroyFrame handle with tasks := machine.tasks.set task none }
      | _ => .ok machine

end Machine

/-! ### What is seen of the tasks -/

/-- What the tasks that have been started still do. One that has been destroyed is `none`. -/
abbrev World (Operation Response Failure Value : Type u) :=
  List (Option (Resumption Operation Response (Except Failure Value)))

/-- An event in direct style. It is `none` when the operation has not been performed, when it is
the one of a task that has been destroyed, and when a body does what has no meaning. -/
def World.step (world : World Operation Response Failure Value) :
    Event Operation Response Failure Value → Option (World Operation Response Failure Value)
  | .start body =>
      (body.meaning fun _ => none).meant.map fun resumption => world ++ [some resumption]
  | .complete task response =>
      match world[task]? with
      | some (some (.perform _ next)) =>
          (next response).meant.map fun resumption => world.set task (some resumption)
      | _ => none
  | .destroy task => some (world.set task none)

/-- The second frame is destroyed with the first one. -/
def Owns (frames : Frames Operation Response Failure Value) : Handle → Handle → Prop :=
  Relation.ReflTransGen fun owner handle =>
    ∃ frame, frames owner = some frame ∧ handle ∈ frame.owned

/-- The machine is where the tasks are in direct style. A task that is done has its result in its
promise and owns no other frame, a task that waits has submitted just the operation that it
performs, and every frame is owned by a task. -/
structure Machine.Follows (machine : Machine Operation Response Failure Value)
    (world : World Operation Response Failure Value) : Prop where
  idle : machine.control = none
  length : machine.tasks.length = world.length
  done : ∀ (task : Nat) result, world[task]? = some (some (.done result)) →
    ∃ handle, machine.tasks[task]? = some (some handle) ∧
      machine.frames handle = some { point := .final, result := some result } ∧
      machine.operations task = none
  waiting : ∀ (task : Nat) operation next, world[task]? = some (some (.perform operation next)) →
    ∃ root handle, machine.tasks[task]? = some (some root) ∧ Owns machine.frames root handle ∧
      machine.operations task = some (operation, handle)
  destroyed : ∀ task : Nat, world[task]? = some none → machine.tasks[task]? = some none
  owned : ∀ handle, machine.frames handle ≠ none → ∃ (task : Nat) (root : Handle),
    machine.tasks[task]? = some (some root) ∧ Owns machine.frames root handle

end AsyncNet.Coroutine
