/-
This file models `thread_pool` of `detail/thread_pool.hpp` and proves that `stop` drains it. Every
section under the mutex is one step, and so is everything else that the threads do between two
sections; any number of threads post and submit, and the calls of the tasks return. A worker that
waits on the condition variable goes on when it is notified, and may go on by itself.

What carries the proof is that a worker returns only where the flag is set and the queue is empty,
and that both stay so. So when `stop` has joined the first worker there is nothing left to take out,
and when it has joined the last one nothing is left to run. That it comes so far is shown by a
measure of the work that is left, which every step of the pool makes smaller once the flag is set.
-/

import AsyncNet.Library.Schedules
import Mathlib.Algebra.GroupWithZero.Nat
import Mathlib.Data.List.Perm.Basic

namespace AsyncNet.Executor

open Library

variable {Task : Type}

/-! ### The pool -/

/-- Where a worker is: before its section, in `condition_.wait`, in the call of a task, or after
`worker_loop`. -/
inductive PoolWorker (Task : Type) where
  | looping
  | waiting
  | running (task : Task)
  | returned
  deriving DecidableEq

/-- Where the call of `stop` is: before it, after its section, at a worker that it joins, or after
it. -/
inductive StopCall where
  | uncalled
  | notifying
  | joining (index : Nat)
  | returned
  deriving DecidableEq

/-- `thread_pool`, with the call of `stop` and the number of calls of `post` and `submit` that have
queued a task and not notified yet. The last three fields record the tasks that have been queued,
those that have been taken out and those whose calls have returned. -/
structure ThreadPool (Task : Type) where
  workers : List (PoolWorker Task)
  tasks : List Task := []
  stop : Bool := false
  stopCall : StopCall := .uncalled
  notifies : Nat := 0
  accepted : List Task := []
  dequeued : List Task := []
  executed : List Task := []
  deriving DecidableEq

/-- The steps of the threads. -/
inductive PoolAction (Task : Type) where
  /-- The section of `post`. -/
  | post (func : Task)
  /-- The section of `submit`. -/
  | submit (task : Task)
  /-- `notify_one`, with the worker that it wakes. -/
  | notifyOne (worker : Option Nat)
  /-- A worker is woken without being notified. -/
  | wake (worker : Nat)
  /-- The section of `worker_loop`, up to where it waits. -/
  | take (worker : Nat)
  /-- The call of a task returns. -/
  | finish (worker : Nat)
  /-- The section of `stop`. -/
  | stop
  | notifyAll
  | join

/-- A step that a thread takes sooner or later: not the beginning of a call, and not one that needs
no cause. -/
def PoolAction.isOwn : PoolAction Task → Bool
  | .post _ | .submit _ | .wake _ => false
  | _ => true

/-- The constructor. -/
def newPool (numThreads : Nat) : ThreadPool Task where
  workers := List.replicate (if numThreads = 0 then 1 else numThreads) .looping

namespace PoolWorker

/-- What a notification does to a worker. -/
def wake : PoolWorker Task → PoolWorker Task
  | .waiting => .looping
  | worker => worker

def task : PoolWorker Task → Option Task
  | .running task => some task
  | _ => none

end PoolWorker

namespace ThreadPool

def setWorker (pool : ThreadPool Task) (index : Nat) (worker : PoolWorker Task) :
    ThreadPool Task :=
  { pool with workers := pool.workers.set index worker }

def enqueue (pool : ThreadPool Task) (task : Task) : ThreadPool Task :=
  { pool with
    tasks := pool.tasks ++ [task], accepted := pool.accepted ++ [task]
    notifies := pool.notifies + 1 }

def submit (pool : ThreadPool Task) (task : Task) : Except String (ThreadPool Task) :=
  if pool.stop then .error "Cannot submit to stopped thread pool" else .ok (pool.enqueue task)

def post (pool : ThreadPool Task) (func : Task) : ThreadPool Task :=
  if pool.stop then pool else pool.enqueue func

/-- The section of `worker_loop`: the worker waits as long as there is neither a task nor the
flag. -/
def take (pool : ThreadPool Task) (index : Nat) : ThreadPool Task :=
  match pool.tasks with
  | [] => if pool.stop then pool.setWorker index .returned else pool.setWorker index .waiting
  | task :: tasks =>
      { pool.setWorker index (.running task) with
        tasks, dequeued := pool.dequeued ++ [task] }

/-- `notify_one`, which wakes a worker if any waits. -/
def notifyOne (pool : ThreadPool Task) : Option Nat → Option (ThreadPool Task)
  | none => if pool.workers.any (· matches .waiting) then none else some pool
  | some index =>
      match pool.workers[index]? with
      | some .waiting => some (pool.setWorker index .looping)
      | _ => none

/-- `join`, when it returns, and the end of `stop` after the last worker. -/
def join (pool : ThreadPool Task) (index : Nat) : Option (ThreadPool Task) :=
  match pool.workers[index]? with
  | none => some { pool with workers := [], stopCall := .returned }
  | some .returned => some { pool with stopCall := .joining (index + 1) }
  | some _ => none

/-- A step of a thread, if it can take it. -/
def step (pool : ThreadPool Task) : PoolAction Task → Option (ThreadPool Task)
  | .post func => some (pool.post func)
  | .submit task =>
      match pool.submit task with
      | .error _ => some pool
      | .ok next => some next
  | .notifyOne worker =>
      if pool.notifies = 0 then none
      else { pool with notifies := pool.notifies - 1 }.notifyOne worker
  | .wake index =>
      match pool.workers[index]? with
      | some .waiting => some (pool.setWorker index .looping)
      | _ => none
  | .take index =>
      match pool.workers[index]? with
      | some .looping => some (pool.take index)
      | _ => none
  | .finish index =>
      match pool.workers[index]? with
      | some (.running task) =>
          some { pool.setWorker index .looping with executed := pool.executed ++ [task] }
      | _ => none
  | .stop =>
      match pool.stopCall with
      | .uncalled => some { pool with stop := true, stopCall := .notifying }
      | _ => none
  | .notifyAll =>
      match pool.stopCall with
      | .notifying =>
          some { pool with workers := pool.workers.map (·.wake), stopCall := .joining 0 }
      | _ => none
  | .join =>
      match pool.stopCall with
      | .joining index => pool.join index
      | _ => none

/-! ### What a step can do -/

/-- All that a step can do, with what it has found. -/
inductive Moves (pool : ThreadPool Task) : PoolAction Task → ThreadPool Task → Prop where
  | refused {action : PoolAction Task} (call : action.isOwn = false) (stop : pool.stop = true) :
      Moves pool action pool
  | accepted {action : PoolAction Task} (call : action.isOwn = false) (stop : pool.stop = false)
      (task : Task) : Moves pool action (pool.enqueue task)
  | unheard {worker : Option Nat} (owed : pool.notifies ≠ 0) :
      Moves pool (.notifyOne worker) { pool with notifies := pool.notifies - 1 }
  | notified {worker : Option Nat} {index : Nat} (owed : pool.notifies ≠ 0)
      (found : pool.workers[index]? = some .waiting) :
      Moves pool (.notifyOne worker)
        { pool.setWorker index .looping with notifies := pool.notifies - 1 }
  | woken {index : Nat} (found : pool.workers[index]? = some .waiting) :
      Moves pool (.wake index) (pool.setWorker index .looping)
  | ended {index : Nat} (found : pool.workers[index]? = some .looping) (empty : pool.tasks = [])
      (stop : pool.stop = true) : Moves pool (.take index) (pool.setWorker index .returned)
  | waits {index : Nat} (found : pool.workers[index]? = some .looping) (empty : pool.tasks = [])
      (stop : pool.stop = false) : Moves pool (.take index) (pool.setWorker index .waiting)
  | taken {index : Nat} {task : Task} {tasks : List Task}
      (found : pool.workers[index]? = some .looping) (queue : pool.tasks = task :: tasks) :
      Moves pool (.take index)
        { pool.setWorker index (.running task) with
          tasks, dequeued := pool.dequeued ++ [task] }
  | finished {index : Nat} {task : Task} (found : pool.workers[index]? = some (.running task)) :
      Moves pool (.finish index)
        { pool.setWorker index .looping with executed := pool.executed ++ [task] }
  | stops (here : pool.stopCall = .uncalled) :
      Moves pool .stop { pool with stop := true, stopCall := .notifying }
  | notifiesAll (here : pool.stopCall = .notifying) :
      Moves pool .notifyAll
        { pool with workers := pool.workers.map (·.wake), stopCall := .joining 0 }
  | joined {index : Nat} (here : pool.stopCall = .joining index)
      (found : pool.workers[index]? = some .returned) :
      Moves pool .join { pool with stopCall := .joining (index + 1) }
  | cleared {index : Nat} (here : pool.stopCall = .joining index)
      (outside : pool.workers[index]? = none) :
      Moves pool .join { pool with workers := [], stopCall := .returned }

variable {pool next : ThreadPool Task}

theorem step_moves {action : PoolAction Task} (taken : pool.step action = some next) :
    pool.Moves action next := by
  cases action with
  | post func =>
    cases taken
    unfold post
    split
    · rename_i stop
      exact .refused rfl stop
    · rename_i stop
      exact .accepted rfl ((Bool.not_eq_true _).mp stop) func
  | submit task =>
    rw [step, submit] at taken
    by_cases stop : pool.stop = true
    · rw [if_pos stop] at taken
      cases taken
      exact .refused rfl stop
    · rw [if_neg stop] at taken
      cases taken
      exact .accepted rfl ((Bool.not_eq_true _).mp stop) task
  | notifyOne worker =>
    rw [step] at taken
    split at taken
    · cases taken
    · rename_i owed
      cases worker with
      | none =>
        rw [notifyOne] at taken
        split at taken
        · cases taken
        · cases taken
          exact .unheard owed
      | some index =>
        rw [notifyOne] at taken
        split at taken
        · rename_i found
          cases taken
          exact .notified owed found
        · cases taken
  | wake index =>
    rw [step] at taken
    split at taken
    · rename_i found
      cases taken
      exact .woken found
    · cases taken
  | take index =>
    rw [step] at taken
    split at taken
    · rename_i found
      cases taken
      unfold take
      split
      · rename_i empty
        split
        · rename_i stop
          exact .ended found empty stop
        · rename_i stop
          exact .waits found empty ((Bool.not_eq_true _).mp stop)
      · rename_i queue
        exact .taken found queue
    · cases taken
  | finish index =>
    rw [step] at taken
    split at taken
    · rename_i found
      cases taken
      exact .finished found
    · cases taken
  | stop =>
    rw [step] at taken
    split at taken
    · rename_i here
      cases taken
      exact .stops here
    · cases taken
  | notifyAll =>
    rw [step] at taken
    split at taken
    · rename_i here
      cases taken
      exact .notifiesAll here
    · cases taken
  | join =>
    rw [step] at taken
    split at taken
    · rename_i here
      unfold join at taken
      split at taken
      · rename_i outside
        cases taken
        exact .cleared here outside
      · rename_i found
        cases taken
        exact .joined here found
      · cases taken
    · cases taken

/-! ### The property -/

/-- The tasks that workers are executing. -/
def running (pool : ThreadPool Task) : List Task := pool.workers.filterMap (·.task)

/-- Tasks are taken out in the order in which they have been queued, and each that has been taken
out is being executed or has been, once. When `stop` returns all of them have been. -/
structure Drains (pool : ThreadPool Task) : Prop where
  fifo : pool.accepted = pool.dequeued ++ pool.tasks
  once : pool.dequeued.Perm (pool.running ++ pool.executed)
  drained : pool.stopCall = .returned → pool.accepted.Perm pool.executed

/-- From here on no task is accepted, and the threads can take steps until `stop` has returned, but
only so many. -/
def Stops (pool : ThreadPool Task) : Prop :=
  ∃ bound, ∀ actions later, after step pool actions = some later →
    later.accepted = pool.accepted ∧ actions.countP (·.isOwn) ≤ bound ∧
      (later.stopCall ≠ .returned →
        ∃ action next, action.isOwn = true ∧ later.step action = some next)

/-! ### Invariant -/

/-- What is known of the workers where the call of `stop` is. -/
def StopSound (workers : List (PoolWorker Task)) (stop : Bool) (tasks : List Task) :
    StopCall → Prop
  | .uncalled => stop = false ∧ workers ≠ []
  | .notifying => stop = true ∧ workers ≠ []
  | .joining index =>
      stop = true ∧ workers ≠ [] ∧ .waiting ∉ workers ∧ index ≤ workers.length ∧
        ∀ place < index, workers[place]? = some .returned
  | .returned => stop = true ∧ workers = [] ∧ tasks = []

structure Sound (pool : ThreadPool Task) : Prop where
  fifo : pool.accepted = pool.dequeued ++ pool.tasks
  once : pool.dequeued.Perm (pool.running ++ pool.executed)
  ended : .returned ∈ pool.workers → pool.stop = true ∧ pool.tasks = []
  stopSound : StopSound pool.workers pool.stop pool.tasks pool.stopCall

section Workers

variable {workers : List (PoolWorker Task)} {index : Nat} {old new : PoolWorker Task}

/-- A worker changes, the others stay. -/
theorem set_perm (found : workers[index]? = some old) (new : PoolWorker Task) :
    ∃ others : List (PoolWorker Task),
      workers.Perm (old :: others) ∧ (workers.set index new).Perm (new :: others) := by
  obtain ⟨inside, same⟩ := List.getElem?_eq_some_iff.mp found
  obtain ⟨front, back, before, _, after⟩ := @List.exists_of_set _ index new workers inside
  rw [same] at before
  refine ⟨front ++ back, ?_, ?_⟩
  · exact before ▸ List.perm_middle
  · exact after ▸ List.perm_middle

theorem filterMap_task_cons (worker : PoolWorker Task) (others : List (PoolWorker Task)) :
    (worker :: others).filterMap (·.task) =
      worker.task.toList ++ others.filterMap (·.task) := by
  rw [List.filterMap_cons]
  cases worker.task with
  | none => rfl
  | some task => rfl

/-- What is executed after a worker has changed. -/
theorem running_set (found : workers[index]? = some old) (new : PoolWorker Task) :
    (old.task.toList ++ (workers.set index new).filterMap (·.task)).Perm
      (new.task.toList ++ workers.filterMap (·.task)) := by
  obtain ⟨others, before, after⟩ := set_perm found new
  have one := before.filterMap (·.task)
  have two := after.filterMap (·.task)
  rw [filterMap_task_cons] at one two
  refine (two.append_left _).trans (.trans ?_ (one.symm.append_left _))
  exact List.perm_append_comm_assoc _ _ _

theorem mem_set_ne (differs : old ≠ new) (member : old ∈ workers.set index new) :
    old ∈ workers := (List.mem_or_eq_of_mem_set member).resolve_right differs

theorem set_ne_nil (some : workers ≠ []) (new : PoolWorker Task) : workers.set index new ≠ [] := by
  rw [← List.length_pos_iff, List.length_set]
  exact List.length_pos_iff.mpr some

end Workers

section Steps

variable {pool next : ThreadPool Task} {action : PoolAction Task}

/-- A worker changes between two sections. -/
theorem StopSound.set {workers : List (PoolWorker Task)} {stop : Bool} {tasks : List Task}
    {stopCall : StopCall} {index : Nat} {old new : PoolWorker Task}
    (sound : StopSound workers stop tasks stopCall) (found : workers[index]? = some old)
    (ended : old ≠ .returned) (waits : stop = true → new ≠ .waiting) (less : List Task) :
    StopSound (workers.set index new) stop less stopCall := by
  cases stopCall with
  | uncalled => exact ⟨sound.1, set_ne_nil sound.2 new⟩
  | notifying => exact ⟨sound.1, set_ne_nil sound.2 new⟩
  | joining last =>
    obtain ⟨stop, some, none, inside, returned⟩ := sound
    refine ⟨stop, set_ne_nil some new, fun wrong => ?_, ?_, fun place below => ?_⟩
    · exact none (mem_set_ne (waits stop).symm wrong)
    · rw [List.length_set]
      exact inside
    · have same := returned place below
      rw [List.getElem?_set_ne]
      · exact same
      · intro here
        subst here
        rw [found] at same
        cases same
        exact ended rfl
  | returned =>
    obtain ⟨_, none, _⟩ := sound
    rw [none] at found
    cases found

/-- A worker changes that has not returned. -/
theorem Sound.set {index : Nat} {old new : PoolWorker Task} (sound : pool.Sound)
    (found : pool.workers[index]? = some old) (lives : old ≠ .returned)
    (workers : next.workers = pool.workers.set index new) (stop : next.stop = pool.stop)
    (stopCall : next.stopCall = pool.stopCall) (less : pool.tasks = [] → next.tasks = [])
    (waits : pool.stop = true → new ≠ .waiting)
    (ended : new = .returned → pool.stop = true ∧ next.tasks = [])
    (fifo : next.accepted = next.dequeued ++ next.tasks)
    (once : next.dequeued.Perm (next.running ++ next.executed)) : next.Sound := by
  refine ⟨fifo, once, fun member => ?_, ?_⟩
  · rw [stop]
    rw [workers] at member
    obtain former | same := List.mem_or_eq_of_mem_set member
    · exact (sound.ended former).imp_right less
    · exact ended same.symm
  · rw [workers, stop, stopCall]
    exact sound.stopSound.set found lives waits next.tasks

theorem running_set_idle {index : Nat} {old new : PoolWorker Task}
    (found : pool.workers[index]? = some old) (idle : old.task = none) (still : new.task = none) :
    pool.dequeued.Perm (pool.running ++ pool.executed) →
      pool.dequeued.Perm ((pool.setWorker index new).running ++ pool.executed) := by
  intro once
  have same := running_set found new
  rw [idle, still] at same
  exact once.trans (same.symm.append_right _)

theorem stop_eq_true {workers : List (PoolWorker Task)} {stop : Bool} {tasks : List Task}
    {stopCall : StopCall} (sound : StopSound workers stop tasks stopCall)
    (called : stopCall ≠ .uncalled) : stop = true := by
  cases stopCall with
  | uncalled => exact absurd rfl called
  | notifying => exact sound.1
  | joining index => exact sound.1
  | returned => exact sound.1

theorem mem_map_wake {workers : List (PoolWorker Task)} {worker : PoolWorker Task}
    (member : worker ∈ workers.map (·.wake)) : worker ∈ workers ∨ worker = .looping := by
  obtain ⟨old, inside, rfl⟩ := List.mem_map.mp member
  cases old with
  | waiting => exact Or.inr rfl
  | looping => exact Or.inl inside
  | running task => exact Or.inl inside
  | returned => exact Or.inl inside

theorem waiting_not_mem_map_wake (workers : List (PoolWorker Task)) :
    .waiting ∉ workers.map (·.wake) := by
  intro member
  obtain ⟨old, _, woken⟩ := List.mem_map.mp member
  cases old <;> cases woken

theorem filterMap_task_map_wake (workers : List (PoolWorker Task)) :
    (workers.map (·.wake)).filterMap (·.task) = workers.filterMap (·.task) := by
  rw [List.filterMap_map]
  refine List.filterMap_congr fun worker _ => ?_
  cases worker <;> rfl

/-- Every step keeps what is known of the pool. -/
theorem Sound.moves (sound : pool.Sound) (moves : pool.Moves action next) : next.Sound := by
  cases moves with
  | refused => exact sound
  | accepted _ stop task =>
    refine ⟨?_, sound.once, fun member => ?_, ?_⟩
    · show pool.accepted ++ [task] = pool.dequeued ++ (pool.tasks ++ [task])
      rw [sound.fifo, List.append_assoc]
    · have stopped := (sound.ended member).1
      rw [stop] at stopped
      cases stopped
    · have called := sound.stopSound
      by_cases here : pool.stopCall = .uncalled
      · show StopSound pool.workers pool.stop _ pool.stopCall
        rw [here] at called ⊢
        exact called
      · have stopped := stop_eq_true called here
        rw [stop] at stopped
        cases stopped
  | unheard => exact ⟨sound.fifo, sound.once, sound.ended, sound.stopSound⟩
  | notified owed found =>
    exact sound.set found (fun wrong => by cases wrong) rfl rfl rfl id
      (fun _ wrong => by cases wrong) (fun wrong => by cases wrong) sound.fifo
      (running_set_idle found rfl rfl sound.once)
  | woken found =>
    exact sound.set found (fun wrong => by cases wrong) rfl rfl rfl id
      (fun _ wrong => by cases wrong) (fun wrong => by cases wrong) sound.fifo
      (running_set_idle found rfl rfl sound.once)
  | ended found empty stop =>
    exact sound.set found (fun wrong => by cases wrong) rfl rfl rfl id
      (fun _ wrong => by cases wrong) (fun _ => ⟨stop, empty⟩) sound.fifo
      (running_set_idle found rfl rfl sound.once)
  | waits found empty stop =>
    refine sound.set found (fun wrong => by cases wrong) rfl rfl rfl id (fun stopped => ?_)
      (fun wrong => by cases wrong) sound.fifo (running_set_idle found rfl rfl sound.once)
    rw [stop] at stopped
    cases stopped
  | @taken index task tasks found queue =>
    refine sound.set found (fun wrong => by cases wrong) rfl rfl rfl (fun empty => ?_)
      (fun _ wrong => by cases wrong) (fun wrong => by cases wrong) ?_ ?_
    · rw [queue] at empty
      cases empty
    · show pool.accepted = (pool.dequeued ++ [task]) ++ tasks
      rw [sound.fifo, queue, List.append_assoc]
      rfl
    · have more : ((pool.workers.set index (.running task)).filterMap (·.task)).Perm
          (task :: pool.running) := running_set found (.running task)
      have front := (List.perm_append_singleton task pool.dequeued).trans (sound.once.cons task)
      exact front.trans (more.symm.append_right pool.executed)
  | @finished index task found =>
    refine sound.set found (fun wrong => by cases wrong) rfl rfl rfl id
      (fun _ wrong => by cases wrong) (fun wrong => by cases wrong) sound.fifo ?_
    have less : (task :: (pool.workers.set index .looping).filterMap (·.task)).Perm
        pool.running := running_set found .looping
    have front := sound.once.trans (less.symm.append_right pool.executed)
    have last := List.perm_append_singleton task pool.executed
    exact front.trans (List.perm_middle.symm.trans (last.symm.append_left _))
  | stops here =>
    have called := sound.stopSound
    rw [here] at called
    exact ⟨sound.fifo, sound.once, fun member => ⟨rfl, (sound.ended member).2⟩, rfl, called.2⟩
  | notifiesAll here =>
    have called := sound.stopSound
    rw [here] at called
    refine ⟨sound.fifo, ?_, fun member => ?_, called.1, ?_, waiting_not_mem_map_wake _,
      Nat.zero_le _, fun _ below => by cases below⟩
    · show pool.dequeued.Perm (List.filterMap _ (pool.workers.map _) ++ _)
      rw [filterMap_task_map_wake]
      exact sound.once
    · exact sound.ended ((mem_map_wake member).resolve_right fun wrong => by cases wrong)
    · exact fun none => called.2 (List.map_eq_nil_iff.mp none)
  | @joined index here found =>
    have called := sound.stopSound
    rw [here] at called
    obtain ⟨stop, some, none, _, returned⟩ := called
    refine ⟨sound.fifo, sound.once, sound.ended, stop, some, none,
      (List.getElem?_eq_some_iff.mp found).1, fun place below => ?_⟩
    by_cases same : place = index
    · rw [same]
      exact found
    · exact returned place (by omega)
  | @cleared index here outside =>
    have called := sound.stopSound
    rw [here] at called
    obtain ⟨stop, some, _, _, returned⟩ := called
    have all : ∀ worker ∈ pool.workers, worker = .returned := by
      intro worker member
      obtain ⟨place, found⟩ := List.mem_iff_getElem?.mp member
      have inside := (List.getElem?_eq_some_iff.mp found).1
      have last := List.getElem?_eq_none_iff.mp outside
      exact Option.some.inj (found.symm.trans (returned place (by omega)))
    have empty : pool.tasks = [] := by
      obtain ⟨worker, member⟩ := List.exists_mem_of_ne_nil _ some
      exact (sound.ended (all worker member ▸ member)).2
    have idle : pool.running = [] := by
      refine List.filterMap_eq_nil_iff.mpr fun worker member => ?_
      rw [all worker member]
      rfl
    have once := sound.once
    rw [idle] at once
    refine ⟨sound.fifo, once, fun member => ?_, stop, rfl, empty⟩
    cases member

/-! ### The work that is left -/

def weight : PoolWorker Task → Nat
  | .returned => 0
  | .looping => 2
  | .waiting | .running _ => 3

def stopWeight (count : Nat) : StopCall → Nat
  | .uncalled => count + 3
  | .notifying => count + 2
  | .joining index => count + 1 - index
  | .returned => 0

/-- A bound on the steps that are left once the flag is set. -/
def work (pool : ThreadPool Task) : Nat :=
  (pool.workers.map weight).sum + 2 * pool.tasks.length + pool.notifies +
    stopWeight pool.workers.length pool.stopCall

theorem sum_weight_set {index : Nat} {old : PoolWorker Task}
    (found : pool.workers[index]? = some old) (new : PoolWorker Task) :
    ((pool.workers.set index new).map weight).sum + weight old =
      (pool.workers.map weight).sum + weight new := by
  obtain ⟨others, before, after⟩ := set_perm found new
  have one := (before.map weight).sum_nat
  have two := (after.map weight).sum_nat
  rw [List.map_cons, List.sum_cons] at one two
  omega

theorem sum_weight_wake (workers : List (PoolWorker Task)) :
    ((workers.map (·.wake)).map weight).sum ≤ (workers.map weight).sum := by
  induction workers with
  | nil => exact Nat.le_refl _
  | cons worker workers inductionHypothesis =>
    have first : weight worker.wake ≤ weight worker := by
      cases worker with
      | waiting => exact (by decide : 2 ≤ 3)
      | looping => exact Nat.le_refl 2
      | running task => exact Nat.le_refl 3
      | returned => exact Nat.le_refl 0
    rw [List.map_cons, List.map_cons, List.map_cons, List.sum_cons, List.sum_cons]
    omega

/-- Once the flag is set every step of the pool leaves less to do. -/
theorem work_moves (sound : pool.Sound) (stop : pool.stop = true)
    (moves : pool.Moves action next) :
    next.work + (if action.isOwn then 1 else 0) ≤ pool.work := by
  cases moves with
  | refused call =>
    rw [call]
    exact Nat.le_refl _
  | accepted _ running => rw [stop] at running; cases running
  | unheard owed => simp only [work, PoolAction.isOwn, if_true]; omega
  | @notified _ index owed found =>
    have weights := sum_weight_set found .looping
    simp only [work, setWorker, PoolAction.isOwn, if_true, List.length_set, weight] at weights ⊢
    omega
  | @woken index found =>
    have weights := sum_weight_set found .looping
    simp only [work, setWorker, PoolAction.isOwn, Bool.false_eq_true, if_false, List.length_set,
      weight] at weights ⊢
    omega
  | @ended index found =>
    have weights := sum_weight_set found .returned
    simp only [work, setWorker, PoolAction.isOwn, if_true, List.length_set, weight] at weights ⊢
    omega
  | waits _ _ running => rw [stop] at running; cases running
  | @taken index task tasks found queue =>
    have weights := sum_weight_set found (.running task)
    simp only [work, setWorker, PoolAction.isOwn, if_true, List.length_set, weight, queue,
      List.length_cons] at weights ⊢
    omega
  | @finished index task found =>
    have weights := sum_weight_set found .looping
    simp only [work, setWorker, PoolAction.isOwn, if_true, List.length_set, weight] at weights ⊢
    omega
  | stops here =>
    have called := sound.stopSound
    rw [here, stop] at called
    cases called.1
  | notifiesAll here =>
    have weights := sum_weight_wake pool.workers
    simp only [work, PoolAction.isOwn, if_true, List.length_map, here, stopWeight] at weights ⊢
    omega
  | joined here found =>
    have inside := (List.getElem?_eq_some_iff.mp found).1
    simp only [work, PoolAction.isOwn, if_true, here, stopWeight]
    omega
  | cleared here outside =>
    have called := sound.stopSound
    rw [here] at called
    have inside := called.2.2.2.1
    simp only [work, PoolAction.isOwn, if_true, here, stopWeight, List.map_nil, List.sum_nil]
    omega

/-- Once the flag is set no task is accepted. -/
theorem stopped_moves (stop : pool.stop = true) (moves : pool.Moves action next) :
    next.stop = true ∧ next.accepted = pool.accepted := by
  cases moves with
  | accepted _ running => rw [stop] at running; cases running
  | stops => exact ⟨rfl, rfl⟩
  | _ => exact ⟨stop, rfl⟩

/-- The step that the worker which `stop` waits for can take. -/
theorem worker_advances {index : Nat} {worker : PoolWorker Task}
    (found : pool.workers[index]? = some worker) (lives : worker ≠ .returned)
    (awake : worker ≠ .waiting) :
    ∃ action next, action.isOwn = true ∧ pool.step action = some next := by
  cases worker with
  | looping => exact ⟨.take index, pool.take index, rfl, by rw [step, found]⟩
  | waiting => exact absurd rfl awake
  | running task => exact ⟨.finish index, _, rfl, by rw [step, found]⟩
  | returned => exact absurd rfl lives

/-- Until `stop` has returned some thread can take a step. No worker waits any more where `stop`
joins them. -/
theorem Sound.advances (sound : pool.Sound) (stop : pool.stop = true)
    (unreturned : pool.stopCall ≠ .returned) :
    ∃ action next, action.isOwn = true ∧ pool.step action = some next := by
  have called := sound.stopSound
  cases here : pool.stopCall with
  | uncalled =>
    rw [here, stop] at called
    cases called.1
  | notifying => exact ⟨.notifyAll, _, rfl, by rw [step, here]⟩
  | joining index =>
    have joins : pool.step .join = pool.join index := by rw [step, here]
    rw [here] at called
    cases found : pool.workers[index]? with
    | none =>
      refine ⟨.join, { pool with workers := [], stopCall := .returned }, rfl, ?_⟩
      rw [joins, join, found]
    | some worker =>
      by_cases returned : worker = .returned
      · refine ⟨.join, { pool with stopCall := .joining (index + 1) }, rfl, ?_⟩
        rw [joins, join, found, returned]
      · refine worker_advances found returned fun waiting => ?_
        exact called.2.2.1 (waiting ▸ List.mem_of_getElem? found)
  | returned => exact absurd here unreturned

end Steps

/-! ### Runs -/

theorem sound_new (numThreads : Nat) : (newPool numThreads : ThreadPool Task).Sound := by
  have all (worker : PoolWorker Task)
      (member : worker ∈ (newPool numThreads : ThreadPool Task).workers) : worker = .looping :=
    List.eq_of_mem_replicate member
  have idle : (newPool numThreads : ThreadPool Task).running = [] := by
    refine List.filterMap_eq_nil_iff.mpr fun worker member => ?_
    rw [all worker member]
    rfl
  refine ⟨rfl, ?_, fun member => ?_, rfl, fun none => ?_⟩
  · rw [idle]
    exact .nil
  · cases all _ member
  · have length := congrArg List.length none
    rw [newPool, List.length_replicate] at length
    split at length
    · cases length
    · contradiction

variable {pool : ThreadPool Task}

theorem Sound.drained (sound : pool.Sound) : pool.Drains := by
  refine ⟨sound.fifo, sound.once, fun returned => ?_⟩
  have called := sound.stopSound
  rw [returned] at called
  have once := sound.once
  rw [running, called.2.1] at once
  rw [sound.fifo, called.2.2, List.append_nil]
  exact once

theorem Sound.stops (sound : pool.Sound) (stop : pool.stop = true) : pool.Stops := by
  refine ⟨pool.work, fun actions later run => ?_⟩
  have kept : later.Sound ∧ later.stop = true ∧ later.accepted = pool.accepted := by
    refine after_invariant
      (fun middle => middle.Sound ∧ middle.stop = true ∧ middle.accepted = pool.accepted)
      ?_ ⟨sound, stop, rfl⟩ run
    rintro middle action next ⟨sound, stop, same⟩ taken
    have moves := step_moves taken
    obtain ⟨stays, accepted⟩ := stopped_moves stop moves
    exact ⟨sound.moves moves, stays, accepted.trans same⟩
  obtain ⟨laterSound, stays, accepted⟩ := kept
  have bounded : actions.countP (·.isOwn) + later.work ≤ pool.work := by
    refine countP_le_of_measure (fun middle => middle.Sound ∧ middle.stop = true) work
      ?_ ?_ ⟨sound, stop⟩ run
    · rintro middle action next ⟨sound, stop⟩ taken
      have moves := step_moves taken
      exact ⟨sound.moves moves, (stopped_moves stop moves).1⟩
    · rintro middle action next ⟨sound, stop⟩ taken
      exact work_moves sound stop (step_moves taken)
  exact ⟨accepted, by omega, laterSound.advances stays⟩

/-- In every run of a pool, however the steps of its threads are interleaved, tasks are taken out in
the order in which they have been accepted and executed once, and `stop`, which returns, returns
when all of them have been executed. From its section on none is accepted. -/
theorem drains {numThreads : Nat} {actions : List (PoolAction Task)}
    (run : after step (newPool numThreads) actions = some pool) :
    pool.Drains ∧ (pool.stop = true → pool.Stops) := by
  have sound : pool.Sound :=
    after_invariant Sound (fun _ _ _ sound taken => sound.moves (step_moves taken))
      (sound_new numThreads) run
  exact ⟨sound.drained, sound.stops⟩

/-- Two workers, one of which is executing a task and the other waits when `stop` is called, with
another task in the queue. -/
def stoppedPool : ThreadPool Nat where
  workers := [.running 7, .waiting]
  tasks := [8]
  stop := true
  stopCall := .notifying
  notifies := 1
  accepted := [7, 8]
  dequeued := [7]

theorem drains_stopped : stoppedPool.Drains ∧ stoppedPool.Stops :=
  have run : after step (newPool 2) [.take 1, .post 7, .notifyOne (some 1), .take 0, .take 1,
      .submit 8, .stop, .post 9] = some stoppedPool := rfl
  ⟨(drains run).1, (drains run).2 rfl⟩

end ThreadPool

end AsyncNet.Executor
