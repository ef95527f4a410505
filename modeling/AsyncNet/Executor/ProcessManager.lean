/-
This file models `process_manager` of `executor/process_manager.hpp`, the master that spawns
workers, replaces them on a reload and stops them. It is generic in the policy, which says what
a worker is. The master is one thread: every call of the policy, every look at the clock and
every test of a flag is one step of it, and between its steps anything may happen to the
workers. What the clock, the flags and the system answer is given with the step that asks.

The flags are tested at two places, and both functions that stop workers go through the same
phases: they signal the workers, wait for them, force those that are left and erase the entries.
So these phases are modelled once, for a sweep of the workers of older generations and for one
of all.
-/

import AsyncNet.Library.Schedules
import Mathlib.Algebra.Group.Nat.Defs

namespace AsyncNet.Executor

open Library

/-! ### Configurations and workers -/

/-- A configuration, as `WorkerConfig` asks for it: the two fields that the master reads, and the
others. -/
structure WorkerConfig (Rest : Type) where
  numWorkers : Nat
  gracefulTimeout : Nat
  rest : Rest
  deriving DecidableEq

/-- `resolve_config`, with the value of `hardware_concurrency`. -/
def resolveConfig {Rest : Type} (hardware : Nat) (cfg : WorkerConfig Rest) : WorkerConfig Rest :=
  if cfg.numWorkers = 0 then { cfg with numWorkers := if hardware = 0 then 4 else hardware }
  else cfg

/-- What an entry holds apart from its handle. The last field records the configuration with which
the worker has been spawned. -/
structure WorkerTag (Rest : Type) where
  generation : Nat
  stopping : Bool := false
  config : WorkerConfig Rest
  deriving DecidableEq

/-- `worker_entry`. -/
structure WorkerEntry (Rest Handle : Type) extends WorkerTag Rest where
  handle : Handle
  workerId : Nat

/-- A pass of the loop in `reap`: whether the loop goes on, and the entry whose handle it changes.
-/
structure ReapPass (Handle World : Type) where
  world : World
  again : Bool
  change : Option (Nat × Handle) := none

/-- A `WorkerPolicy`, with the part of the world that it works on. The call of `force_stop` is split
where it waits. The last two fields say whether the destructor of a handle terminates the process,
and what else can happen in the world. -/
structure WorkerPolicy (Handle World Answer Event : Type) where
  spawn : World → Answer → Option (Handle × World)
  signalStop : World → Handle → World
  isAlive : World → Handle → Bool × Handle × World
  forceKill : World → Handle → World
  forceWait : World → Handle → Option (Handle × World)
  reap : World → List Handle → Nat → Answer → Option (ReapPass Handle World)
  isGone : World → Handle → Bool
  terminates : Handle → Bool
  happens : World → Event → Option World

/-! ### The master -/

/-- A reload: what `reload_fn_` has returned, nothing if it is not set, and `new_config`. -/
structure Reload (Rest : Type) where
  returned : Option (WorkerConfig Rest)
  newConfig : WorkerConfig Rest
  deriving DecidableEq

/-- `stop_old_workers`, within a reload, and `stop_all_workers`. -/
inductive Sweep (Rest : Type) where
  | old (reload : Reload Rest)
  | all
  deriving DecidableEq

/-- Where the master is: before `run`, in `spawn_workers`, at the two tests of the loop, at an entry
in the phases of a sweep, in `reap`, at the test whether there are workers left, after `run`, and
where `std::terminate` has been called. -/
inductive MasterPlace (Rest : Type) where
  | ready
  | spawning (i count : Nat) (reload : Option (Reload Rest))
  | shutdownTest
  | reloadTest
  | signal (sweep : Sweep Rest) (index : Nat)
  | wait (sweep : Sweep Rest) (index : Nat)
  | poll (sweep : Sweep Rest) (index : Nat)
  | check (sweep : Sweep Rest) (index : Nat)
  | forceKill (sweep : Sweep Rest) (index : Nat)
  | forceWait (sweep : Sweep Rest) (index : Nat)
  | erase (sweep : Sweep Rest)
  | reaping (passes : Nat)
  | emptyTest
  | finished
  | terminated
  deriving DecidableEq

/-- `process_manager`, with the place of the master in it and the world of the policy. The last
field records the handles of the entries that have been removed from `workers_`. -/
structure ProcessManager (Rest Handle World : Type) where
  config : WorkerConfig Rest
  hardware : Nat
  world : World
  workers : List (WorkerEntry Rest Handle) := []
  currentGeneration : Nat := 0
  place : MasterPlace Rest := .ready
  removed : List Handle := []

/-- What happens in the world, and the steps of the master. A test of the flag for a reload that
finds it set comes with what `reload_fn_` returns. -/
inductive MasterAction (Rest Answer Event : Type) where
  | event (event : Event)
  | testShutdown (requested : Bool)
  | testReload (requested : Option (Option (WorkerConfig Rest)))
  | clock (expired : Bool)
  | advance (answer : Answer)

/-- The new configuration of a reload. -/
def newConfig {Rest : Type} (config : WorkerConfig Rest) :
    Option (WorkerConfig Rest) → WorkerConfig Rest
  | none => config
  | some returned =>
      if returned.numWorkers = 0 then { returned with numWorkers := config.numWorkers }
      else returned

/-- An entry is one that a sweep stops. -/
def WorkerTag.isSwept {Rest : Type} (tag : WorkerTag Rest) (currentGeneration : Nat) :
    Sweep Rest → Bool
  | .old _ => tag.generation ≠ currentGeneration
  | .all => true

/-- The place after an entry has been stopped. -/
def Sweep.next {Rest : Type} (index : Nat) : Sweep Rest → MasterPlace Rest
  | .old reload => .wait (.old reload) (index + 1)
  | .all => .check .all (index + 1)

namespace ProcessManager

variable {Rest Handle World Answer Event : Type}

/-- The beginning of `run`. -/
def start (manager : ProcessManager Rest Handle World) : ProcessManager Rest Handle World :=
  let config := resolveConfig manager.hardware manager.config
  { manager with config, currentGeneration := 1, place := .spawning 0 config.numWorkers none }

/-- The test of `reload_requested`, and a reload up to its call of `spawn_workers`. -/
def testReload (manager : ProcessManager Rest Handle World) :
    Option (Option (WorkerConfig Rest)) → ProcessManager Rest Handle World
  | none => { manager with place := .reaping 0 }
  | some returned =>
      let newConfig := newConfig manager.config returned
      { manager with
        currentGeneration := (manager.currentGeneration + 1) % 2 ^ 32
        place := .spawning 0 newConfig.numWorkers (some ⟨returned, newConfig⟩) }

/-- A look at the clock in one of the loops that wait. The loop of `stop_old_workers` takes the
entries one after the other, and comes to its end with the last. -/
def clock (manager : ProcessManager Rest Handle World) (sweep : Sweep Rest) (index : Nat)
    (expired : Bool) : ProcessManager Rest Handle World :=
  match sweep with
  | .all => { manager with place := if expired then .check sweep 0 else .poll sweep 0 }
  | .old _ =>
      match manager.workers[index]? with
      | none => { manager with place := .erase sweep }
      | some entry =>
          if entry.isSwept manager.currentGeneration sweep && entry.stopping then
            { manager with place := if expired then .check sweep index else .poll sweep index }
          else { manager with place := .wait sweep (index + 1) }

def setHandle (manager : ProcessManager Rest Handle World) (index : Nat) (handle : Handle) :
    ProcessManager Rest Handle World :=
  { manager with
    workers := manager.workers.modify index fun entry => { entry with handle := handle } }

/-- What a pass of the loop in `reap` changes. -/
def takePass (manager : ProcessManager Rest Handle World) (pass : ReapPass Handle World) :
    ProcessManager Rest Handle World :=
  match pass.change with
  | none => { manager with world := pass.world }
  | some (index, handle) => { manager.setHandle index handle with world := pass.world }

/-- Entries are removed. If the destructor of a handle terminates the process, nothing follows. -/
def remove (manager : ProcessManager Rest Handle World) (terminates : Handle → Bool)
    (isRemoved : WorkerEntry Rest Handle → Bool) (next : MasterPlace Rest) :
    ProcessManager Rest Handle World :=
  let removed := (manager.workers.filter isRemoved).map (·.handle)
  { manager with
    workers := manager.workers.filter (!isRemoved ·)
    removed := manager.removed ++ removed
    place := if removed.any terminates then .terminated else next }

theorem place_remove (manager : ProcessManager Rest Handle World) (terminates : Handle → Bool)
    (isRemoved : WorkerEntry Rest Handle → Bool) (next : MasterPlace Rest) :
    (manager.remove terminates isRemoved next).place = .terminated ∨
      (manager.remove terminates isRemoved next).place = next := by
  unfold remove
  dsimp only
  split
  · exact Or.inl rfl
  · exact Or.inr rfl

variable (policy : WorkerPolicy Handle World Answer Event)

/-- The loop of `spawn_workers`, which passes `config_` to the policy, and its end. -/
def spawnWorker (manager : ProcessManager Rest Handle World) (i count : Nat)
    (reload : Option (Reload Rest)) (answer : Answer) :
    Option (ProcessManager Rest Handle World) :=
  if i < count then
    (policy.spawn manager.world answer).map fun (handle, world) =>
      { manager with
        world
        workers := manager.workers ++
          [{ handle, workerId := i, generation := manager.currentGeneration,
             config := manager.config }]
        place := .spawning (i + 1) count reload }
  else
    some { manager with
      place :=
        match reload with
        | none => .shutdownTest
        | some reload => .signal (.old reload) 0 }

/-- The loop that signals the workers. -/
def signal (manager : ProcessManager Rest Handle World) (sweep : Sweep Rest) (index : Nat) :
    ProcessManager Rest Handle World :=
  match manager.workers[index]? with
  | none => { manager with place := .wait sweep 0 }
  | some entry =>
      if entry.isSwept manager.currentGeneration sweep && !entry.stopping then
        { manager with
          world := policy.signalStop manager.world entry.handle
          workers := manager.workers.modify index fun entry => { entry with stopping := true }
          place := .signal sweep (index + 1) }
      else { manager with place := .signal sweep (index + 1) }

/-- `is_alive` for an entry. -/
def askAlive (manager : ProcessManager Rest Handle World) (index : Nat) (handle : Handle)
    (place : Bool → MasterPlace Rest) : ProcessManager Rest Handle World :=
  let (alive, handle, world) := policy.isAlive manager.world handle
  { manager.setHandle index handle with world, place := place alive }

/-- Where the master goes after it has polled a worker. One that lives sends `stop_all_workers` back
to its first entry. -/
def afterPoll (sweep : Sweep Rest) (index : Nat) (alive : Bool) : MasterPlace Rest :=
  match sweep with
  | .old _ => if alive then .wait sweep index else .check sweep index
  | .all => if alive then .wait sweep 0 else .poll sweep (index + 1)

/-- A worker is polled while the deadline has not come. -/
def poll (manager : ProcessManager Rest Handle World) (sweep : Sweep Rest) (index : Nat) :
    ProcessManager Rest Handle World :=
  match manager.workers[index]? with
  | none => { manager with place := .check sweep 0 }
  | some entry =>
      manager.askAlive policy index entry.handle (afterPoll sweep index)

/-- The last look at a worker, after which it is forced if it lives. -/
def check (manager : ProcessManager Rest Handle World) (sweep : Sweep Rest) (index : Nat) :
    ProcessManager Rest Handle World :=
  match manager.workers[index]? with
  | none => { manager with place := .erase sweep }
  | some entry =>
      manager.askAlive policy index entry.handle fun alive =>
        if alive then .forceKill sweep index else sweep.next index

/-- The end of a sweep. A reload ends with the new number of workers. -/
def erase (manager : ProcessManager Rest Handle World) (sweep : Sweep Rest) :
    ProcessManager Rest Handle World :=
  let isRemoved (entry : WorkerEntry Rest Handle) :=
    entry.isSwept manager.currentGeneration sweep
  match sweep with
  | .all => manager.remove policy.terminates isRemoved .finished
  | .old reload =>
      let next := manager.remove policy.terminates isRemoved (.reaping 0)
      match next.place with
      | .terminated => next
      | _ =>
          { next with config := { manager.config with numWorkers := reload.newConfig.numWorkers } }

/-- A pass of the loop in `reap`, or its end, with which the entries are removed that are gone. -/
def reap (manager : ProcessManager Rest Handle World) (passes : Nat) (answer : Answer) :
    Option (ProcessManager Rest Handle World) :=
  (policy.reap manager.world (manager.workers.map (·.handle)) passes answer).map fun pass =>
    let manager := manager.takePass pass
    if pass.again then { manager with place := .reaping (passes + 1) }
    else
      manager.remove policy.terminates (fun entry => policy.isGone manager.world entry.handle)
        .emptyTest

/-- A step of the master that is neither a test of a flag nor a look at the clock. -/
def advance (manager : ProcessManager Rest Handle World) (answer : Answer) :
    Option (ProcessManager Rest Handle World) :=
  match manager.place with
  | .ready => some manager.start
  | .spawning i count reload => manager.spawnWorker policy i count reload answer
  | .signal sweep index => some (manager.signal policy sweep index)
  | .poll sweep index => some (manager.poll policy sweep index)
  | .check sweep index => some (manager.check policy sweep index)
  | .forceKill sweep index =>
      (manager.workers[index]?).map fun entry =>
        { manager with
          world := policy.forceKill manager.world entry.handle, place := .forceWait sweep index }
  | .forceWait sweep index =>
      (manager.workers[index]?).bind fun entry =>
        (policy.forceWait manager.world entry.handle).map fun (handle, world) =>
          { manager.setHandle index handle with world, place := sweep.next index }
  | .erase sweep => some (manager.erase policy sweep)
  | .reaping passes => manager.reap policy passes answer
  | .emptyTest =>
      some { manager with
        place := if manager.workers.isEmpty then .signal .all 0 else .shutdownTest }
  | .shutdownTest | .reloadTest | .wait _ _ | .finished | .terminated => none

/-- A step of the master, if it is there, or something that happens in the world. -/
def step (manager : ProcessManager Rest Handle World) :
    MasterAction Rest Answer Event → Option (ProcessManager Rest Handle World)
  | .event event => (policy.happens manager.world event).map fun world => { manager with world }
  | .testShutdown requested =>
      match manager.place with
      | .shutdownTest =>
          some { manager with place := if requested then .signal .all 0 else .reloadTest }
      | _ => none
  | .testReload requested =>
      match manager.place with
      | .reloadTest => some (manager.testReload requested)
      | _ => none
  | .clock expired =>
      match manager.place with
      | .wait sweep index => some (manager.clock sweep index expired)
      | _ => none
  | .advance answer => manager.advance policy answer

/-! ### What a step can do -/

/-- The steps that only change the place of the master. -/
inductive Goes (manager : ProcessManager Rest Handle World) : MasterPlace Rest → Prop where
  | shutdownTest (here : manager.place = .shutdownTest) (requested : Bool) :
      Goes manager (if requested then .signal .all 0 else .reloadTest)
  | noReload (here : manager.place = .reloadTest) : Goes manager (.reaping 0)
  | running {i count : Nat} (here : manager.place = .spawning i count none) (done : ¬ i < count) :
      Goes manager .shutdownTest
  | reloading {i count : Nat} {reload : Reload Rest}
      (here : manager.place = .spawning i count (some reload)) (done : ¬ i < count) :
      Goes manager (.signal (.old reload) 0)
  | signalled {sweep : Sweep Rest} {index : Nat} (here : manager.place = .signal sweep index)
      (outside : manager.workers[index]? = none) : Goes manager (.wait sweep 0)
  | skipped {sweep : Sweep Rest} {index : Nat} {entry : WorkerEntry Rest Handle}
      (here : manager.place = .signal sweep index)
      (found : manager.workers[index]? = some entry)
      (told : entry.isSwept manager.currentGeneration sweep = true → entry.stopping = true) :
      Goes manager (.signal sweep (index + 1))
  | waitAll {index : Nat} (here : manager.place = .wait .all index) (expired : Bool) :
      Goes manager (if expired then .check .all 0 else .poll .all 0)
  | waited {reload : Reload Rest} {index : Nat} (here : manager.place = .wait (.old reload) index)
      (outside : manager.workers[index]? = none) : Goes manager (.erase (.old reload))
  | waitOld {reload : Reload Rest} {index : Nat} {entry : WorkerEntry Rest Handle}
      (here : manager.place = .wait (.old reload) index)
      (found : manager.workers[index]? = some entry)
      (mine : entry.isSwept manager.currentGeneration (.old reload) = true) (expired : Bool) :
      Goes manager (if expired then .check (.old reload) index else .poll (.old reload) index)
  | passed {reload : Reload Rest} {index : Nat} {entry : WorkerEntry Rest Handle}
      (here : manager.place = .wait (.old reload) index)
      (found : manager.workers[index]? = some entry)
      (other : ¬ (entry.isSwept manager.currentGeneration (.old reload) = true ∧
        entry.stopping = true)) : Goes manager (.wait (.old reload) (index + 1))
  | polled {sweep : Sweep Rest} {index : Nat} (here : manager.place = .poll sweep index)
      (outside : manager.workers[index]? = none) : Goes manager (.check sweep 0)
  | checked {sweep : Sweep Rest} {index : Nat} (here : manager.place = .check sweep index)
      (outside : manager.workers[index]? = none) : Goes manager (.erase sweep)
  | exited (here : manager.place = .emptyTest) (empty : manager.workers = []) :
      Goes manager (.signal .all 0)
  | continued (here : manager.place = .emptyTest) (some : manager.workers ≠ []) :
      Goes manager .shutdownTest

theorem Goes.ne_ready {manager : ProcessManager Rest Handle World} {place : MasterPlace Rest}
    (goes : manager.Goes place) : manager.place ≠ .ready := by
  intro ready
  cases goes <;> simp_all

/-- All that a step can do, with what it has found. -/
inductive Moves (manager : ProcessManager Rest Handle World) :
    ProcessManager Rest Handle World → Prop where
  | event {event : Event} {world : World}
      (happened : policy.happens manager.world event = some world) :
      Moves manager { manager with world }
  | start (here : manager.place = .ready) : Moves manager manager.start
  | reload (here : manager.place = .reloadTest) (returned : Option (WorkerConfig Rest)) :
      Moves manager (manager.testReload (some returned))
  | goes {place : MasterPlace Rest} (goes : manager.Goes place) :
      Moves manager { manager with place }
  | spawn {i count : Nat} {reload : Option (Reload Rest)} {answer : Answer} {handle : Handle}
      {world : World} (here : manager.place = .spawning i count reload) (more : i < count)
      (spawned : policy.spawn manager.world answer = some (handle, world)) :
      Moves manager { manager with
        world
        workers := manager.workers ++
          [{ handle, workerId := i, generation := manager.currentGeneration,
             config := manager.config }]
        place := .spawning (i + 1) count reload }
  | signal {sweep : Sweep Rest} {index : Nat} {entry : WorkerEntry Rest Handle}
      (here : manager.place = .signal sweep index) (found : manager.workers[index]? = some entry)
      (mine : entry.isSwept manager.currentGeneration sweep = true) :
      Moves manager { manager with
        world := policy.signalStop manager.world entry.handle
        workers := manager.workers.modify index fun entry => { entry with stopping := true }
        place := .signal sweep (index + 1) }
  | poll {sweep : Sweep Rest} {index : Nat} {entry : WorkerEntry Rest Handle}
      (here : manager.place = .poll sweep index) (found : manager.workers[index]? = some entry) :
      Moves manager (manager.askAlive policy index entry.handle (afterPoll sweep index))
  | check {sweep : Sweep Rest} {index : Nat} {entry : WorkerEntry Rest Handle}
      (here : manager.place = .check sweep index) (found : manager.workers[index]? = some entry) :
      Moves manager (manager.askAlive policy index entry.handle fun alive =>
        if alive then .forceKill sweep index else sweep.next index)
  | forceKill {sweep : Sweep Rest} {index : Nat} {entry : WorkerEntry Rest Handle}
      (here : manager.place = .forceKill sweep index)
      (found : manager.workers[index]? = some entry) :
      Moves manager { manager with
        world := policy.forceKill manager.world entry.handle, place := .forceWait sweep index }
  | forceWait {sweep : Sweep Rest} {index : Nat} {entry : WorkerEntry Rest Handle}
      {handle : Handle} {world : World} (here : manager.place = .forceWait sweep index)
      (found : manager.workers[index]? = some entry)
      (ended : policy.forceWait manager.world entry.handle = some (handle, world)) :
      Moves manager
        { manager.setHandle index handle with world, place := sweep.next index }
  | erase {sweep : Sweep Rest} (here : manager.place = .erase sweep) :
      Moves manager (manager.erase policy sweep)
  | reapMore {passes : Nat} {answer : Answer} {pass : ReapPass Handle World}
      (here : manager.place = .reaping passes)
      (reaped : policy.reap manager.world (manager.workers.map (·.handle)) passes answer =
        some pass)
      (again : pass.again = true) :
      Moves manager { manager.takePass pass with place := .reaping (passes + 1) }
  | reapEnd {passes : Nat} {answer : Answer} {pass : ReapPass Handle World}
      (here : manager.place = .reaping passes)
      (reaped : policy.reap manager.world (manager.workers.map (·.handle)) passes answer =
        some pass)
      (done : pass.again = false) :
      Moves manager ((manager.takePass pass).remove policy.terminates
        (fun entry => policy.isGone (manager.takePass pass).world entry.handle) .emptyTest)

/-- What the end of a sweep does to the entries. -/
theorem erase_spec (manager : ProcessManager Rest Handle World) (sweep : Sweep Rest) :
    (manager.erase policy sweep).workers =
        manager.workers.filter (!·.isSwept manager.currentGeneration sweep) ∧
      (manager.erase policy sweep).removed = manager.removed ++
        (manager.workers.filter (·.isSwept manager.currentGeneration sweep)).map (·.handle) ∧
      (manager.erase policy sweep).world = manager.world ∧
      ((manager.erase policy sweep).place = .terminated ∨
        (manager.erase policy sweep).place = .finished ∨
          (manager.erase policy sweep).place = .reaping 0) := by
  unfold erase
  cases sweep with
  | all => exact ⟨rfl, rfl, rfl, (manager.place_remove _ _ _).imp_right Or.inl⟩
  | old reload =>
    dsimp only
    split
    · rename_i terminated
      exact ⟨rfl, rfl, rfl, Or.inl terminated⟩
    · exact ⟨rfl, rfl, rfl, (manager.place_remove _ _ _).imp_right Or.inr⟩

section Inversion

variable {policy} {manager next : ProcessManager Rest Handle World}

theorem moves_spawnWorker {i count : Nat} {reload : Option (Reload Rest)} {answer : Answer}
    (here : manager.place = .spawning i count reload)
    (taken : manager.spawnWorker policy i count reload answer = some next) :
    Moves policy manager next := by
  unfold spawnWorker at taken
  split at taken
  · rename_i more
    obtain ⟨⟨handle, world⟩, spawned, rfl⟩ := Option.map_eq_some_iff.mp taken
    exact .spawn here more spawned
  · rename_i done
    cases taken
    cases reload with
    | none => exact .goes (.running here done)
    | some reload => exact .goes (.reloading here done)

theorem moves_signal {sweep : Sweep Rest} {index : Nat}
    (here : manager.place = .signal sweep index) :
    Moves policy manager (manager.signal policy sweep index) := by
  unfold signal
  split
  · rename_i outside
    exact .goes (.signalled here outside)
  · rename_i entry found
    split
    · rename_i tells
      exact .signal here found (Bool.and_eq_true_iff.mp tells).1
    · rename_i stays
      refine .goes (.skipped here found fun mine => ?_)
      by_contra running
      refine stays (Bool.and_eq_true_iff.mpr ⟨mine, ?_⟩)
      rw [(Bool.not_eq_true _).mp running]
      rfl

theorem moves_clock {sweep : Sweep Rest} {index : Nat} (here : manager.place = .wait sweep index)
    (expired : Bool) : Moves policy manager (manager.clock sweep index expired) := by
  unfold clock
  cases sweep with
  | all => exact .goes (.waitAll here expired)
  | old reload =>
    dsimp only
    split
    · rename_i outside
      exact .goes (.waited here outside)
    · rename_i entry found
      split
      · rename_i mine
        exact .goes (.waitOld here found (Bool.and_eq_true_iff.mp mine).1 expired)
      · rename_i other
        exact .goes (.passed here found fun both => other (Bool.and_eq_true_iff.mpr both))

theorem moves_reap {passes : Nat} {answer : Answer} (here : manager.place = .reaping passes)
    (taken : manager.reap policy passes answer = some next) : Moves policy manager next := by
  obtain ⟨pass, reaped, rfl⟩ := Option.map_eq_some_iff.mp taken
  dsimp only
  split
  · rename_i again
    exact .reapMore here reaped again
  · rename_i done
    exact .reapEnd here reaped ((Bool.not_eq_true _).mp done)

theorem moves_advance {answer : Answer} (taken : manager.advance policy answer = some next) :
    Moves policy manager next := by
  unfold advance at taken
  split at taken
  · rename_i here
    cases taken
    exact .start here
  · rename_i here
    exact moves_spawnWorker here taken
  · rename_i here
    cases taken
    exact moves_signal here
  · rename_i here
    cases taken
    unfold poll
    split
    · rename_i outside
      exact .goes (.polled here outside)
    · rename_i found
      exact .poll here found
  · rename_i here
    cases taken
    unfold check
    split
    · rename_i outside
      exact .goes (.checked here outside)
    · rename_i found
      exact .check here found
  · rename_i here
    obtain ⟨entry, found, rfl⟩ := Option.map_eq_some_iff.mp taken
    exact .forceKill here found
  · rename_i here
    obtain ⟨entry, found, waited⟩ := Option.bind_eq_some_iff.mp taken
    obtain ⟨⟨handle, world⟩, ended, rfl⟩ := Option.map_eq_some_iff.mp waited
    exact .forceWait here found ended
  · rename_i here
    cases taken
    exact .erase here
  · rename_i here
    exact moves_reap here taken
  · rename_i here
    cases taken
    split
    · rename_i empty
      exact .goes (.exited here (List.isEmpty_iff.mp empty))
    · rename_i some
      exact .goes (.continued here fun empty => some (List.isEmpty_iff.mpr empty))
  · cases taken
  · cases taken
  · cases taken
  · cases taken
  · cases taken

theorem step_moves {action : MasterAction Rest Answer Event}
    (taken : manager.step policy action = some next) : Moves policy manager next := by
  cases action with
  | event event =>
    obtain ⟨world, happened, rfl⟩ := Option.map_eq_some_iff.mp taken
    exact .event happened
  | testShutdown requested =>
    rw [step] at taken
    split at taken
    · rename_i here
      cases taken
      exact .goes (.shutdownTest here requested)
    · cases taken
  | testReload requested =>
    rw [step] at taken
    split at taken
    · rename_i here
      cases taken
      cases requested with
      | none => exact .goes (.noReload here)
      | some returned => exact .reload here returned
    · cases taken
  | clock expired =>
    rw [step] at taken
    split at taken
    · rename_i here
      cases taken
      exact moves_clock here expired
    · cases taken
  | advance answer => exact moves_advance taken

end Inversion

end ProcessManager

end AsyncNet.Executor
