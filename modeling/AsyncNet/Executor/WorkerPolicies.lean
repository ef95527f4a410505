/-
This file models `ForkPolicy` and `ThreadPolicy` of `executor/process_manager.hpp` and the part of
the system that each of them works on: the children of the master with the signals that it has sent,
and the threads of the workers with their `running` flags.

The system follows POSIX. A pid is not given to a new child while an earlier child that has it has
not been reaped, `waitpid` finds only children that have not been reaped, and where it blocks it
returns when the child has exited.
-/

import AsyncNet.Executor.ProcessManager

namespace AsyncNet.Executor

/-! ### Forked workers -/

namespace Fork

inductive ChildStatus where
  | running
  | exited
  | reaped
  deriving DecidableEq

structure Child where
  pid : Nat
  status : ChildStatus := .running
  deriving DecidableEq

/-- `ForkPolicy::handle_type`. The last field records which child was forked for it. -/
structure Handle where
  pid : Nat := 0
  child : Option Nat := none
  deriving DecidableEq

/-- The children of the master in the order in which they have been forked. The last field records
each signal that has been sent, with its pid and the child that has got it. -/
structure Processes where
  children : List Child := []
  signals : List (Nat × Option Nat) := []
  deriving DecidableEq

namespace Processes

/-- The child with a pid that has not been reaped. -/
def find (world : Processes) (pid : Nat) : Option Nat :=
  world.children.findIdx? fun child => child.pid = pid ∧ child.status ≠ .reaped

def hasExited (world : Processes) (child : Nat) : Bool :=
  (world.children[child]?).any (·.status = .exited)

def reaped (world : Processes) (child : Nat) : Processes :=
  { world with
    children := world.children.modify child fun child => { child with status := .reaped } }

/-- `kill`. -/
def kill (world : Processes) (pid : Nat) : Processes :=
  { world with signals := world.signals ++ [(pid, world.find pid)] }

end Processes

/-- `fork`, which gives a pid or fails. -/
def spawn (world : Processes) : Option Nat → Option (Handle × Processes)
  | none => some ({}, world)
  | some pid =>
      if pid ≠ 0 ∧ world.find pid = none then
        some (⟨pid, some world.children.length⟩,
          { world with children := world.children ++ [{ pid }] })
      else none

/-- `signal_stop`, and `force_stop` up to `waitpid`. -/
def signal (world : Processes) (h : Handle) : Processes :=
  if h.pid ≠ 0 then world.kill h.pid else world

/-- `is_alive`: a child that has exited is reaped. -/
def isAlive (world : Processes) (h : Handle) : Bool × Handle × Processes :=
  if h.pid = 0 then (false, h, world)
  else
    match world.find h.pid with
    | none => (false, { h with pid := 0 }, world)
    | some child =>
        if world.hasExited child then (false, { h with pid := 0 }, world.reaped child)
        else (true, h, world)

/-- `waitpid` in `force_stop`, when it returns. -/
def forceWait (world : Processes) (h : Handle) : Option (Handle × Processes) :=
  if h.pid = 0 then some (h, world)
  else
    match world.find h.pid with
    | none => some ({ h with pid := 0 }, world)
    | some child =>
        if world.hasExited child then some ({ h with pid := 0 }, world.reaped child) else none

/-- The first handle with a pid, after it has been cleared. -/
def clearPid (handles : List Handle) (pid : Nat) : Option (Nat × Handle) :=
  (handles.findIdx? (·.pid = pid)).bind fun index =>
    (handles[index]?).map fun h => (index, { h with pid := 0 })

/-- A pass of the loop in `reap`. What `waitpid` returns for any child is a pid of one that has
exited, or none if there is none. -/
def reap (world : Processes) (handles : List Handle) (_passes : Nat) :
    Option Nat → Option (ReapPass Handle Processes)
  | none =>
      if world.children.all (·.status ≠ .exited) then some { world, again := false } else none
  | some pid =>
      match world.find pid with
      | none => none
      | some child =>
          if world.hasExited child then
            some { world := world.reaped child, again := true, change := clearPid handles pid }
          else none

/-- A child exits. -/
def exits (world : Processes) (child : Nat) : Option Processes :=
  (world.children[child]?).bind fun found =>
    if found.status = .running then
      some { world with
        children := world.children.modify child fun child => { child with status := .exited } }
    else none

end Fork

/-- `ForkPolicy`. -/
def forkPolicy : WorkerPolicy Fork.Handle Fork.Processes (Option Nat) Nat where
  spawn := Fork.spawn
  signalStop := Fork.signal
  isAlive := Fork.isAlive
  forceKill := Fork.signal
  forceWait := Fork.forceWait
  reap := Fork.reap
  isGone _ h := h.pid = 0
  terminates _ := false
  happens := Fork.exits

/-! ### Worker threads -/

namespace Thread

/-- `ThreadPolicy::handle_type`: the number of the thread and whether its `std::thread` is joinable.
The flag `running` is shared with the thread. -/
structure Handle where
  thread : Nat
  joinable : Bool := true
  deriving DecidableEq

/-- The thread of a worker: its flag, and whether it has ended. -/
structure WorkerThread where
  running : Bool := true
  ended : Bool := false
  deriving DecidableEq

abbrev Threads := List WorkerThread

def isRunning (world : Threads) (h : Handle) : Bool := (world[h.thread]?).any (·.running)

def hasEnded (world : Threads) (h : Handle) : Bool := (world[h.thread]?).any (·.ended)

/-- `join`, when it returns. -/
def join (world : Threads) (h : Handle) : Option Handle :=
  if hasEnded world h then some { h with joinable := false } else none

/-- `signal_stop`, which clears the flag itself. -/
def signalStop (world : Threads) (h : Handle) : Threads :=
  world.modify h.thread fun thread => { thread with running := false }

/-- `force_stop`. -/
def forceWait (world : Threads) (h : Handle) : Option (Handle × Threads) :=
  if h.joinable then (join world h).map fun h => (h, world) else some (h, world)

/-- A pass of the loop in `reap`, which joins the threads that have cleared their flags. -/
def reap (world : Threads) (handles : List Handle) (passes : Nat) :
    Option (ReapPass Handle Threads) :=
  match handles[passes]? with
  | none => some { world, again := false }
  | some h =>
      if !isRunning world h && h.joinable then
        (join world h).map fun h => { world, again := true, change := some (passes, h) }
      else some { world, again := true }

/-- The function of a worker returns: the thread clears the flag and ends. -/
def ends (world : Threads) (thread : Nat) : Option Threads :=
  (world[thread]?).bind fun found =>
    if found.ended then none
    else some (world.modify thread fun _ => { running := false, ended := true })

end Thread

/-- `ThreadPolicy`. -/
def threadPolicy : WorkerPolicy Thread.Handle Thread.Threads Unit Nat where
  spawn world _ := some ({ thread := world.length }, world ++ [{}])
  signalStop := Thread.signalStop
  isAlive world h := (Thread.isRunning world h, h, world)
  forceKill world _ := world
  forceWait := Thread.forceWait
  reap world handles passes _ := Thread.reap world handles passes
  isGone world h := !Thread.isRunning world h && !h.joinable
  terminates h := h.joinable
  happens := Thread.ends

end AsyncNet.Executor
