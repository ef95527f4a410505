/-
This file models `EpollBackend` of `io/epoll_backend.cpp`. Every section under the mutex is one
step. One thread polls; it submits operations as well, before and after a poll and in the
coroutines that it resumes, and other threads submit operations at any time. What the kernel
returns is given with the step that asks it.

Operations are recorded by direction and descriptor alone. `poll_impl` completes operations in
one section and takes them out of the maps in another. So what is recorded under a descriptor in
the second section need not be what was completed in the first.
-/

import AsyncNet.Library.Schedules
import Mathlib.Logic.Function.Basic

namespace AsyncNet.Io

/-! ### Operations -/

/-- `socket_t`. -/
abbrev Fd := Int

/-- An `OperationContext`, by its identity. -/
abbrev Ctx := Nat

inductive OpType where
  | read
  | write
  | accept
  | connect
  | recvFrom
  | sendTo
  | waitReadable
  | waitWritable
  deriving DecidableEq

/-- The maps `read_ops_` and `write_ops_`. -/
inductive Direction where
  | read
  | write
  deriving DecidableEq

def OpType.direction : OpType → Direction
  | .read | .accept | .recvFrom | .waitReadable => .read
  | .write | .connect | .sendTo | .waitWritable => .write

def OpType.isWait : OpType → Bool
  | .waitReadable | .waitWritable => true
  | _ => false

/-- What a call of the kernel gives: a value, or `errno`. -/
abbrev KernelResult := Except Nat Nat

/-- `is_would_block`: `EAGAIN` or `EINPROGRESS`. -/
def isWouldBlock (errno : Nat) : Bool := errno = 11 || errno = 115

/-- The result and the error code with which `poll_impl` completes an operation, none if it would
block. A connection and a wait are completed in any case. -/
def OpType.outcome : OpType → KernelResult → Option (Int × Nat)
  | .waitReadable, _ | .waitWritable, _ => some (0, 0)
  | .connect, .ok _ => some (0, 0)
  | .connect, .error errno => some (if errno = 0 then 0 else -1, errno)
  | .accept, .ok _ => some (0, 0)
  | _, .ok bytes => some (bytes, 0)
  | _, .error errno => if isWouldBlock errno then none else some (-1, errno)

/-- The same for the attempt that is made when an operation is submitted. An accept is left to
`poll_impl` on any error, and so is a wait. -/
def OpType.attempt : OpType → KernelResult → Option (Int × Nat)
  | .waitReadable, _ | .waitWritable, _ => none
  | .accept, .ok _ => some (0, 0)
  | .accept, .error _ => none
  | .connect, .ok _ => some (0, 0)
  | .connect, .error errno => if errno = 115 then none else some (-1, errno)
  | type, result => type.outcome result

/-- `PendingOp`. -/
structure PendingOp where
  type : OpType
  ctx : Ctx
  deriving DecidableEq

/-- `DeferredWait`. -/
structure DeferredWait where
  fd : Fd
  ctx : Ctx
  readable : Bool
  deriving DecidableEq

def DeferredWait.op (wait : DeferredWait) : PendingOp :=
  ⟨if wait.readable then .waitReadable else .waitWritable, wait.ctx⟩

/-- A call of `complete`. -/
structure Completion where
  ctx : Ctx
  result : Int
  errorCode : Nat
  deriving DecidableEq

/-! ### The backend -/

/-- Where the polling thread is: not in `poll_impl`, in `epoll_wait`, between the section that
completes operations and the one that erases them, after that one with what is left to resume. -/
inductive PollPlace where
  | outside
  | waiting
  | collected (toResume : List Ctx) (erases : List (Direction × Fd))
  | resuming (toResume : List Ctx)
  deriving DecidableEq

/-- `EpollBackend`, with the deferred waits of the polling thread and its place in `poll_impl`.
`fdEvents` holds whether `EPOLLIN` and `EPOLLOUT` are set. The last three fields record the contexts
that have been submitted, the calls of `complete` and those of `resume`. -/
structure EpollBackend where
  wakeFd : Fd := -1
  pending : Direction → Fd → Option PendingOp := fun _ _ => none
  fdEvents : Fd → Option (Bool × Bool) := fun _ => none
  deferred : List DeferredWait := []
  place : PollPlace := .outside
  submitted : List Ctx := []
  completions : List Completion := []
  resumed : List Ctx := []

/-- An event that `epoll_wait` gives, with what the kernel answers when the operations of the
descriptor are tried. -/
structure Event where
  fd : Fd
  epollin : Bool
  epollout : Bool
  epollhup : Bool
  epollerr : Bool
  readResult : KernelResult
  writeResult : KernelResult

/-- The handling of an event in one direction. -/
structure Visit where
  direction : Direction
  fd : Fd
  result : KernelResult

/-- The loop body of `poll_impl`: the read side, then the write side. -/
def Event.visits (wakeFd : Fd) (event : Event) : List Visit :=
  if event.fd = wakeFd then []
  else
    (if event.epollin || event.epollhup || event.epollerr then
      [⟨.read, event.fd, event.readResult⟩] else []) ++
    (if event.epollout || event.epollhup || event.epollerr then
      [⟨.write, event.fd, event.writeResult⟩] else [])

namespace EpollBackend

/-- `update_events`. -/
def updateEvents (backend : EpollBackend) (fd : Fd) : EpollBackend :=
  let newEvents := ((backend.pending .read fd).isSome, (backend.pending .write fd).isSome)
  { backend with fdEvents := Function.update backend.fdEvents fd (some newEvents) }

def setPending (backend : EpollBackend) (direction : Direction) (fd : Fd)
    (op : Option PendingOp) : EpollBackend :=
  { backend with
    pending := Function.update backend.pending direction
      (Function.update (backend.pending direction) fd op) }

/-- `ctx->complete(result, error)`. -/
def complete (backend : EpollBackend) (ctx : Ctx) (outcome : Int × Nat) : EpollBackend :=
  { backend with completions := backend.completions ++ [⟨ctx, outcome.1, outcome.2⟩] }

/-- An operation is put into its map. -/
def record (backend : EpollBackend) (fd : Fd) (op : PendingOp) : EpollBackend :=
  (backend.setPending op.type.direction fd (some op)).updateEvents fd

/-- `register_impl`, when `epoll_ctl` accepts the descriptor. -/
def register (backend : EpollBackend) (fd : Fd) : EpollBackend :=
  { backend with fdEvents := Function.update backend.fdEvents fd (some (false, false)) }

/-- `deregister_impl`. -/
def deregister (backend : EpollBackend) (fd : Fd) : EpollBackend :=
  let backend := (backend.setPending .read fd none).setPending .write fd none
  { backend with fdEvents := Function.update backend.fdEvents fd none }

/-- `async_read_impl` and its siblings: the operation is recorded, and then it is tried. A
connection is tried first, and a wait in `poll_impl` is deferred. -/
def submit (backend : EpollBackend) (inPoll : Bool) (type : OpType) (fd : Fd) (ctx : Ctx)
    (result : KernelResult) : EpollBackend :=
  let backend := { backend with submitted := backend.submitted ++ [ctx] }
  if type.isWait && inPoll then
    { backend with deferred := backend.deferred ++ [⟨fd, ctx, type = .waitReadable⟩] }
  else
    match type.attempt result with
    | none => backend.record fd ⟨type, ctx⟩
    | some outcome =>
        if type = .connect then backend.complete ctx outcome
        else
          (((backend.record fd ⟨type, ctx⟩).complete ctx outcome).setPending type.direction fd
            none).updateEvents fd

/-- `process_deferred_waits`. -/
def processDeferredWaits (backend : EpollBackend) : EpollBackend :=
  { backend.deferred.foldl (fun backend wait => backend.record wait.fd wait.op) backend with
    deferred := [] }

/-- What the first section of `poll_impl` collects. -/
structure Collected where
  backend : EpollBackend
  toResume : List Ctx := []
  erases : List (Direction × Fd) := []

/-- The handling of an event in one direction. -/
def Collected.visit (collected : Collected) (visit : Visit) : Collected :=
  match collected.backend.pending visit.direction visit.fd with
  | none => collected
  | some op =>
      match op.type.outcome visit.result with
      | none => collected
      | some outcome =>
          let backend := collected.backend.complete op.ctx outcome
          { backend := if op.type = .accept then backend else backend.updateEvents visit.fd
            toResume := collected.toResume ++ [op.ctx]
            erases := collected.erases ++ [(visit.direction, visit.fd)] }

/-- The first section of `poll_impl`. -/
def collect (backend : EpollBackend) (events : List Event) : EpollBackend :=
  let collected := (events.flatMap (Event.visits backend.wakeFd)).foldl Collected.visit
    { backend := backend.processDeferredWaits }
  { collected.backend with place := .collected collected.toResume collected.erases }

/-- The second section of `poll_impl`. -/
def erase (backend : EpollBackend) (erases : List (Direction × Fd)) : EpollBackend :=
  { backend with
    pending := fun direction fd =>
      if (direction, fd) ∈ erases then none else backend.pending direction fd }

end EpollBackend

/-! ### Steps -/

/-- The thread that polls, or another one. -/
inductive Submitter where
  | poller
  | other
  deriving DecidableEq

inductive EpollAction where
  | register (fd : Fd)
  | deregister (fd : Fd)
  | submit (submitter : Submitter) (type : OpType) (fd : Fd) (ctx : Ctx) (result : KernelResult)
  | enter
  | collect (events : List Event)
  | erase
  | resume
  | leave

namespace EpollBackend

/-- The polling thread runs coroutines. -/
def runs (backend : EpollBackend) : Bool :=
  match backend.place with
  | .outside | .resuming _ => true
  | _ => false

/-- `tl_in_poll_` of the thread that submits. -/
def inPoll (backend : EpollBackend) : Submitter → Bool
  | .poller => backend.place ≠ .outside
  | .other => false

/-- One step of the polling thread or of another one. `epoll_wait` gives at most one event for a
descriptor. -/
def step (backend : EpollBackend) : EpollAction → Option EpollBackend
  | .register fd => some (backend.register fd)
  | .deregister fd => some (backend.deregister fd)
  | .submit submitter type fd ctx result =>
      if ctx ∉ backend.submitted ∧ (submitter = .poller → backend.runs = true) then
        some (backend.submit (backend.inPoll submitter) type fd ctx result)
      else none
  | .enter =>
      match backend.place with
      | .outside => some { backend with place := .waiting }
      | _ => none
  | .collect events =>
      if backend.place = .waiting ∧ (events.map Event.fd).Nodup ∧ events.length ≤ 1024 then
        some (backend.collect events)
      else none
  | .erase =>
      match backend.place with
      | .collected toResume erases =>
          some { backend.erase erases with place := .resuming toResume }
      | _ => none
  | .resume =>
      match backend.place with
      | .resuming (ctx :: toResume) =>
          some { backend with place := .resuming toResume, resumed := backend.resumed ++ [ctx] }
      | _ => none
  | .leave =>
      match backend.place with
      | .resuming [] => some { backend.processDeferredWaits with place := .outside }
      | _ => none

end EpollBackend

end AsyncNet.Io
