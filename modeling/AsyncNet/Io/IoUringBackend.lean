/-
This file models `IoUringBackend` of `io/io_uring_backend.cpp`, with the kernel's side of its two
rings. An entry is queued in the submission ring, in flight in the kernel, or completed in the
completion ring. How many queued entries a call of `io_uring_enter` accepts is given with the step
that calls it, and the kernel completes any entry that is in flight at any time.

The steps of `poll_impl` up to the end of its section are taken under the mutex, so nothing is
submitted between them. An entry carries the address of its context, and a number that records with
which submission it was queued. An address can be given to another context when no operation of the
backend holds the former one any more.
-/

import AsyncNet.Io.EpollBackend
import Mathlib.Data.List.Perm.Basic

namespace AsyncNet.Io

/-! ### Entries and operations -/

/-- `user_data`: one of the two constants or the address of a context. -/
inductive UserData where
  | wakeup
  | timeout
  | op (ctx : Ctx)
  deriving DecidableEq

/-- An entry, with its number. -/
structure Entry where
  data : UserData
  serial : Nat
  deriving DecidableEq

/-- One of the two maps and a descriptor. -/
abbrev Slot := Direction × Fd

/-- `PendingOp`, with the number of the entry that was queued for it. -/
structure UringOp where
  type : OpType
  ctx : Ctx
  serial : Nat
  deriving DecidableEq

/-- The arguments of `complete` for the result of an entry. An accepted descriptor is not among
them. -/
def OpType.uringOutcome (type : OpType) (res : Int) : Int × Nat :=
  if 0 ≤ res then (if type = .accept then 0 else res, 0) else (-1, (-res).toNat)

/-- Where the polling thread is: not in `poll_impl`, before `io_uring_enter` with its `to_submit`,
before `process_cqes` or in it with the number of completions that are left, or after it with what
is left to resume. -/
inductive UringPlace where
  | outside
  | entering (toSubmit : Nat)
  | waiting
  | processing (left : Nat) (toResume : List Ctx)
  | resuming (toResume : List Ctx)
  deriving DecidableEq

/-- `IoUringBackend`, with the entries in the kernel and the place of the polling thread. `ops`
holds `read_ops_` and `write_ops_`, and `issued` counts the entries that have been asked for. The
last two fields record the calls of `complete`, and for each completion that has been processed the
number of its entry and that of the operation it was found to be of. -/
structure IoUringBackend where
  sqEntries : Nat
  wakeFd : Fd
  ops : List (Slot × UringOp) := []
  queued : List Entry := []
  inFlight : List Entry := []
  completed : List (Entry × Int) := []
  place : UringPlace := .outside
  issued : Nat := 0
  completions : List Completion := []
  attributions : List (Nat × Option Nat) := []
  deriving DecidableEq

namespace IoUringBackend

/-! ### Submission -/

/-- `io_uring_enter`, which accepts a number of the queued entries. -/
def enter (ring : IoUringBackend) (accepted : Nat) : IoUringBackend :=
  { ring with
    queued := ring.queued.drop accepted
    inFlight := ring.inFlight ++ ring.queued.take accepted }

/-- There is room in the submission ring. -/
def hasRoom (ring : IoUringBackend) : Bool := ring.queued.length < ring.sqEntries

/-- `get_sqe` up to where it takes an entry. A full ring is submitted first. -/
def makeRoom (ring : IoUringBackend) (accepted : Nat) : IoUringBackend :=
  if ring.hasRoom then ring else ring.enter accepted

/-- `get_sqe`, with what its callers fill in, and whether it has given an entry. -/
def queueEntry (ring : IoUringBackend) (data : UserData) (accepted : Nat) : IoUringBackend × Bool :=
  let entry := ⟨data, ring.issued⟩
  let ring := { ring.makeRoom accepted with issued := ring.issued + 1 }
  if ring.hasRoom then ({ ring with queued := ring.queued ++ [entry] }, true) else (ring, false)

def erase (ring : IoUringBackend) (slot : Slot) : IoUringBackend :=
  { ring with ops := ring.ops.filter (·.1 ≠ slot) }

/-- An operation is put into its map, in the place of another one if there is one. -/
def record (ring : IoUringBackend) (slot : Slot) (op : UringOp) : IoUringBackend :=
  { ring with ops := (ring.erase slot).ops ++ [(slot, op)] }

/-- `ctx->complete(result, error)`. -/
def complete (ring : IoUringBackend) (ctx : Ctx) (outcome : Int × Nat) : IoUringBackend :=
  { ring with completions := ring.completions ++ [⟨ctx, outcome.1, outcome.2⟩] }

/-- `async_read_impl` and its siblings. Where there is no entry the error is `EBUSY`. -/
def submit (ring : IoUringBackend) (type : OpType) (fd : Fd) (ctx : Ctx) (accepted : Nat) :
    IoUringBackend :=
  let slot := (type.direction, fd)
  match (ring.record slot ⟨type, ctx, ring.issued⟩).queueEntry (.op ctx) accepted with
  | (ring, true) => ring
  | (ring, false) => (ring.complete ctx (-1, 16)).erase slot

/-- `deregister_impl`. -/
def deregister (ring : IoUringBackend) (fd : Fd) : IoUringBackend :=
  (ring.erase (.read, fd)).erase (.write, fd)

/-- `setup_ring`: the wake-up entry is submitted if there is an eventfd. -/
def setupRing (sqEntries : Nat) (wakeFd : Fd) (accepted : Nat) : IoUringBackend :=
  let ring : IoUringBackend := { sqEntries, wakeFd }
  if wakeFd < 0 then ring
  else
    match ring.queueEntry .wakeup accepted with
    | (ring, true) => ring.enter accepted
    | (ring, false) => ring

/-! ### Polling -/

/-- `poll_impl` up to `io_uring_enter`. -/
def poll (ring : IoUringBackend) (timeoutMs : Int) (accepted : Nat) : IoUringBackend :=
  let pendingSq := ring.queued.length
  if ring.completed = [] ∧ 0 < timeoutMs then
    match ring.queueEntry .timeout accepted with
    | (ring, true) => { ring with place := .entering (pendingSq + 1) }
    | (ring, false) => { ring with place := .entering pendingSq }
  else { ring with place := .entering pendingSq }

/-- The operation with a context, with its map and descriptor. -/
def find (ring : IoUringBackend) (ctx : Ctx) : Option (Slot × UringOp) :=
  ring.ops.find? (·.2.ctx = ctx)

/-- The completion of an operation in `process_cqes`. -/
def finishOp (ring : IoUringBackend) (serial : Nat) (ctx : Ctx) (res : Int) : IoUringBackend :=
  match ring.find ctx with
  | some (slot, op) =>
      { (ring.complete ctx (op.type.uringOutcome res)).erase slot with
        attributions := ring.attributions ++ [(serial, some op.serial)] }
  | none =>
      { ring.complete ctx (OpType.uringOutcome .read res) with
        attributions := ring.attributions ++ [(serial, none)] }

/-- A pass of the loop in `process_cqes`, for the first of the completions. -/
def process (ring : IoUringBackend) (entry : Entry) (res : Int) (left : Nat)
    (toResume : List Ctx) (accepted : Nat) : IoUringBackend :=
  match entry.data with
  | .timeout => { ring with place := .processing left toResume }
  | .wakeup =>
      { (ring.queueEntry .wakeup accepted).1 with place := .processing left toResume }
  | .op ctx =>
      { ring.finishOp entry.serial ctx res with
        place := .processing left (toResume ++ [ctx]) }

end IoUringBackend

/-! ### Steps -/

inductive UringAction where
  | submit (type : OpType) (fd : Fd) (ctx : Ctx) (accepted : Nat)
  | deregister (fd : Fd)
  /-- The kernel completes an entry that is in flight. -/
  | finish (index : Nat) (res : Int)
  | poll (timeoutMs : Int) (accepted : Nat)
  | enter (accepted : Nat)
  /-- `process_cqes` looks at the rings. -/
  | look
  | process (accepted : Nat)
  | resume
  | leave

namespace IoUringBackend

/-- The mutex is free: `poll_impl` is not in its section. -/
def isFree (ring : IoUringBackend) : Bool :=
  match ring.place with
  | .outside | .resuming _ => true
  | _ => false

/-- One step of a thread or of the kernel. The context of a submission is not one that an operation
holds. -/
def step (ring : IoUringBackend) : UringAction → Option IoUringBackend
  | .submit type fd ctx accepted =>
      if ring.isFree ∧ ring.find ctx = none then some (ring.submit type fd ctx accepted) else none
  | .deregister fd => if ring.isFree then some (ring.deregister fd) else none
  | .finish index res =>
      (ring.inFlight[index]?).map fun entry =>
        { ring with
          inFlight := ring.inFlight.eraseIdx index
          completed := ring.completed ++ [(entry, res)] }
  | .poll timeoutMs accepted =>
      match ring.place with
      | .outside => some (ring.poll timeoutMs accepted)
      | _ => none
  | .enter accepted =>
      match ring.place with
      | .entering toSubmit =>
          if accepted ≤ toSubmit then some { ring.enter accepted with place := .waiting }
          else none
      | _ => none
  | .look =>
      match ring.place with
      | .waiting => some { ring with place := .processing ring.completed.length [] }
      | _ => none
  | .process accepted =>
      match ring.place, ring.completed with
      | .processing (left + 1) toResume, (entry, res) :: completed =>
          some ({ ring with completed }.process entry res left toResume accepted)
      | .processing 0 toResume, _ => some { ring with place := .resuming toResume }
      | _, _ => none
  | .resume =>
      match ring.place with
      | .resuming (_ :: toResume) => some { ring with place := .resuming toResume }
      | _ => none
  | .leave =>
      match ring.place with
      | .resuming [] => some { ring with place := .outside }
      | _ => none

/-! ### Outstanding entries -/

/-- The entries that are queued, in flight or completed, until the completion is processed. -/
def outstanding (ring : IoUringBackend) : List Entry :=
  ring.queued ++ ring.inFlight ++ ring.completed.map (·.1)

section Outstanding

variable (ring : IoUringBackend)

theorem outstanding_enter (accepted : Nat) :
    (ring.enter accepted).outstanding.Perm ring.outstanding := by
  unfold outstanding
  refine List.Perm.append_right _ ?_
  have split := List.take_append_drop accepted ring.queued
  have moved : (ring.queued.drop accepted ++ (ring.inFlight ++ ring.queued.take accepted)).Perm
      (ring.inFlight ++ ring.queued) := by
    have swapped := @List.perm_append_comm _ (ring.queued.drop accepted)
      (ring.inFlight ++ ring.queued.take accepted)
    rw [List.append_assoc, split] at swapped
    exact swapped
  exact moved.trans List.perm_append_comm

theorem outstanding_makeRoom (accepted : Nat) :
    (ring.makeRoom accepted).outstanding.Perm ring.outstanding := by
  unfold makeRoom
  split
  · exact .refl _
  · exact ring.outstanding_enter accepted

/-- What a request for an entry does: it leaves all but the rings as they are, and queues one entry
or none. -/
structure Requests (data : UserData) (next : IoUringBackend) (given : Bool) : Prop where
  sqEntries : next.sqEntries = ring.sqEntries
  ops : next.ops = ring.ops
  completed : next.completed = ring.completed
  place : next.place = ring.place
  issued : next.issued = ring.issued + 1
  attributions : next.attributions = ring.attributions
  outstanding : next.outstanding.Perm
    (if given then ⟨data, ring.issued⟩ :: ring.outstanding else ring.outstanding)

theorem requests_queueEntry (data : UserData) (accepted : Nat) :
    Requests ring data (ring.queueEntry data accepted).1 (ring.queueEntry data accepted).2 := by
  have same := ring.outstanding_makeRoom accepted
  have kept : (ring.makeRoom accepted).sqEntries = ring.sqEntries ∧
      (ring.makeRoom accepted).ops = ring.ops ∧
      (ring.makeRoom accepted).completed = ring.completed ∧
      (ring.makeRoom accepted).place = ring.place ∧
      (ring.makeRoom accepted).attributions = ring.attributions := by
    unfold makeRoom
    split <;> exact ⟨rfl, rfl, rfl, rfl, rfl⟩
  obtain ⟨sqEntries, ops, completed, place, attributions⟩ := kept
  unfold queueEntry
  dsimp only
  split
  · refine ⟨sqEntries, ops, completed, place, rfl, attributions, ?_⟩
    refine List.Perm.trans ?_ (same.cons _)
    show (((ring.makeRoom accepted).queued ++ [_]) ++ _ ++ _).Perm _
    rw [List.append_assoc, List.append_assoc, List.singleton_append]
    refine List.perm_middle.trans (.cons _ ?_)
    rw [← List.append_assoc]
    exact .refl _
  · exact ⟨sqEntries, ops, completed, place, rfl, attributions, same⟩

/-- The kernel completes an entry. -/
theorem outstanding_finish {index : Nat} {entry : Entry}
    (found : ring.inFlight[index]? = some entry) (res : Int) :
    ({ ring with
        inFlight := ring.inFlight.eraseIdx index
        completed := ring.completed ++ [(entry, res)] } : IoUringBackend).outstanding.Perm
      ring.outstanding := by
  obtain ⟨inside, rfl⟩ := List.getElem?_eq_some_iff.mp found
  have back := List.getElem_cons_eraseIdx_perm inside
  unfold outstanding
  dsimp only
  rw [List.map_append, List.append_assoc, List.append_assoc]
  refine List.Perm.append_left _ ?_
  have moved : (ring.inFlight.eraseIdx index ++
      (ring.completed.map (·.1) ++ [ring.inFlight[index]])).Perm
        (ring.inFlight[index] :: ring.inFlight.eraseIdx index ++ ring.completed.map (·.1)) := by
    rw [← List.append_assoc]
    exact List.perm_append_singleton _ _
  exact moved.trans (back.append_right _)

/-- A completion is processed. -/
theorem outstanding_cons {entry : Entry} {res : Int} {completed : List (Entry × Int)}
    (first : ring.completed = (entry, res) :: completed) :
    ring.outstanding.Perm (entry :: { ring with completed }.outstanding) := by
  unfold outstanding
  rw [first]
  exact List.perm_middle

end Outstanding

/-! ### What a step can do -/

/-- All that a step can do, with what it has found. -/
inductive Moves (ring : IoUringBackend) : UringAction → IoUringBackend → Prop
  | submit {type : OpType} {fd : Fd} {ctx : Ctx} {accepted : Nat} (fresh : ring.find ctx = none) :
      Moves ring (.submit type fd ctx accepted) (ring.submit type fd ctx accepted)
  | deregister {fd : Fd} : Moves ring (.deregister fd) (ring.deregister fd)
  | finish {index : Nat} {res : Int} {entry : Entry} (found : ring.inFlight[index]? = some entry) :
      Moves ring (.finish index res)
        { ring with
          inFlight := ring.inFlight.eraseIdx index
          completed := ring.completed ++ [(entry, res)] }
  | poll {timeoutMs : Int} {accepted : Nat} (here : ring.place = .outside) :
      Moves ring (.poll timeoutMs accepted) (ring.poll timeoutMs accepted)
  | enter {accepted toSubmit : Nat} (here : ring.place = .entering toSubmit) :
      Moves ring (.enter accepted) { ring.enter accepted with place := .waiting }
  | look (here : ring.place = .waiting) :
      Moves ring .look { ring with place := .processing ring.completed.length [] }
  | process {accepted left : Nat} {toResume : List Ctx} {entry : Entry} {res : Int}
      {completed : List (Entry × Int)} (here : ring.place = .processing (left + 1) toResume)
      (first : ring.completed = (entry, res) :: completed) :
      Moves ring (.process accepted)
        ({ ring with completed }.process entry res left toResume accepted)
  | processed {accepted : Nat} {toResume : List Ctx} (here : ring.place = .processing 0 toResume) :
      Moves ring (.process accepted) { ring with place := .resuming toResume }
  | resume {ctx : Ctx} {toResume : List Ctx} (here : ring.place = .resuming (ctx :: toResume)) :
      Moves ring .resume { ring with place := .resuming toResume }
  | leave (here : ring.place = .resuming []) : Moves ring .leave { ring with place := .outside }

theorem step_moves {ring next : IoUringBackend} {action : UringAction}
    (taken : ring.step action = some next) : Moves ring action next := by
  cases action with
  | submit type fd ctx accepted =>
    rw [step] at taken
    split at taken
    · rename_i allowed
      cases taken
      exact .submit allowed.2
    · cases taken
  | deregister fd =>
    rw [step] at taken
    split at taken
    · cases taken
      exact .deregister
    · cases taken
  | finish index res =>
    obtain ⟨entry, found, rfl⟩ := Option.map_eq_some_iff.mp taken
    exact .finish found
  | poll timeoutMs accepted =>
    rw [step] at taken
    split at taken
    · rename_i here
      cases taken
      exact .poll here
    · cases taken
  | enter accepted =>
    rw [step] at taken
    split at taken
    · rename_i toSubmit here
      split at taken
      · cases taken
        exact .enter here
      · cases taken
    · cases taken
  | look =>
    rw [step] at taken
    split at taken
    · rename_i here
      cases taken
      exact .look here
    · cases taken
  | process accepted =>
    rw [step] at taken
    split at taken
    · rename_i here first
      cases taken
      exact .process here first
    · rename_i here
      cases taken
      exact .processed here
    · cases taken
  | resume =>
    rw [step] at taken
    split at taken
    · rename_i here
      cases taken
      exact .resume here
    · cases taken
  | leave =>
    rw [step] at taken
    split at taken
    · rename_i here
      cases taken
      exact .leave here
    · cases taken

end IoUringBackend

end AsyncNet.Io
