/-
This file models `KqueueBackend` of `io/kqueue_backend.cpp`, which any number of threads poll.
An event is registered for one time: the kernel hands it to one of the threads and forgets the
registration, and that thread, in its section, completes the operation or registers the event
again. Operations are submitted and descriptors deregistered between the two.

Every operation is in one place: in the maps, with a thread that resumes it, resumed, completed by
the call that has submitted it, or dropped. It is dropped if it is in the maps when another one is
submitted for its descriptor and direction, or when the descriptor is deregistered. One that is in
the maps is registered, or a thread has its event, with one exception: an accept that has found no
connection is not registered again.
-/

import AsyncNet.Io.EpollBackend
import AsyncNet.Library.Bindings
import Mathlib.Data.List.Nodup

namespace AsyncNet.Io

open Library

/-! ### The backend -/

/-- `is_would_block` on macOS and BSD: `EAGAIN`, which is `EWOULDBLOCK`, or `EINPROGRESS`. -/
def wouldBlockBsd (errno : Nat) : Bool := errno = 35 || errno = 36

/-- The key of an operation in `read_ops_` or `write_ops_`, and of its registration. -/
abbrev EventKey := Direction × Fd

/-- Where a thread is in `poll_impl`: between `kevent` and the section under the mutex, with the
events, or after the section, with what is left to resume. -/
inductive Poll where
  | taken (events : List EventKey)
  | resuming (toResume : List Ctx)
  deriving DecidableEq

def Poll.toResume : Poll → List Ctx
  | .taken _ => []
  | .resuming toResume => toResume

def Poll.events : Poll → List EventKey
  | .taken events => events
  | .resuming _ => []

/-- `KqueueBackend`, with the registrations that the kernel has and the threads that are in
`poll_impl`. The other fields record the contexts that have been submitted, those completed by the
call that has submitted them, the calls of `complete` and those of `resume`, the contexts that have
left the maps without being completed, and the accepts that have found no connection. -/
structure KqueueBackend where
  ops : Bindings EventKey PendingOp := []
  registered : EventKey → Bool := fun _ => false
  polls : Bindings Nat Poll := []
  submitted : List Ctx := []
  immediate : List Ctx := []
  completions : List Completion := []
  resumed : List Ctx := []
  dropped : List Ctx := []
  missed : List Ctx := []

namespace KqueueBackend

/-- `register_event`, when `kevent` accepts it. -/
def registerEvent (backend : KqueueBackend) (slot : EventKey) : KqueueBackend :=
  { backend with registered := Function.update backend.registered slot true }

/-- `ctx->complete(result, error)`. -/
def complete (backend : KqueueBackend) (ctx : Ctx) (outcome : Int × Nat) : KqueueBackend :=
  { backend with completions := backend.completions ++ [⟨ctx, outcome.1, outcome.2⟩] }

/-- What the map holds for the slot is destroyed. -/
def setOp (backend : KqueueBackend) (slot : EventKey) (op : Option PendingOp) : KqueueBackend :=
  { backend with
    ops := Bindings.write slot op backend.ops
    dropped := backend.dropped ++ ((Bindings.read slot backend.ops).map PendingOp.ctx).toList }

/-- What a submission tries at once: `connect`. -/
def attempt : OpType → KernelResult → Option (Int × Nat)
  | .connect, .ok _ => some (0, 0)
  | .connect, .error errno => if errno = 36 then none else some (-1, errno)
  | _, _ => none

/-- `async_read_impl` and its siblings: the operation is put into its map, and its event is
registered. A connection is tried first. -/
def submit (backend : KqueueBackend) (type : OpType) (fd : Fd) (ctx : Ctx)
    (connected : KernelResult) : KqueueBackend :=
  let backend := { backend with submitted := backend.submitted ++ [ctx] }
  match attempt type connected with
  | some outcome =>
      { backend.complete ctx outcome with immediate := backend.immediate ++ [ctx] }
  | none =>
      (backend.setOp (type.direction, fd) (some ⟨type, ctx⟩)).registerEvent (type.direction, fd)

/-- `deregister_impl`. `kevent` stops at the first of the two changes that fails, which the first
one does if no read event is registered. -/
def deregister (backend : KqueueBackend) (fd : Fd) : KqueueBackend :=
  let backend := (backend.setOp (.read, fd) none).setOp (.write, fd) none
  { backend with registered := fun slot =>
      !(slot.2 = fd && backend.registered (.read, fd)) && backend.registered slot }

/-- The result and the error code with which an operation is completed when its event has come,
none if it would block. -/
def outcome : OpType → KernelResult → Option (Int × Nat)
  | .waitReadable, _ | .waitWritable, _ => some (0, 0)
  | .connect, .ok _ => some (0, 0)
  | .connect, .error errno => some (if errno = 0 then 0 else -1, errno)
  | .accept, .ok _ => some (0, 0)
  | _, .ok bytes => some (bytes, 0)
  | _, .error errno => if wouldBlockBsd errno then none else some (-1, errno)

/-- What a thread has in its section: the backend, and `to_resume`. -/
structure Section where
  backend : KqueueBackend
  toResume : List Ctx := []

/-- An event in the loop of `poll_impl`, with what the kernel answers when the operation is tried:
`try_complete_read` and its siblings. -/
def visit (state : Section) (event : EventKey × KernelResult) : Section :=
  match Bindings.read event.1 state.backend.ops with
  | none => state
  | some op =>
      match outcome op.type event.2 with
      | some outcome =>
          { backend := { state.backend.complete op.ctx outcome with
              ops := Bindings.write event.1 none state.backend.ops }
            toResume := state.toResume ++ [op.ctx] }
      | none =>
          if op.type = .accept then
            { state with backend :=
              { state.backend with missed := state.backend.missed ++ [op.ctx] } }
          else { state with backend := state.backend.registerEvent event.1 }

/-- The section of `poll_impl`. -/
def process (backend : KqueueBackend) (thread : Nat) (events : List EventKey)
    (results : EventKey → KernelResult) : KqueueBackend :=
  let state := (events.map fun event => (event, results event)).foldl visit { backend := backend }
  { state.backend with
    polls := Bindings.write thread (some (.resuming state.toResume)) state.backend.polls }

end KqueueBackend

/-! ### Steps -/

inductive KqueueAction where
  | submit (type : OpType) (fd : Fd) (ctx : Ctx) (connected : KernelResult)
  | deregister (fd : Fd)
  /-- `kevent` returns in the thread with these events. -/
  | take (thread : Nat) (events : List EventKey)
  | process (thread : Nat) (results : EventKey → KernelResult)
  | resume (thread : Nat)
  | leave (thread : Nat)

namespace KqueueBackend

/-- A step of a thread. `kevent` returns 1024 events at most, each of them registered, and their
registrations are gone. -/
def step (backend : KqueueBackend) : KqueueAction → Option KqueueBackend
  | .submit type fd ctx connected =>
      if ctx ∉ backend.submitted then some (backend.submit type fd ctx connected) else none
  | .deregister fd => some (backend.deregister fd)
  | .take thread events =>
      if Bindings.read thread backend.polls = none ∧ events.Nodup ∧ events.length ≤ 1024 ∧
          ∀ event ∈ events, backend.registered event = true then
        some { backend with
          registered := fun slot => !events.contains slot && backend.registered slot
          polls := Bindings.write thread (some (.taken events)) backend.polls }
      else none
  | .process thread results =>
      match Bindings.read thread backend.polls with
      | some (.taken events) => some (backend.process thread events results)
      | _ => none
  | .resume thread =>
      match Bindings.read thread backend.polls with
      | some (.resuming (ctx :: toResume)) =>
          some { backend with
            polls := Bindings.write thread (some (.resuming toResume)) backend.polls
            resumed := backend.resumed ++ [ctx] }
      | _ => none
  | .leave thread =>
      match Bindings.read thread backend.polls with
      | some (.resuming []) =>
          some { backend with polls := Bindings.write thread none backend.polls }
      | _ => none

/-! ### What is to be kept -/

/-- The operations in the maps. -/
def pending (backend : KqueueBackend) : List Ctx := backend.ops.map fun entry => entry.2.ctx

/-- What the threads are going to resume. -/
def toResume (backend : KqueueBackend) : List Ctx :=
  backend.polls.flatMap fun entry => entry.2.toResume

/-- A thread has taken the event and not been in its section yet. -/
def InHand (backend : KqueueBackend) (slot : EventKey) : Prop :=
  ∃ thread events, Bindings.read thread backend.polls = some (.taken events) ∧ slot ∈ events

/-- Each operation that has been submitted is in one place, those that are completed are resumed
once, and those that are in the maps are watched. -/
structure Accounted (backend : KqueueBackend) : Prop where
  once : backend.submitted.Nodup
  places : backend.submitted.Perm (backend.immediate ++ backend.resumed ++ backend.toResume ++
    backend.pending ++ backend.dropped)
  completed : (backend.completions.map Completion.ctx).Perm
    (backend.immediate ++ backend.resumed ++ backend.toResume)
  watched : ∀ slot op, Bindings.read slot backend.ops = some op →
    backend.registered slot = true ∨ backend.InHand slot ∨
      op.type = .accept ∧ op.ctx ∈ backend.missed

/-- The step takes no operation out of the maps that is not completed. -/
def Spares (backend : KqueueBackend) : KqueueAction → Prop
  | .submit type fd _ connected =>
      attempt type connected = none → Bindings.read (type.direction, fd) backend.ops = none
  | .deregister fd => ∀ direction, Bindings.read (direction, fd) backend.ops = none
  | _ => True

/-- The invariant. -/
structure Sound (backend : KqueueBackend) : Prop where
  accounted : backend.Accounted
  ops : Bindings.Distinct backend.ops
  polls : Bindings.Distinct backend.polls

theorem sound_new : ({} : KqueueBackend).Sound where
  accounted := ⟨List.nodup_nil, .nil, .nil, nofun⟩
  ops := List.nodup_nil
  polls := List.nodup_nil

theorem count_toResume_write {backend : KqueueBackend} (distinct : Bindings.Distinct backend.polls)
    (thread : Nat) (poll : Option Poll) (ctx : Ctx) :
    ((Bindings.read thread backend.polls).toList.flatMap Poll.toResume).count ctx +
        ((Bindings.write thread poll backend.polls).flatMap fun entry => entry.2.toResume).count
          ctx =
      (poll.toList.flatMap Poll.toResume).count ctx + backend.toResume.count ctx :=
  Bindings.count_write Poll.toResume thread poll backend.polls distinct ctx

theorem count_pending_write {backend : KqueueBackend} (distinct : Bindings.Distinct backend.ops)
    (slot : EventKey) (op : Option PendingOp) (ctx : Ctx) :
    ((Bindings.read slot backend.ops).map PendingOp.ctx).toList.count ctx +
        ((Bindings.write slot op backend.ops).map fun entry => entry.2.ctx).count ctx =
      (op.map PendingOp.ctx).toList.count ctx + backend.pending.count ctx := by
  have whole := Bindings.count_write (fun op : PendingOp => [op.ctx]) slot op backend.ops distinct
    ctx
  have single : ∀ content : Option PendingOp,
      content.toList.flatMap (fun op => [op.ctx]) = (content.map PendingOp.ctx).toList :=
    fun content => by cases content <;> rfl
  rw [single, single, ← List.map_eq_flatMap, ← List.map_eq_flatMap] at whole
  exact whole

/-! ### Steps keep it -/

section Steps

variable {backend next : KqueueBackend}

/-- Every context is in as many places as it has been submitted times. -/
theorem Accounted.count (accounted : backend.Accounted) (ctx : Ctx) :
    backend.submitted.count ctx = backend.immediate.count ctx + backend.resumed.count ctx +
      backend.toResume.count ctx + backend.pending.count ctx + backend.dropped.count ctx := by
  rw [accounted.places.count_eq ctx]
  simp only [List.count_append]

theorem Accounted.count_completed (accounted : backend.Accounted) (ctx : Ctx) :
    (backend.completions.map Completion.ctx).count ctx = backend.immediate.count ctx +
      backend.resumed.count ctx + backend.toResume.count ctx := by
  rw [accounted.completed.count_eq ctx]
  simp only [List.count_append]

/-- A step that submits nothing is checked by counting. -/
theorem Accounted.of_count (accounted : backend.Accounted)
    (same : next.submitted = backend.submitted)
    (places : ∀ ctx, next.immediate.count ctx + next.resumed.count ctx + next.toResume.count ctx +
        next.pending.count ctx + next.dropped.count ctx =
      backend.immediate.count ctx + backend.resumed.count ctx + backend.toResume.count ctx +
        backend.pending.count ctx + backend.dropped.count ctx)
    (completed : ∀ ctx, (next.completions.map Completion.ctx).count ctx =
      next.immediate.count ctx + next.resumed.count ctx + next.toResume.count ctx)
    (watched : ∀ slot op, Bindings.read slot next.ops = some op →
      next.registered slot = true ∨ next.InHand slot ∨
        op.type = .accept ∧ op.ctx ∈ next.missed) : next.Accounted where
  once := same ▸ accounted.once
  places := by
    refine List.perm_iff_count.mpr fun ctx => ?_
    rw [same, accounted.count]
    simp only [List.count_append]
    exact (places ctx).symm
  completed := by
    refine List.perm_iff_count.mpr fun ctx => ?_
    simp only [List.count_append]
    exact completed ctx
  watched := watched

theorem Sound.submit (sound : backend.Sound) (type : OpType) (fd : Fd) {ctx : Ctx}
    (fresh : ctx ∉ backend.submitted) (connected : KernelResult) :
    (backend.submit type fd ctx connected).Sound := by
  obtain ⟨accounted, ops, polls⟩ := sound
  have once : (backend.submitted ++ [ctx]).Nodup :=
    List.nodup_append.mpr ⟨accounted.once, List.nodup_singleton ctx, fun other member another new =>
      List.mem_singleton.mp new ▸ ne_of_mem_of_not_mem member fresh⟩
  unfold KqueueBackend.submit
  cases attempt type connected with
  | some outcome =>
    refine ⟨⟨once, List.perm_iff_count.mpr fun other => ?_,
      List.perm_iff_count.mpr fun other => ?_, accounted.watched⟩, ops, polls⟩
    · have before := accounted.count other
      unfold toResume pending at before
      unfold toResume pending complete
      simp only [List.count_append] at before ⊢
      omega
    · have before := accounted.count_completed other
      unfold toResume at before
      unfold toResume complete
      simp only [List.count_append, List.map_append, List.map_cons, List.map_nil] at before ⊢
      omega
  | none =>
    refine ⟨⟨once, List.perm_iff_count.mpr fun other => ?_,
      List.perm_iff_count.mpr fun other => ?_, fun slot op found => ?_⟩,
      ops.write (type.direction, fd) (some ⟨type, ctx⟩), polls⟩
    · have before := accounted.count other
      have written := count_pending_write ops (type.direction, fd) (some ⟨type, ctx⟩) other
      unfold toResume pending at before written
      unfold toResume pending registerEvent setOp
      simp only [List.count_append, Option.map_some, Option.toList_some] at before written ⊢
      omega
    · have before := accounted.count_completed other
      simp only [List.count_append]
      exact before
    · have written := Bindings.read_write_eq (type.direction, fd) slot (some ⟨type, ctx⟩) backend.ops
      have same := written.symm.trans found
      by_cases here : slot = (type.direction, fd)
      · rw [here]
        exact .inl (Function.update_self ..)
      · rw [if_neg here] at same
        exact (accounted.watched slot op same).imp_left
          (Function.update_of_ne here _ _).trans

theorem Sound.deregister (sound : backend.Sound) (fd : Fd) : (backend.deregister fd).Sound := by
  obtain ⟨accounted, ops, polls⟩ := sound
  have cleared := ops.write (.read, fd) none
  refine ⟨accounted.of_count rfl (fun ctx => ?_) accounted.count_completed
    fun slot op found => ?_, cleared.write (.write, fd) none, polls⟩
  · have first := count_pending_write ops (.read, fd) none ctx
    have second := @count_pending_write (backend.setOp (.read, fd) none) cleared (.write, fd) none
      ctx
    unfold setOp pending at first second
    unfold KqueueBackend.deregister toResume pending setOp
    simp only [Option.map_none, Option.toList_none, List.count_nil] at first second
    simp only [List.count_append]
    omega
  · have outer := Bindings.read_write_eq (Direction.write, fd) slot none
      (backend.setOp (.read, fd) none).ops
    replace outer := outer.symm.trans found
    have inner := Bindings.read_write_eq (.read, fd) slot none backend.ops
    have apart : slot.2 ≠ fd := by
      rintro rfl
      obtain ⟨direction, fd⟩ := slot
      cases direction with
      | read =>
        rw [if_neg (by simp)] at outer
        rw [if_pos rfl] at inner
        cases inner.symm.trans outer
      | write =>
        rw [if_pos rfl] at outer
        cases outer
    rw [if_neg fun same => apart (congrArg Prod.snd same)] at outer
    have before := inner.symm.trans outer
    rw [if_neg fun same => apart (congrArg Prod.snd same)] at before
    refine (accounted.watched slot op before).imp_left fun registered => ?_
    unfold KqueueBackend.deregister setOp
    simp only [registered, apart, decide_false, Bool.false_and, Bool.not_false, Bool.true_and]

/-- A thread is in its section, with the rest of its events. The other events that have been taken
are elsewhere. -/
structure Visits (before : KqueueBackend) (elsewhere : EventKey → Prop) (state : Section)
    (rest : List EventKey) : Prop where
  polls : state.backend.polls = before.polls
  submitted : state.backend.submitted = before.submitted
  immediate : state.backend.immediate = before.immediate
  resumed : state.backend.resumed = before.resumed
  dropped : state.backend.dropped = before.dropped
  ops : Bindings.Distinct state.backend.ops
  moved : ∀ ctx, state.backend.pending.count ctx + state.toResume.count ctx =
    before.pending.count ctx
  completed : ∀ ctx, (state.backend.completions.map Completion.ctx).count ctx =
    (before.completions.map Completion.ctx).count ctx + state.toResume.count ctx
  watched : ∀ slot op, Bindings.read slot state.backend.ops = some op →
    state.backend.registered slot = true ∨ (slot ∈ rest ∨ elsewhere slot) ∨
      op.type = .accept ∧ op.ctx ∈ state.backend.missed

variable {before : KqueueBackend} {elsewhere : EventKey → Prop} {state : Section}
  {rest : List EventKey}

theorem Visits.visit {slot : EventKey} (visits : Visits before elsewhere state (slot :: rest))
    (result : KernelResult) : Visits before elsewhere (visit state (slot, result)) rest := by
  have others : ∀ other op, Bindings.read other state.backend.ops = some op → other ≠ slot →
      state.backend.registered other = true ∨ (other ∈ rest ∨ elsewhere other) ∨
        op.type = .accept ∧ op.ctx ∈ state.backend.missed := fun other op found differs =>
    (visits.watched other op found).imp_right <| Or.imp_left <| Or.imp_left fun member =>
      (List.mem_cons.mp member).resolve_left differs
  unfold KqueueBackend.visit
  dsimp only
  cases read : Bindings.read slot state.backend.ops with
  | none =>
    refine { visits with watched := fun other op found => others other op found ?_ }
    rintro rfl
    cases read.symm.trans found
  | some op =>
    dsimp only
    cases outcome op.type result with
    | some outcome =>
      refine { visits with
        ops := visits.ops.write slot none, moved := fun ctx => ?_, completed := fun ctx => ?_,
        watched := fun other pending found => ?_ }
      · have written := count_pending_write visits.ops slot none ctx
        have moved := visits.moved ctx
        rw [read] at written
        unfold pending at written moved ⊢
        simp only [Option.map_some, Option.map_none, Option.toList_some, Option.toList_none,
          List.count_nil] at written
        simp only [List.count_append]
        omega
      · have completed := visits.completed ctx
        unfold complete
        simp only [List.map_append, List.count_append, List.map_cons, List.map_nil]
        omega
      · have same := (Bindings.read_write_eq slot other none state.backend.ops).symm.trans found
        by_cases here : other = slot
        · rw [if_pos here] at same
          cases same
        · rw [if_neg here] at same
          exact others other pending same here
    | none =>
      dsimp only
      by_cases accepts : op.type = .accept
      · rw [if_pos accepts]
        refine { visits with watched := fun other pending found => ?_ }
        by_cases here : other = slot
        · rw [here] at found
          obtain rfl := Option.some.inj (read.symm.trans found)
          exact .inr (.inr ⟨accepts, List.mem_append_right _ (List.mem_singleton.mpr rfl)⟩)
        · exact (others other pending found here).imp_right <| Or.imp_right fun missed =>
            ⟨missed.1, List.mem_append_left _ missed.2⟩
      · rw [if_neg accepts]
        refine { visits with watched := fun other pending found => ?_ }
        by_cases here : other = slot
        · rw [here]
          exact .inl (Function.update_self ..)
        · exact (others other pending found here).imp_left (Function.update_of_ne here _ _).trans

theorem Visits.foldl {events : List EventKey} (results : EventKey → KernelResult)
    (visits : Visits before elsewhere state events) :
    Visits before elsewhere
      ((events.map fun event => (event, results event)).foldl KqueueBackend.visit state) [] := by
  induction events generalizing state with
  | nil => exact visits
  | cons slot events inductionHypothesis => exact inductionHypothesis (visits.visit (results slot))

/-- The events that other threads have taken. -/
def Elsewhere (backend : KqueueBackend) (thread : Nat) (slot : EventKey) : Prop :=
  ∃ other events, other ≠ thread ∧ Bindings.read other backend.polls = some (.taken events) ∧
    slot ∈ events

theorem Sound.process (sound : backend.Sound) {thread : Nat} {events : List EventKey}
    (taken : Bindings.read thread backend.polls = some (.taken events))
    (results : EventKey → KernelResult) : (backend.process thread events results).Sound := by
  obtain ⟨accounted, ops, polls⟩ := sound
  have start : Visits backend (backend.Elsewhere thread) { backend := backend } events :=
    ⟨rfl, rfl, rfl, rfl, rfl, ops, fun _ => rfl, fun _ => rfl, fun slot op found => by
      rcases accounted.watched slot op found with
        registered | ⟨other, inHand, read, member⟩ | missed
      · exact .inl registered
      · by_cases same : other = thread
        · rw [same, taken] at read
          obtain rfl := Poll.taken.inj (Option.some.inj read)
          exact .inr (.inl (.inl member))
        · exact .inr (.inl (.inr ⟨other, inHand, same, read, member⟩))
      · exact .inr (.inr missed)⟩
  have visits := start.foldl results
  unfold KqueueBackend.process
  generalize (events.map fun event => (event, results event)).foldl KqueueBackend.visit
    { backend := backend } = final at visits
  set next : KqueueBackend :=
    { final.backend with
      polls := Bindings.write thread (some (.resuming final.toResume)) final.backend.polls }
    with processed
  have resumes : ∀ ctx, next.toResume.count ctx =
      final.toResume.count ctx + backend.toResume.count ctx := fun ctx => by
    have written := @count_toResume_write final.backend (visits.polls ▸ polls) thread
      (some (.resuming final.toResume)) ctx
    have same : final.backend.toResume = backend.toResume := by
      unfold toResume
      rw [visits.polls]
    rw [show Bindings.read thread final.backend.polls = some (.taken events) by
      rw [visits.polls, taken], same, Option.toList_some, Option.toList_some,
      List.flatMap_singleton, List.flatMap_singleton] at written
    exact (Nat.zero_add _).symm.trans written
  have fields : next.immediate = backend.immediate ∧ next.resumed = backend.resumed ∧
      next.dropped = backend.dropped :=
    ⟨visits.immediate, visits.resumed, visits.dropped⟩
  refine ⟨accounted.of_count visits.submitted (fun ctx => ?_) (fun ctx => ?_)
    fun slot op found => ?_, visits.ops,
    Bindings.Distinct.write (visits.polls ▸ polls) thread (some (.resuming final.toResume))⟩
  · have moved : next.pending.count ctx + final.toResume.count ctx = backend.pending.count ctx :=
      visits.moved ctx
    rw [fields.1, fields.2.1, fields.2.2, resumes ctx]
    omega
  · rw [fields.1, fields.2.1, resumes ctx, show (next.completions.map Completion.ctx).count ctx =
      (backend.completions.map Completion.ctx).count ctx + final.toResume.count ctx from
        visits.completed ctx, accounted.count_completed ctx]
    omega
  · refine (visits.watched slot op found).imp_right <| Or.imp_left fun inHand => ?_
    obtain ⟨other, taken, differs, read, member⟩ := inHand.resolve_left nofun
    refine ⟨other, taken, ?_, member⟩
    rw [show next.polls = Bindings.write thread (some (.resuming final.toResume))
      final.backend.polls from rfl, Bindings.read_write_eq, if_neg differs, visits.polls, read]

theorem Sound.take (sound : backend.Sound) {thread : Nat} {events : List EventKey}
    (free : Bindings.read thread backend.polls = none) :
    Sound { backend with
      registered := fun slot => !events.contains slot && backend.registered slot
      polls := Bindings.write thread (some (.taken events)) backend.polls } := by
  obtain ⟨accounted, ops, polls⟩ := sound
  set next : KqueueBackend := { backend with
    registered := fun slot => !events.contains slot && backend.registered slot
    polls := Bindings.write thread (some (.taken events)) backend.polls } with taken
  have same : ∀ ctx, next.toResume.count ctx = backend.toResume.count ctx := fun ctx => by
    have written := count_toResume_write polls thread (some (.taken events)) ctx
    rw [free, Option.toList_none, Option.toList_some, List.flatMap_singleton, List.flatMap_nil]
      at written
    exact (Nat.zero_add _).symm.trans (written.trans (Nat.zero_add _))
  have hand : ∀ other poll, Bindings.read other backend.polls = some poll →
      Bindings.read other next.polls = some poll := fun other poll read => by
    rw [taken, Bindings.read_write_eq, if_neg, read]
    rintro rfl
    cases free.symm.trans read
  refine ⟨accounted.of_count rfl (fun ctx => ?_) (fun ctx => ?_) fun slot op found => ?_, ops,
    polls.write thread (some (.taken events))⟩
  · rw [same ctx]
    rfl
  · rw [same ctx]
    exact accounted.count_completed ctx
  · rcases accounted.watched slot op found with registered | ⟨other, inHand, read, member⟩ | missed
    · by_cases member : slot ∈ events
      · exact .inr (.inl ⟨thread, events, by
        rw [taken, Bindings.read_write_eq, if_pos rfl], member⟩)
      · refine .inl ?_
        show (!events.contains slot && backend.registered slot) = true
        rw [registered, Bool.eq_false_iff.mpr fun found => member (List.contains_iff_mem.mp found)]
        rfl
    · exact .inr (.inl ⟨other, inHand, hand other _ read, member⟩)
    · exact .inr (.inr missed)

/-- A thread that resumes coroutines has no events. -/
theorem inHand_write {thread : Nat} {toResume : List Ctx}
    (known : Bindings.read thread backend.polls = some (.resuming toResume)) (poll : Option Poll)
    {slot : EventKey} (inHand : backend.InHand slot) :
    InHand { backend with polls := Bindings.write thread poll backend.polls } slot := by
  obtain ⟨other, events, read, member⟩ := inHand
  refine ⟨other, events, (Bindings.read_write_eq thread other poll backend.polls).trans ?_, member⟩
  rw [if_neg, read]
  rintro rfl
  cases known.symm.trans read

theorem Sound.resume (sound : backend.Sound) {thread : Nat} {ctx : Ctx} {toResume : List Ctx}
    (known : Bindings.read thread backend.polls = some (.resuming (ctx :: toResume))) :
    Sound { backend with
      polls := Bindings.write thread (some (.resuming toResume)) backend.polls
      resumed := backend.resumed ++ [ctx] } := by
  obtain ⟨accounted, ops, polls⟩ := sound
  have moves : ∀ other, [ctx].count other + ((Bindings.write thread (some (.resuming toResume))
      backend.polls).flatMap fun entry => entry.2.toResume).count other =
        backend.toResume.count other := fun other => by
    have written := count_toResume_write polls thread (some (.resuming toResume)) other
    rw [known, Option.toList_some, Option.toList_some, List.flatMap_singleton,
      List.flatMap_singleton] at written
    rw [show Poll.toResume (.resuming (ctx :: toResume)) = [ctx] ++ toResume from rfl,
      show Poll.toResume (.resuming toResume) = toResume from rfl, List.count_append] at written
    omega
  refine ⟨accounted.of_count rfl (fun other => ?_) (fun other => ?_) fun slot op found =>
    (accounted.watched slot op found).imp_right <| Or.imp_left <| inHand_write known _, ops,
    polls.write thread (some (.resuming toResume))⟩
  · have moves := moves other
    unfold KqueueBackend.toResume at moves ⊢
    unfold pending
    simp only [List.count_append]
    omega
  · have moves := moves other
    have completed := accounted.count_completed other
    unfold KqueueBackend.toResume at moves completed ⊢
    simp only [List.count_append]
    omega

theorem Sound.leave (sound : backend.Sound) {thread : Nat}
    (known : Bindings.read thread backend.polls = some (.resuming [])) :
    Sound { backend with polls := Bindings.write thread none backend.polls } := by
  obtain ⟨accounted, ops, polls⟩ := sound
  have same : ∀ ctx, ((Bindings.write thread none backend.polls).flatMap
      fun entry => entry.2.toResume).count ctx = backend.toResume.count ctx := fun ctx => by
    have written := count_toResume_write polls thread none ctx
    rw [known, Option.toList_some, Option.toList_none, List.flatMap_singleton, List.flatMap_nil]
      at written
    exact (Nat.zero_add _).symm.trans (written.trans (Nat.zero_add _))
  refine ⟨accounted.of_count rfl (fun ctx => ?_) (fun ctx => ?_) fun slot op found =>
    (accounted.watched slot op found).imp_right <| Or.imp_left <| inHand_write known _, ops,
    polls.write thread none⟩
  · have same := same ctx
    unfold toResume at same ⊢
    unfold pending
    rw [same]
  · have same := same ctx
    have completed := accounted.count_completed ctx
    unfold toResume at same completed ⊢
    rw [same]
    exact completed

theorem Sound.step (sound : backend.Sound) {action : KqueueAction}
    (taken : backend.step action = some next) : next.Sound := by
  cases action with
  | submit type fd ctx connected =>
    unfold KqueueBackend.step at taken
    dsimp only at taken
    split at taken
    · next fresh =>
      cases taken
      exact sound.submit type fd fresh connected
    · cases taken
  | deregister fd =>
    cases taken
    exact sound.deregister fd
  | take thread events =>
    unfold KqueueBackend.step at taken
    dsimp only at taken
    split at taken
    · next may =>
      cases taken
      exact sound.take may.1
    · cases taken
  | process thread results =>
    unfold KqueueBackend.step at taken
    dsimp only at taken
    split at taken
    · next events known =>
      cases taken
      exact sound.process known results
    · cases taken
  | resume thread =>
    unfold KqueueBackend.step at taken
    dsimp only at taken
    split at taken
    · next ctx toResume known =>
      cases taken
      exact sound.resume known
    · cases taken
  | leave thread =>
    unfold KqueueBackend.step at taken
    dsimp only at taken
    split at taken
    · next known =>
      cases taken
      exact sound.leave known
    · cases taken

/-! ### What is dropped -/

theorem toList_map_eq_nil {slot : EventKey} :
    ((Bindings.read slot backend.ops).map PendingOp.ctx).toList = [] ↔
      Bindings.read slot backend.ops = none := by
  cases Bindings.read slot backend.ops with
  | none => exact iff_of_true rfl rfl
  | some op => exact iff_of_false nofun nofun

theorem dropped_visit (state : Section) (event : EventKey × KernelResult) :
    (visit state event).backend.dropped = state.backend.dropped := by
  unfold visit
  split
  · rfl
  · split
    · rfl
    · split <;> rfl

theorem dropped_foldl (events : List (EventKey × KernelResult)) (state : Section) :
    (events.foldl visit state).backend.dropped = state.backend.dropped := by
  induction events generalizing state with
  | nil => rfl
  | cons event events inductionHypothesis =>
    exact (inductionHypothesis (visit state event)).trans (dropped_visit state event)

theorem dropped_submit (type : OpType) (fd : Fd) (ctx : Ctx) (connected : KernelResult) :
    (backend.submit type fd ctx connected).dropped = [] ↔ backend.dropped = [] ∧
      (attempt type connected = none →
        Bindings.read (type.direction, fd) backend.ops = none) := by
  unfold submit
  cases attempt type connected with
  | some outcome => exact (and_iff_left nofun).symm
  | none =>
    refine List.append_eq_nil_iff.trans (and_congr_right fun _ => toList_map_eq_nil.trans ?_)
    exact ⟨fun none _ => none, fun none => none rfl⟩

theorem dropped_deregister (fd : Fd) :
    (backend.deregister fd).dropped = [] ↔ backend.dropped = [] ∧
      ∀ direction, Bindings.read (direction, fd) backend.ops = none := by
  have same : Bindings.read (.write, fd) (backend.setOp (.read, fd) none).ops =
      Bindings.read (.write, fd) backend.ops :=
    (Bindings.read_write_eq (.read, fd) (.write, fd) none backend.ops).trans (if_neg (by simp))
  have second := (@toList_map_eq_nil (backend.setOp (.read, fd) none) (.write, fd)).trans
    (iff_of_eq (congrArg (· = none) same))
  refine List.append_eq_nil_iff.trans ((and_congr_left' List.append_eq_nil_iff).trans ?_)
  rw [toList_map_eq_nil, and_assoc]
  refine and_congr_right fun _ => ⟨fun none direction => ?_, fun none => ⟨none .read, ?_⟩⟩
  · cases direction with
    | read => exact none.1
    | write => exact second.mp none.2
  · exact second.mpr (none .write)

/-- A step drops nothing if and only if it spares what is in the maps. -/
theorem dropped_step {action : KqueueAction} (taken : backend.step action = some next) :
    next.dropped = [] ↔ backend.dropped = [] ∧ backend.Spares action := by
  cases action with
  | submit type fd ctx connected =>
    unfold KqueueBackend.step at taken
    dsimp only at taken
    split at taken
    · cases taken
      exact dropped_submit type fd ctx connected
    · cases taken
  | deregister fd =>
    cases taken
    exact dropped_deregister fd
  | take thread events =>
    unfold KqueueBackend.step at taken
    dsimp only at taken
    split at taken
    · cases taken
      exact (and_iff_left trivial).symm
    · cases taken
  | process thread results =>
    unfold KqueueBackend.step at taken
    dsimp only at taken
    split at taken
    · cases taken
      rw [show (backend.process thread _ results).dropped = backend.dropped from
        dropped_foldl _ _]
      exact (and_iff_left trivial).symm
    · cases taken
  | resume thread =>
    unfold KqueueBackend.step at taken
    dsimp only at taken
    split at taken
    · cases taken
      exact (and_iff_left trivial).symm
    · cases taken
  | leave thread =>
    unfold KqueueBackend.step at taken
    dsimp only at taken
    split at taken
    · cases taken
      exact (and_iff_left trivial).symm
    · cases taken

end Steps

/-- In every run of any number of threads, each operation that has been submitted is in one place,
those that are completed are resumed once, and those in the maps are watched. None is dropped if
and only if no step of the run takes out of the maps what is not completed. -/
theorem accounted_throughout {actions : List KqueueAction} {final : KqueueBackend}
    (run : after step {} actions = some final) :
    final.Accounted ∧ (final.dropped = [] ↔ Heeds step Spares {} actions) := by
  have sound : final.Sound :=
    after_invariant Sound (fun _ _ _ sound taken => sound.step taken) sound_new run
  exact ⟨sound.accounted,
    (after_iff_heeds (fun _ _ _ taken => dropped_step taken) run).trans (and_iff_right rfl)⟩

/-- Two threads poll. The read is completed by the one that has not submitted it, and the accept
finds no connection. -/
theorem accounted_throughout_two :
    let actions : List KqueueAction :=
      [.submit .accept 3 0 (.ok 0), .submit .read 5 1 (.ok 0), .take 0 [(.read, 5)],
        .take 1 [(.read, 3)], .process 1 fun _ => .error 35, .process 0 fun _ => .ok 8, .resume 0]
    ∃ final, after step {} actions = some final ∧ final.missed = [0] ∧ final.Accounted ∧
      (final.dropped = [] ↔ Heeds step Spares {} actions) :=
  ⟨_, rfl, rfl, accounted_throughout rfl⟩

end KqueueBackend

end AsyncNet.Io
