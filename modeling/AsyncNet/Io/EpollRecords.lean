/-
This file is about where the operations are that have been submitted to the backend: in one of the
maps, in the deferred list, or completed. It says what holds of these records in every run, and what
a step drops that sets entries of the maps: the operations in the slots it touches that are not
completed. It ends with submissions.
-/

import AsyncNet.Io.EpollBackend
import Mathlib.Data.List.Nodup

namespace AsyncNet.Io

open Library

/-! ### The property -/

/-- The contexts that are left to resume. -/
def PollPlace.toResume : PollPlace → List Ctx
  | .collected toResume _ => toResume
  | .resuming toResume => toResume
  | _ => []

/-- The entries that the second section of `poll_impl` is going to erase. -/
def PollPlace.erases : PollPlace → List (Direction × Fd)
  | .collected _ erases => erases
  | _ => []

namespace EpollBackend

/-- The contexts that have been completed. -/
def completed (backend : EpollBackend) : List Ctx := backend.completions.map Completion.ctx

/-- An operation is in one of the maps or in the deferred list. -/
def Recorded (backend : EpollBackend) (ctx : Ctx) : Prop :=
  (∃ direction fd op, backend.pending direction fd = some op ∧ op.ctx = ctx) ∨
    ∃ wait ∈ backend.deferred, wait.ctx = ctx

/-- No operation is dropped. -/
def Kept (backend : EpollBackend) : Prop :=
  ∀ ctx ∈ backend.submitted, ctx ∈ backend.completed ∨ backend.Recorded ctx

/-- Every operation is completed and resumed at most once, and none is dropped. -/
structure EachOnce (backend : EpollBackend) : Prop where
  completedOnce : backend.completed.Nodup
  resumedOnce : backend.resumed.Nodup
  kept : backend.Kept

/-- What is recorded for a descriptor and direction, if anything, is completed. -/
def Spared (backend : EpollBackend) (direction : Direction) (fd : Fd) : Prop :=
  ∀ op, backend.pending direction fd = some op → op.ctx ∈ backend.completed

/-- The same for the deferred waits, each in its turn. -/
def SparesWaits : EpollBackend → List DeferredWait → Prop
  | _, [] => True
  | backend, wait :: waits =>
      backend.Spared wait.op.type.direction wait.fd ∧
        SparesWaits (backend.record wait.fd wait.op) waits

/-- The step neither replaces nor erases an operation that is not completed: a submission finds its
descriptor and direction free, and so do the deferred waits and a deregistration, and the second
section of `poll_impl` finds nothing that was submitted since the first. -/
def Spares (backend : EpollBackend) : EpollAction → Prop
  | .submit submitter type fd _ result =>
      (type.isWait = true ∧ backend.inPoll submitter = true) ∨
        (type = .connect ∧ (type.attempt result).isSome) ∨ backend.Spared type.direction fd
  | .deregister fd => ∀ direction, backend.Spared direction fd
  | .erase => ∀ slot ∈ backend.place.erases, backend.Spared slot.1 slot.2
  | .leave => backend.SparesWaits backend.deferred
  | _ => True

/-! ### Invariants -/

/-- What holds of the maps, the deferred list and the records in every run: an operation is recorded
once, what is completed is recorded only until the second section of `poll_impl`, and what is
resumed has been completed by the first. -/
structure Sound (backend : EpollBackend) : Prop where
  known : ∀ ctx, backend.Recorded ctx → ctx ∈ backend.submitted
  done : ∀ ctx ∈ backend.completed, ctx ∈ backend.submitted
  single : ∀ direction fd op direction' fd' op', backend.pending direction fd = some op →
    backend.pending direction' fd' = some op' → op.ctx = op'.ctx → direction = direction' ∧ fd = fd'
  apart : ∀ wait ∈ backend.deferred, ∀ direction fd op, backend.pending direction fd = some op →
    op.ctx ≠ wait.ctx
  deferredOnce : (backend.deferred.map DeferredWait.ctx).Nodup
  deferredOpen : ∀ wait ∈ backend.deferred, wait.ctx ∉ backend.completed
  deferredPlace : backend.deferred ≠ [] → ∃ toResume, backend.place = .resuming toResume
  erased : ∀ direction fd op, backend.pending direction fd = some op → op.ctx ∈ backend.completed →
    (direction, fd) ∈ backend.place.erases
  completedOnce : backend.completed.Nodup
  resumedOnce : (backend.resumed ++ backend.place.toResume).Nodup
  resumedDone : ∀ ctx ∈ backend.resumed ++ backend.place.toResume, ctx ∈ backend.completed

/-- A context that is submitted and neither recorded nor completed. -/
structure Loose (backend : EpollBackend) (ctx : Ctx) : Prop where
  known : ctx ∈ backend.submitted
  unrecorded : ¬ backend.Recorded ctx
  uncompleted : ctx ∉ backend.completed

theorem sound_new (wakeFd : Fd) : ({ wakeFd := wakeFd } : EpollBackend).Sound where
  known := by
    rintro ctx (⟨_, _, _, found, _⟩ | ⟨_, member, _⟩)
    · cases found
    · cases member
  done := by nofun
  single := by nofun
  apart := by nofun
  deferredOnce := List.nodup_nil
  deferredOpen := by nofun
  deferredPlace := fun some => absurd rfl some
  erased := by nofun
  completedOnce := List.nodup_nil
  resumedOnce := List.nodup_nil
  resumedDone := by nofun

section Primitives

variable {backend next : EpollBackend} {ctx : Ctx}

/-- The maps, the deferred list, the place and the records, all but the events that are set. -/
structure SameRecords (backend next : EpollBackend) : Prop where
  pending : next.pending = backend.pending
  deferred : next.deferred = backend.deferred
  place : next.place = backend.place
  submitted : next.submitted = backend.submitted
  completions : next.completions = backend.completions
  resumed : next.resumed = backend.resumed

theorem SameRecords.recorded_iff (same : SameRecords backend next) :
    next.Recorded ctx ↔ backend.Recorded ctx := by
  unfold Recorded
  rw [same.pending, same.deferred]

theorem SameRecords.completed (same : SameRecords backend next) :
    next.completed = backend.completed := by
  unfold EpollBackend.completed
  rw [same.completions]

theorem SameRecords.sound (same : SameRecords backend next) (sound : backend.Sound) :
    next.Sound where
  known := fun ctx recorded => same.submitted ▸ sound.known ctx (same.recorded_iff.mp recorded)
  done := by
    rw [same.completed, same.submitted]
    exact sound.done
  single := by
    rw [same.pending]
    exact sound.single
  apart := by
    rw [same.pending, same.deferred]
    exact sound.apart
  deferredOnce := by
    rw [same.deferred]
    exact sound.deferredOnce
  deferredOpen := by
    rw [same.deferred, same.completed]
    exact sound.deferredOpen
  deferredPlace := by
    rw [same.deferred, same.place]
    exact sound.deferredPlace
  erased := by
    rw [same.pending, same.place, same.completed]
    exact sound.erased
  completedOnce := by
    rw [same.completed]
    exact sound.completedOnce
  resumedOnce := by
    rw [same.resumed, same.place]
    exact sound.resumedOnce
  resumedDone := by
    rw [same.resumed, same.place, same.completed]
    exact sound.resumedDone

theorem sameRecords_updateEvents (backend : EpollBackend) (fd : Fd) :
    SameRecords backend (backend.updateEvents fd) := ⟨rfl, rfl, rfl, rfl, rfl, rfl⟩

/-- What is recorded for a descriptor and direction after an entry has been set. -/
theorem pending_setPending (backend : EpollBackend) (direction direction' : Direction) (fd fd' : Fd)
    (op : Option PendingOp) :
    (backend.setPending direction fd op).pending direction' fd' =
      if direction' = direction ∧ fd' = fd then op else backend.pending direction' fd' := by
  unfold setPending
  dsimp only
  by_cases sameDirection : direction' = direction
  · subst sameDirection
    rw [Function.update_self]
    by_cases sameFd : fd' = fd
    · rw [sameFd, Function.update_self, if_pos ⟨rfl, rfl⟩]
    · rw [Function.update_of_ne sameFd, if_neg fun both => sameFd both.2]
  · rw [Function.update_of_ne sameDirection, if_neg fun both => sameDirection both.1]

/-- Entries are taken out of the maps. -/
theorem Sound.of_fewer (sound : backend.Sound)
    (fewer : ∀ direction fd op, next.pending direction fd = some op →
      backend.pending direction fd = some op)
    (deferred : next.deferred = backend.deferred) (place : next.place = backend.place)
    (submitted : next.submitted = backend.submitted)
    (completions : next.completions = backend.completions)
    (resumed : next.resumed = backend.resumed) : next.Sound := by
  have done : next.completed = backend.completed := congrArg (List.map _) completions
  constructor
  · rintro ctx (⟨direction, fd, op, found, same⟩ | waits)
    · rw [submitted]
      exact sound.known ctx (Or.inl ⟨direction, fd, op, fewer direction fd op found, same⟩)
    · rw [submitted]
      exact sound.known ctx (Or.inr (deferred ▸ waits))
  · rw [done, submitted]
    exact sound.done
  · intro direction fd op direction' fd' op' found found'
    exact sound.single direction fd op direction' fd' op' (fewer direction fd op found)
      (fewer direction' fd' op' found')
  · intro wait member direction fd op found
    exact sound.apart wait (deferred ▸ member) direction fd op (fewer direction fd op found)
  · rw [deferred]
    exact sound.deferredOnce
  · rw [deferred, done]
    exact sound.deferredOpen
  · rw [deferred, place]
    exact sound.deferredPlace
  · intro direction fd op found
    rw [done, place]
    exact sound.erased direction fd op (fewer direction fd op found)
  · rw [done]
    exact sound.completedOnce
  · rw [resumed, place]
    exact sound.resumedOnce
  · rw [resumed, place, done]
    exact sound.resumedDone

/-- A context is submitted, before anything is done with it. -/
def announce (backend : EpollBackend) (ctx : Ctx) : EpollBackend :=
  { backend with submitted := backend.submitted ++ [ctx] }

theorem Sound.announce (sound : backend.Sound) (fresh : ctx ∉ backend.submitted) :
    (backend.announce ctx).Sound ∧ (backend.announce ctx).Loose ctx := by
  constructor
  · exact { sound with
      known := fun other recorded => List.mem_append_left _ (sound.known other recorded)
      done := fun other member => List.mem_append_left _ (sound.done other member) }
  · exact ⟨List.mem_append_right _ List.mem_cons_self,
      fun recorded => fresh (sound.known ctx recorded), fun member => fresh (sound.done ctx member)⟩

/-- A loose context is put into a map. -/
theorem Sound.record (sound : backend.Sound) {op : PendingOp} (loose : backend.Loose op.ctx)
    (fd : Fd) : (backend.record fd op).Sound := by
  have entry {direction : Direction} {fd' : Fd} {other : PendingOp}
      (found : (backend.setPending op.type.direction fd (some op)).pending direction fd' =
        some other) :
      direction = op.type.direction ∧ fd' = fd ∧ other = op ∨
        backend.pending direction fd' = some other ∧ other.ctx ≠ op.ctx := by
    rw [pending_setPending] at found
    split at found
    · rename_i here
      cases found
      exact Or.inl ⟨here.1, here.2, rfl⟩
    · refine Or.inr ⟨found, fun same => loose.unrecorded ?_⟩
      exact Or.inl ⟨direction, fd', other, found, same⟩
  refine (sameRecords_updateEvents _ fd).sound ?_
  constructor
  · rintro ctx (⟨direction, fd', other, found, rfl⟩ | waits)
    · obtain ⟨_, _, rfl⟩ | ⟨former, _⟩ := entry found
      · exact loose.known
      · exact sound.known _ (Or.inl ⟨direction, fd', other, former, rfl⟩)
    · exact sound.known ctx (Or.inr waits)
  · exact sound.done
  · intro direction fd₁ first direction' fd₂ second found found' same
    obtain ⟨rfl, rfl, rfl⟩ | ⟨former, differs⟩ := entry found
    · obtain ⟨rfl, rfl, _⟩ | ⟨_, differs⟩ := entry found'
      · exact ⟨rfl, rfl⟩
      · exact absurd same.symm differs
    · obtain ⟨_, _, rfl⟩ | ⟨former', _⟩ := entry found'
      · exact absurd same differs
      · exact sound.single direction fd₁ first direction' fd₂ second former former' same
  · intro wait member direction fd' other found
    obtain ⟨_, _, rfl⟩ | ⟨former, _⟩ := entry found
    · exact fun same => loose.unrecorded (Or.inr ⟨wait, member, same.symm⟩)
    · exact sound.apart wait member direction fd' other former
  · exact sound.deferredOnce
  · exact sound.deferredOpen
  · exact sound.deferredPlace
  · intro direction fd' other found done
    obtain ⟨_, _, rfl⟩ | ⟨former, _⟩ := entry found
    · exact absurd done loose.uncompleted
    · exact sound.erased direction fd' other former done
  · exact sound.completedOnce
  · exact sound.resumedOnce
  · exact sound.resumedDone

theorem completed_complete (backend : EpollBackend) (ctx : Ctx) (outcome : Int × Nat) :
    (backend.complete ctx outcome).completed = backend.completed ++ [ctx] := List.map_append

theorem mem_completed_complete {backend : EpollBackend} {ctx : Ctx} {outcome : Int × Nat}
    {other : Ctx} :
    other ∈ (backend.complete ctx outcome).completed ↔ other ∈ backend.completed ∨ other = ctx := by
  rw [completed_complete, List.mem_append, List.mem_singleton]

/-- A loose context is completed. -/
theorem Sound.complete (sound : backend.Sound) (loose : backend.Loose ctx) (outcome : Int × Nat) :
    (backend.complete ctx outcome).Sound := by
  constructor
  · exact sound.known
  · intro other member
    obtain former | rfl := mem_completed_complete.mp member
    · exact sound.done other former
    · exact loose.known
  · exact sound.single
  · exact sound.apart
  · exact sound.deferredOnce
  · intro wait member
    rw [mem_completed_complete, not_or]
    exact ⟨sound.deferredOpen wait member,
      fun same => loose.unrecorded (Or.inr ⟨wait, member, same⟩)⟩
  · exact sound.deferredPlace
  · intro direction fd op found member
    obtain former | last := mem_completed_complete.mp member
    · exact sound.erased direction fd op found former
    · exact absurd (Or.inl ⟨direction, fd, op, found, last⟩) loose.unrecorded
  · rw [completed_complete]
    refine List.nodup_append.mpr ⟨sound.completedOnce, List.nodup_singleton _, ?_⟩
    rintro other former last final rfl
    exact loose.uncompleted (List.mem_singleton.mp final ▸ former)
  · exact sound.resumedOnce
  · exact fun other member => mem_completed_complete.mpr (Or.inl (sound.resumedDone other member))

/-- A loose context is deferred while contexts are resumed. -/
theorem Sound.defer (sound : backend.Sound) {wait : DeferredWait} (loose : backend.Loose wait.ctx)
    {toResume : List Ctx} (place : backend.place = .resuming toResume) :
    ({ backend with deferred := backend.deferred ++ [wait] } : EpollBackend).Sound := by
  constructor
  · rintro ctx (found | ⟨other, member, rfl⟩)
    · exact sound.known ctx (Or.inl found)
    · obtain former | last := List.mem_append.mp member
      · exact sound.known _ (Or.inr ⟨other, former, rfl⟩)
      · rw [List.mem_singleton.mp last]
        exact loose.known
  · exact sound.done
  · exact sound.single
  · intro other member direction fd op found
    obtain former | last := List.mem_append.mp member
    · exact sound.apart other former direction fd op found
    · rw [List.mem_singleton.mp last]
      exact fun same => loose.unrecorded (Or.inl ⟨direction, fd, op, found, same⟩)
  · dsimp only
    rw [List.map_append]
    refine List.nodup_append.mpr ⟨sound.deferredOnce, List.nodup_singleton _, ?_⟩
    rintro other former last final rfl
    obtain ⟨former, member, same⟩ := List.mem_map.mp former
    exact loose.unrecorded (Or.inr ⟨former, member, same.trans (List.mem_singleton.mp final)⟩)
  · intro other member
    obtain former | last := List.mem_append.mp member
    · exact sound.deferredOpen other former
    · rw [List.mem_singleton.mp last]
      exact loose.uncompleted
  · exact fun _ => ⟨toResume, place⟩
  · exact sound.erased
  · exact sound.completedOnce
  · exact sound.resumedOnce
  · exact sound.resumedDone

/-- The first deferred wait is taken from the list. -/
theorem Sound.undefer (sound : backend.Sound) {wait : DeferredWait} {waits : List DeferredWait}
    (first : backend.deferred = wait :: waits) :
    ({ backend with deferred := waits } : EpollBackend).Sound ∧
      ({ backend with deferred := waits } : EpollBackend).Loose wait.ctx := by
  have member : wait ∈ backend.deferred := first ▸ List.mem_cons_self
  have later {other : DeferredWait} (tail : other ∈ waits) : other ∈ backend.deferred :=
    first ▸ List.mem_cons_of_mem _ tail
  have once := sound.deferredOnce
  rw [first, List.map_cons, List.nodup_cons] at once
  constructor
  · exact { sound with
      known := fun ctx recorded => sound.known ctx (recorded.imp_right
        fun ⟨other, tail, same⟩ => ⟨other, later tail, same⟩)
      apart := fun other tail => sound.apart other (later tail)
      deferredOnce := once.2
      deferredOpen := fun other tail => sound.deferredOpen other (later tail)
      deferredPlace := fun _ => sound.deferredPlace (List.ne_nil_of_mem member) }
  · refine ⟨sound.known _ (Or.inr ⟨wait, member, rfl⟩), ?_, sound.deferredOpen wait member⟩
    rintro (⟨direction, fd, op, found, same⟩ | ⟨other, tail, same⟩)
    · exact sound.apart wait member direction fd op found same
    · exact once.1 (List.mem_map.mpr ⟨other, tail, same⟩)

end Primitives

/-! ### What is dropped -/

/-- A step changes the maps only in some slots, in which nothing that was recorded stays. -/
structure Touches (slots : Direction → Fd → Prop) (backend next : EpollBackend) : Prop where
  old : ∀ ctx ∈ backend.submitted, ctx ∈ next.submitted
  new : ∀ ctx ∈ next.submitted, ctx ∈ backend.submitted ∨ ctx ∈ next.completed ∨ next.Recorded ctx
  grows : ∀ ctx ∈ backend.completed, ctx ∈ next.completed
  outside : ∀ direction fd, ¬ slots direction fd →
    next.pending direction fd = backend.pending direction fd
  gone : ∀ direction fd op, slots direction fd → backend.pending direction fd = some op →
    op.ctx ∈ next.completed → op.ctx ∈ backend.completed
  inside : ∀ direction fd op, slots direction fd → next.pending direction fd = some op →
    ∀ direction' fd' former, backend.pending direction' fd' = some former → former.ctx ≠ op.ctx
  moved : ∀ wait ∈ backend.deferred, next.Recorded wait.ctx
  apart : ∀ wait ∈ next.deferred, ∀ direction fd op, backend.pending direction fd = some op →
    op.ctx ≠ wait.ctx

/-- The operations are kept if and only if those in the slots that are touched are completed. -/
theorem Touches.kept_iff {slots : Direction → Fd → Prop} {backend next : EpollBackend}
    (touches : Touches slots backend next) (sound : backend.Sound) (kept : backend.Kept) :
    next.Kept ↔ ∀ direction fd, slots direction fd → backend.Spared direction fd := by
  constructor
  · intro keeps direction fd here op found
    have known := sound.known op.ctx (Or.inl ⟨direction, fd, op, found, rfl⟩)
    obtain done | ⟨direction', fd', op', found', same⟩ | ⟨wait, member, same⟩ :=
      keeps op.ctx (touches.old op.ctx known)
    · exact touches.gone direction fd op here found done
    · by_cases there : slots direction' fd'
      · exact absurd same.symm
          (touches.inside direction' fd' op' there found' direction fd op found)
      · rw [touches.outside direction' fd' there] at found'
        obtain ⟨rfl, rfl⟩ := sound.single direction' fd' op' direction fd op found' found same
        exact absurd here there
    · exact absurd same.symm (touches.apart wait member direction fd op found)
  · intro spared ctx member
    obtain former | new := touches.new ctx member
    · obtain done | ⟨direction, fd, op, found, same⟩ | ⟨wait, waits, same⟩ := kept ctx former
      · exact Or.inl (touches.grows ctx done)
      · by_cases here : slots direction fd
        · exact Or.inl (same ▸ touches.grows op.ctx (spared direction fd here op found))
        · exact Or.inr (Or.inl ⟨direction, fd, op, (touches.outside direction fd here).trans found,
            same⟩)
      · exact Or.inr (same ▸ touches.moved wait waits)
    · exact new

section Submissions

variable {backend next : EpollBackend} {ctx : Ctx}

/-- What a submission does: the operation is deferred, it is recorded, it is completed at once
without being recorded, or it takes the place of another one and is completed at once. -/
inductive Submits (backend : EpollBackend) (inPoll : Bool) (type : OpType) (fd : Fd) (ctx : Ctx)
    (result : KernelResult) : EpollBackend → Prop
  | deferred (isWait : type.isWait = true) (polls : inPoll = true) :
      Submits backend inPoll type fd ctx result
        { backend.announce ctx with
          deferred := backend.deferred ++ [⟨fd, ctx, type = .waitReadable⟩] }
  | recorded (records : ¬ (type.isWait = true ∧ inPoll = true))
      (blocks : type.attempt result = none) :
      Submits backend inPoll type fd ctx result ((backend.announce ctx).record fd ⟨type, ctx⟩)
  | connected (outcome : Int × Nat) (connects : type = .connect)
      (done : type.attempt result = some outcome) :
      Submits backend inPoll type fd ctx result ((backend.announce ctx).complete ctx outcome)
  | replaced (outcome : Int × Nat) (next : EpollBackend)
      (records : ¬ (type.isWait = true ∧ inPoll = true)) (other : type ≠ .connect)
      (same : SameRecords
        (((backend.announce ctx).setPending type.direction fd none).complete ctx outcome) next) :
      Submits backend inPoll type fd ctx result next

theorem submits_submit (backend : EpollBackend) (inPoll : Bool) (type : OpType) (fd : Fd)
    (ctx : Ctx) (result : KernelResult) :
    Submits backend inPoll type fd ctx result (backend.submit inPoll type fd ctx result) := by
  unfold EpollBackend.submit
  dsimp only
  split
  · rename_i defers
    obtain ⟨isWait, polls⟩ := Bool.and_eq_true_iff.mp defers
    exact .deferred isWait polls
  · rename_i records
    rw [Bool.and_eq_true_iff] at records
    split
    · rename_i blocks
      exact .recorded records blocks
    · rename_i outcome done
      split
      · rename_i connects
        exact .connected outcome connects done
      · rename_i other
        refine .replaced outcome _ records other ⟨?_, rfl, rfl, rfl, rfl, rfl⟩
        -- The entry is there only until the end of the section.
        funext direction fd'
        refine (pending_setPending _ type.direction direction fd fd' none).trans ?_
        refine Eq.trans ?_ (pending_setPending _ type.direction direction fd fd' none).symm
        split
        · rfl
        · rename_i elsewhere
          exact (pending_setPending _ type.direction direction fd fd' _).trans (if_neg elsewhere)

/-- What a submission does besides: the context is submitted, and it is the only one that may be
completed. -/
theorem Submits.records {inPoll : Bool} {type : OpType} {fd : Fd} {result : KernelResult}
    (submits : Submits backend inPoll type fd ctx result next) :
    next.place = backend.place ∧ next.submitted = backend.submitted ++ [ctx] ∧
      (next.completed = backend.completed ∨ next.completed = backend.completed ++ [ctx]) := by
  cases submits with
  | deferred => exact ⟨rfl, rfl, Or.inl rfl⟩
  | recorded => exact ⟨rfl, rfl, Or.inl rfl⟩
  | connected outcome => exact ⟨rfl, rfl, Or.inr (completed_complete _ ctx outcome)⟩
  | replaced outcome _ _ _ same =>
    exact ⟨same.place, same.submitted,
      Or.inr (same.completed.trans (completed_complete _ ctx outcome))⟩

/-- A loose context stays loose when a slot is cleared. -/
theorem Loose.setPending_none (loose : backend.Loose ctx) (direction : Direction) (fd : Fd) :
    (backend.setPending direction fd none).Loose ctx := by
  refine ⟨loose.known, ?_, loose.uncompleted⟩
  rintro (⟨direction', fd', op, found, same⟩ | waits)
  · rw [pending_setPending] at found
    split at found
    · cases found
    · exact loose.unrecorded (Or.inl ⟨direction', fd', op, found, same⟩)
  · exact loose.unrecorded (Or.inr waits)

theorem Sound.setPending_none (sound : backend.Sound) (direction : Direction) (fd : Fd) :
    (backend.setPending direction fd none).Sound := by
  refine sound.of_fewer (fun direction' fd' op found => ?_) rfl rfl rfl rfl rfl
  rw [pending_setPending] at found
  split at found
  · cases found
  · exact found

/-- A submission keeps what holds in every run. -/
theorem Sound.submits (sound : backend.Sound) (fresh : ctx ∉ backend.submitted) {inPoll : Bool}
    (polls : inPoll = true → ∃ toResume, backend.place = .resuming toResume) {type : OpType}
    {fd : Fd} {result : KernelResult} (submits : Submits backend inPoll type fd ctx result next) :
    next.Sound := by
  obtain ⟨sound', loose⟩ := sound.announce fresh
  cases submits with
  | deferred isWait inPoll =>
    obtain ⟨toResume, place⟩ := polls inPoll
    exact sound'.defer loose place
  | recorded => exact sound'.record loose fd
  | connected outcome => exact sound'.complete loose outcome
  | replaced outcome _ _ _ same =>
    exact same.sound ((sound'.setPending_none type.direction fd).complete
      (loose.setPending_none type.direction fd) outcome)

/-- A context that is submitted is none of those that were recorded. -/
theorem Sound.ctx_ne (sound : backend.Sound) (fresh : ctx ∉ backend.submitted)
    {direction : Direction} {fd : Fd} {op : PendingOp}
    (found : backend.pending direction fd = some op) : op.ctx ≠ ctx := by
  rintro rfl
  exact fresh (sound.known op.ctx (Or.inl ⟨direction, fd, op, found, rfl⟩))

theorem touches_deferred (sound : backend.Sound) (fresh : ctx ∉ backend.submitted)
    {wait : DeferredWait} (own : wait.ctx = ctx) :
    Touches (fun _ _ => False) backend
      { backend.announce ctx with deferred := backend.deferred ++ [wait] } where
  old := fun _ member => List.mem_append_left _ member
  new := by
    intro other member
    obtain former | last := List.mem_append.mp member
    · exact Or.inl former
    · rw [List.mem_singleton.mp last]
      exact Or.inr (Or.inr (Or.inr ⟨wait, List.mem_append_right _ List.mem_cons_self, own⟩))
  grows := fun _ member => member
  outside := fun _ _ _ => rfl
  gone := fun _ _ _ here => here.elim
  inside := fun _ _ _ here => here.elim
  moved := fun other member => Or.inr ⟨other, List.mem_append_left _ member, rfl⟩
  apart := by
    intro other member direction fd op found
    obtain former | last := List.mem_append.mp member
    · exact sound.apart other former direction fd op found
    · rw [List.mem_singleton.mp last, own]
      exact sound.ctx_ne fresh found

theorem touches_complete (sound : backend.Sound) (outcome : Int × Nat) :
    Touches (fun _ _ => False) backend ((backend.announce ctx).complete ctx outcome) where
  old := fun _ member => List.mem_append_left _ member
  new := by
    intro other member
    obtain former | last := List.mem_append.mp member
    · exact Or.inl former
    · exact Or.inr (Or.inl (mem_completed_complete.mpr (Or.inr (List.mem_singleton.mp last))))
  grows := fun _ member => mem_completed_complete.mpr (Or.inl member)
  outside := fun _ _ _ => rfl
  gone := fun _ _ _ here => here.elim
  inside := fun _ _ _ here => here.elim
  moved := fun other member => Or.inr ⟨other, member, rfl⟩
  apart := sound.apart

theorem touches_record (sound : backend.Sound) (fresh : ctx ∉ backend.submitted) (type : OpType)
    (fd : Fd) :
    Touches (fun direction fd' => direction = type.direction ∧ fd' = fd) backend
      ((backend.announce ctx).record fd ⟨type, ctx⟩) where
  old := fun _ member => List.mem_append_left _ member
  new := by
    intro other member
    obtain former | last := List.mem_append.mp member
    · exact Or.inl former
    · refine Or.inr (Or.inr (Or.inl ⟨type.direction, fd, ⟨type, ctx⟩, ?_,
        (List.mem_singleton.mp last).symm⟩))
      exact (pending_setPending _ _ _ _ _ _).trans (if_pos ⟨rfl, rfl⟩)
  grows := fun _ member => member
  outside := fun _ _ elsewhere => (pending_setPending _ _ _ _ _ _).trans (if_neg elsewhere)
  gone := fun _ _ _ _ _ member => member
  inside := by
    intro direction fd' op here found direction' fd'' former before
    cases ((pending_setPending _ _ _ _ _ _).trans (if_pos here)).symm.trans found
    exact sound.ctx_ne fresh before
  moved := fun other member => Or.inr ⟨other, member, rfl⟩
  apart := sound.apart

theorem touches_replace (sound : backend.Sound) (fresh : ctx ∉ backend.submitted) (type : OpType)
    (fd : Fd) (outcome : Int × Nat) :
    Touches (fun direction fd' => direction = type.direction ∧ fd' = fd) backend
      (((backend.announce ctx).setPending type.direction fd none).complete ctx outcome) where
  old := fun _ member => List.mem_append_left _ member
  new := by
    intro other member
    obtain former | last := List.mem_append.mp member
    · exact Or.inl former
    · exact Or.inr (Or.inl (mem_completed_complete.mpr (Or.inr (List.mem_singleton.mp last))))
  grows := fun _ member => mem_completed_complete.mpr (Or.inl member)
  outside := fun _ _ elsewhere => (pending_setPending _ _ _ _ _ _).trans (if_neg elsewhere)
  gone := by
    intro direction fd' op _ before member
    obtain former | last := mem_completed_complete.mp member
    · exact former
    · exact absurd last (sound.ctx_ne fresh before)
  inside := by
    intro direction fd' op here found
    cases ((pending_setPending _ _ _ _ _ _).trans (if_pos here)).symm.trans found
  moved := fun other member => Or.inr ⟨other, member, rfl⟩
  apart := sound.apart

theorem SameRecords.kept_iff (same : SameRecords backend next) : next.Kept ↔ backend.Kept := by
  unfold Kept
  rw [same.submitted, same.completed]
  exact forall₂_congr fun _ _ => or_congr_right same.recorded_iff

/-- A submission drops nothing if and only if it is deferred, or completed without being recorded,
or finds its slot free. -/
theorem kept_submits_iff (sound : backend.Sound) (kept : backend.Kept)
    (fresh : ctx ∉ backend.submitted) {inPoll : Bool} {type : OpType} {fd : Fd}
    {result : KernelResult} (submits : Submits backend inPoll type fd ctx result next) :
    next.Kept ↔ (type.isWait = true ∧ inPoll = true) ∨
      (type = .connect ∧ (type.attempt result).isSome) ∨ backend.Spared type.direction fd := by
  have single : (∀ direction fd', direction = type.direction ∧ fd' = fd →
      backend.Spared direction fd') ↔ backend.Spared type.direction fd := by
    constructor
    · exact fun spared => spared _ _ ⟨rfl, rfl⟩
    · rintro spared direction fd' ⟨rfl, rfl⟩
      exact spared
  cases submits with
  | deferred isWait polls =>
    rw [(touches_deferred sound fresh rfl).kept_iff sound kept]
    exact iff_of_true (fun _ _ here => here.elim) (Or.inl ⟨isWait, polls⟩)
  | recorded records blocks =>
    rw [(touches_record sound fresh type fd).kept_iff sound kept, single]
    constructor
    · exact fun spared => Or.inr (Or.inr spared)
    · rintro (defers | ⟨_, done⟩ | spared)
      · exact absurd defers records
      · rw [blocks] at done
        cases done
      · exact spared
  | connected outcome connects done =>
    rw [(touches_complete sound outcome).kept_iff sound kept]
    refine iff_of_true (fun _ _ here => here.elim) (Or.inr (Or.inl ⟨connects, ?_⟩))
    rw [done]
    rfl
  | replaced outcome _ records other same =>
    rw [same.kept_iff, (touches_replace sound fresh type fd outcome).kept_iff sound kept, single]
    constructor
    · exact fun spared => Or.inr (Or.inr spared)
    · rintro (defers | ⟨connects, _⟩ | spared)
      · exact absurd defers records
      · exact absurd connects other
      · exact spared

end Submissions

end EpollBackend

end AsyncNet.Io
