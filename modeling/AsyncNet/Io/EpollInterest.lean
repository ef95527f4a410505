/-
This file is about the events that are set for a descriptor, compared with the operations that are
pending on it. Whatever puts an operation into a map or takes one out of it calls `update_events`
afterwards, all but `poll_impl`: it calls it where an operation is completed, while the operation is
still in its map, and takes the operation out in its second section without another call. So the
events of a descriptor stay as they were after a poll that has completed an operation on it.
-/

import AsyncNet.Io.EpollCompletion

namespace AsyncNet.Io

open Library

namespace EpollBackend

/-! ### The property -/

/-- Whether a read-side and a write-side operation are pending on a descriptor. -/
def interest (backend : EpollBackend) (fd : Fd) : Bool × Bool :=
  ((backend.pending .read fd).isSome, (backend.pending .write fd).isSome)

/-- The events of every registered descriptor are those for which an operation is pending on it. -/
def Matches (backend : EpollBackend) : Prop :=
  ∀ fd events, backend.fdEvents fd = some events → events = backend.interest fd

/-- The step does not go wrong: a descriptor is registered while no operation is pending on it, and
the second section of `poll_impl` takes no operation of a registered descriptor out of the maps. -/
def Refreshes (backend : EpollBackend) : EpollAction → Prop
  | .register fd => ∀ direction, backend.pending direction fd = none
  | .erase => ∀ slot ∈ backend.place.erases,
      backend.pending slot.1 slot.2 = none ∨ backend.fdEvents slot.2 = none
  | _ => True

/-! ### Steps -/

section Steps

variable {backend next : EpollBackend}

/-- Only one descriptor changes. -/
theorem Matches.elsewhere (holds : backend.Matches) (fd : Fd)
    (events : ∀ other ≠ fd, next.fdEvents other = backend.fdEvents other)
    (pending : ∀ other ≠ fd, ∀ direction,
      next.pending direction other = backend.pending direction other)
    (here : ∀ events, next.fdEvents fd = some events → events = next.interest fd) :
    next.Matches := by
  intro other set found
  by_cases same : other = fd
  · subst same
    exact here set found
  · have before := holds other set ((events other same).symm.trans found)
    unfold interest
    rw [pending other same, pending other same]
    exact before

theorem pending_setPending_ne (backend : EpollBackend) (direction direction' : Direction)
    {fd other : Fd} (differs : other ≠ fd) (op : Option PendingOp) :
    (backend.setPending direction fd op).pending direction' other =
      backend.pending direction' other := by
  rw [pending_setPending, if_neg fun both => differs both.2]

/-- A change of the maps at one descriptor, with the call of `update_events` that follows it. -/
theorem Matches.updateEvents (holds : backend.Matches) {middle : EpollBackend} (fd : Fd)
    (events : ∀ other ≠ fd, middle.fdEvents other = backend.fdEvents other)
    (pending : ∀ other ≠ fd, ∀ direction,
      middle.pending direction other = backend.pending direction other) :
    (middle.updateEvents fd).Matches := by
  refine holds.elsewhere fd (fun other differs => ?_) pending fun set found => ?_
  · exact (Function.update_of_ne differs _ _).trans (events other differs)
  · have same : some (middle.interest fd) = some set :=
      (Function.update_self fd _ middle.fdEvents).symm.trans found
    exact (Option.some.inj same).symm

theorem Matches.record (holds : backend.Matches) (fd : Fd) (op : PendingOp) :
    (backend.record fd op).Matches :=
  holds.updateEvents fd (fun _ _ => rfl) fun _ differs direction =>
    backend.pending_setPending_ne op.type.direction direction differs (some op)

theorem Matches.submit (holds : backend.Matches) (inPoll : Bool) (type : OpType) (fd : Fd)
    (ctx : Ctx) (result : KernelResult) :
    (backend.submit inPoll type fd ctx result).Matches := by
  have announced : (backend.announce ctx).Matches := holds
  unfold EpollBackend.submit
  dsimp only
  split
  · exact holds
  · split
    · exact announced.record fd ⟨type, ctx⟩
    · split
      · exact holds
      · -- The operation is taken out again, and then the events are set.
        refine (announced.record fd ⟨type, ctx⟩).updateEvents fd (fun _ _ => rfl) ?_
        exact fun _ differs direction =>
          pending_setPending_ne _ type.direction direction differs none

theorem Matches.deregister (holds : backend.Matches) (fd : Fd) :
    (backend.deregister fd).Matches := by
  refine holds.elsewhere fd (fun other differs => ?_) (fun other differs direction => ?_) ?_
  · exact Function.update_of_ne differs _ _
  · exact (pending_setPending_ne _ .write direction differs none).trans
      (pending_setPending_ne _ .read direction differs none)
  · intro set found
    have none : (backend.deregister fd).fdEvents fd = none := Function.update_self ..
    rw [none] at found
    cases found

theorem Matches.processDeferredWaits (holds : backend.Matches) :
    backend.processDeferredWaits.Matches := by
  have fold (waits : List DeferredWait) (backend : EpollBackend) (holds : backend.Matches) :
      (waits.foldl recordWait backend).Matches := by
    induction waits generalizing backend with
    | nil => exact holds
    | cons wait waits inductionHypothesis =>
      exact inductionHypothesis (backend.recordWait wait) (holds.record wait.fd wait.op)
  exact fold backend.deferred backend holds

/-- The first section of `poll_impl` leaves the maps as they are. -/
theorem Matches.collect (holds : backend.Matches) (events : List Event) :
    (backend.collect events).Matches := by
  have visit (collected : Collected) (visit : Visit) (holds : collected.backend.Matches) :
      (collected.visit visit).backend.Matches := by
    unfold Collected.visit
    split
    · exact holds
    · split
      · exact holds
      · dsimp only
        split
        · exact holds
        · exact holds.updateEvents visit.fd (fun _ _ => rfl) fun _ _ _ => rfl
  have fold (visits : List Visit) (collected : Collected) (holds : collected.backend.Matches) :
      (visits.foldl Collected.visit collected).backend.Matches := by
    induction visits generalizing collected with
    | nil => exact holds
    | cons first visits inductionHypothesis =>
      exact inductionHypothesis (collected.visit first) (visit collected first holds)
  exact fold _ { backend := backend.processDeferredWaits } holds.processDeferredWaits

/-- A descriptor is registered with no events. -/
theorem matches_register_iff (holds : backend.Matches) (fd : Fd) :
    (backend.register fd).Matches ↔ ∀ direction, backend.pending direction fd = none := by
  have set : (backend.register fd).fdEvents fd = some (false, false) := Function.update_self ..
  constructor
  · intro after direction
    have same : (false, false) = backend.interest fd := after fd _ set
    obtain ⟨read, write⟩ := Prod.mk.inj same
    cases direction with
    | read => exact Option.not_isSome_iff_eq_none.mp (read ▸ Bool.false_ne_true)
    | write => exact Option.not_isSome_iff_eq_none.mp (write ▸ Bool.false_ne_true)
  · intro free
    refine holds.elsewhere fd (fun other differs => Function.update_of_ne differs _ _)
      (fun _ _ _ => rfl) fun events found => ?_
    cases set.symm.trans found
    show (false, false) = ((backend.pending .read fd).isSome, (backend.pending .write fd).isSome)
    rw [free .read, free .write]
    rfl

/-- Operations are taken out of the maps, and the events stay. -/
theorem matches_erase_iff (holds : backend.Matches) (erases : List (Direction × Fd))
    (place : PollPlace) :
    ({ backend.erase erases with place } : EpollBackend).Matches ↔
      ∀ slot ∈ erases, backend.pending slot.1 slot.2 = none ∨ backend.fdEvents slot.2 = none := by
  constructor
  · intro after slot member
    cases set : backend.fdEvents slot.2 with
    | none => exact Or.inr rfl
    | some events =>
      have before := holds slot.2 events set
      have same : backend.interest slot.2 = (backend.erase erases).interest slot.2 :=
        before.symm.trans (after slot.2 events set)
      have gone : (backend.erase erases).pending slot.1 slot.2 = none := if_pos member
      obtain ⟨read, write⟩ := Prod.mk.inj same
      refine Or.inl (Option.not_isSome_iff_eq_none.mp fun pending => ?_)
      have stays : (backend.pending slot.1 slot.2).isSome =
          ((backend.erase erases).pending slot.1 slot.2).isSome := by
        cases slot.1 with
        | read => exact read
        | write => exact write
      rw [pending, gone] at stays
      cases stays
  · intro free fd events set
    have stays (direction : Direction) :
        (backend.erase erases).pending direction fd = backend.pending direction fd := by
      show (if _ then _ else _) = _
      split
      · rename_i member
        obtain none | unregistered := free _ member
        · exact none.symm
        · cases Eq.trans unregistered.symm set
      · rfl
    show events = (((backend.erase erases).pending .read fd).isSome,
      ((backend.erase erases).pending .write fd).isSome)
    rw [stays, stays]
    exact holds fd events set

/-- The events match after a step if and only if it does not go wrong. -/
theorem matches_step_iff (holds : backend.Matches) {action : EpollAction}
    (taken : backend.step action = some next) : next.Matches ↔ backend.Refreshes action := by
  cases action with
  | register fd =>
    cases taken
    exact matches_register_iff holds fd
  | deregister fd =>
    cases taken
    exact iff_of_true (holds.deregister fd) trivial
  | submit submitter type fd ctx result =>
    rw [step] at taken
    split at taken
    · cases taken
      exact iff_of_true (holds.submit _ type fd ctx result) trivial
    · cases taken
  | enter =>
    obtain ⟨_, rfl⟩ := step_enter taken
    exact iff_of_true holds trivial
  | collect events =>
    obtain ⟨_, _, rfl⟩ := step_collect taken
    exact iff_of_true (holds.collect events) trivial
  | erase =>
    obtain ⟨toResume, erases, place, rfl⟩ := step_erase taken
    rw [matches_erase_iff holds erases]
    unfold Refreshes
    rw [place]
    exact Iff.rfl
  | resume =>
    obtain ⟨_, _, _, rfl⟩ := step_resume taken
    exact iff_of_true holds trivial
  | leave =>
    obtain ⟨_, rfl⟩ := step_leave taken
    exact iff_of_true holds.processDeferredWaits trivial

end Steps

/-! ### Runs -/

/-- The events match throughout a run if and only if no descriptor of the run is registered while an
operation is pending on it and no poll takes an operation of a registered descriptor out of the
maps, as it does with those that it has completed. -/
theorem matches_throughout_iff {wakeFd : Fd} {actions : List EpollAction} {final : EpollBackend}
    (run : after step { wakeFd := wakeFd } actions = some final) :
    (∀ front backend, front <+: actions →
        after step { wakeFd := wakeFd } front = some backend → backend.Matches) ↔
      Heeds step Refreshes { wakeFd := wakeFd } actions := by
  have none : ({ wakeFd := wakeFd } : EpollBackend).Matches := fun _ _ found => by cases found
  exact forall_front_iff_heeds (fun _ _ _ _ _ => trivial)
    (fun _ _ _ (_ : True) holds taken => matches_step_iff holds taken) trivial none run

/-- A write is completed at once, a read is not, and a poll finds that it would still block. -/
theorem matches_throughout_blocked :
    let actions : List EpollAction :=
      [.register 5, .submit .other .write 5 0 (.ok 3), .submit .other .read 5 1 (.error 11),
        .enter, .collect [{ readable 5 3 with readResult := .error 11 }], .erase, .leave]
    (after step {} actions).isSome ∧
      ∀ front backend, front <+: actions → after step {} front = some backend →
        backend.Matches := by
  refine ⟨rfl, (matches_throughout_iff rfl).mpr ⟨fun _ => rfl, fun _ registered => ?_⟩⟩
  cases registered
  refine ⟨trivial, fun _ written => ?_⟩
  cases written
  refine ⟨trivial, fun _ submitted => ?_⟩
  cases submitted
  refine ⟨trivial, fun _ entered => ?_⟩
  cases entered
  refine ⟨trivial, fun _ collected => ?_⟩
  cases collected
  refine ⟨fun slot member => ?_, fun _ erased => ?_⟩
  · cases member
  · cases erased
    exact ⟨trivial, fun _ _ => trivial⟩

/-- A poll completes a read: `EPOLLIN` is set after it, and nothing is pending. -/
theorem not_matches_read :
    ∃ backend, after step {}
        [.register 5, .submit .other .read 5 0 (.error 11), .enter, .collect [readable 5 3], .erase,
          .resume, .leave] = some backend ∧
      backend.place = .outside ∧ backend.fdEvents 5 = some (true, false) ∧
      backend.interest 5 = (false, false) ∧ ¬ backend.Matches := by
  refine ⟨_, rfl, rfl, rfl, rfl, fun holds => ?_⟩
  cases holds 5 (true, false) rfl

end EpollBackend

end AsyncNet.Io
