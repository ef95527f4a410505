/-
This file models the awaiters of `io/tcp.hpp`, with the backend that they submit their
operations to. `await_suspend` is two steps: it submits the operation, and it tests whether that
is completed, in which case it returns false and the coroutine goes on at once. A polling thread
that completes an operation resumes the coroutine later, without asking whether it has gone on.

A coroutine is continued once as long as no poll completes an operation between the two steps.
On the polling thread itself that cannot happen; a coroutine that was moved to another thread by
`run_on` is exposed to it.
-/

import AsyncNet.Io.EpollCompletion

namespace AsyncNet.Io

open Library

/-! ### Awaiters -/

/-- The backend and the threads in `await_suspend`. `awaiting` are the operations that have been
submitted and not been tested, with the thread that does it. The last field records which coroutines
have gone on, by the context of their operation. -/
structure Awaiters where
  backend : EpollBackend
  awaiting : List (Submitter × Ctx) := []
  continued : List Ctx := []

inductive AwaiterAction where
  | submit (submitter : Submitter) (type : OpType) (fd : Fd) (ctx : Ctx) (result : KernelResult)
  | test (submitter : Submitter) (ctx : Ctx)
  | backend (action : EpollAction)

/-- The action is a step of the polling thread. -/
def EpollAction.isPolling : EpollAction → Bool
  | .enter | .collect _ | .erase | .resume | .leave => true
  | _ => false

namespace Awaiters

/-- The polling thread is in an `await_suspend`. -/
def pollerAwaits (awaiters : Awaiters) : Bool := awaiters.awaiting.any fun wait => wait.1 = .poller

/-- The coroutines that a step of the backend resumes. -/
def resumes (awaiters : Awaiters) : EpollAction → List Ctx
  | .resume => awaiters.backend.place.toResume.take 1
  | _ => []

def step (awaiters : Awaiters) : AwaiterAction → Option Awaiters
  | .submit submitter type fd ctx result =>
      if submitter = .poller ∧ awaiters.pollerAwaits then none
      else
        (awaiters.backend.step (.submit submitter type fd ctx result)).map fun backend =>
          { awaiters with backend := backend, awaiting := awaiters.awaiting ++ [(submitter, ctx)] }
  | .test submitter ctx =>
      if (submitter, ctx) ∈ awaiters.awaiting then
        some { awaiters with
          awaiting := awaiters.awaiting.erase (submitter, ctx)
          continued := awaiters.continued ++
            if ctx ∈ awaiters.backend.completed then [ctx] else [] }
      else none
  | .backend (.submit ..) => none
  | .backend action =>
      if action.isPolling ∧ awaiters.pollerAwaits then none
      else
        (awaiters.backend.step action).map fun backend =>
          { awaiters with
            backend := backend, continued := awaiters.continued ++ awaiters.resumes action }

/-! ### What the hand-over guarantees -/

/-- No coroutine goes on twice, none before its operation is completed, and none is left suspended
when its operation is completed, `await_suspend` has returned and the poll has resumed what it has
completed. -/
structure ContinuedOnce (awaiters : Awaiters) : Prop where
  once : awaiters.continued.Nodup
  late : ∀ ctx ∈ awaiters.continued, ctx ∈ awaiters.backend.completed
  awake : ∀ ctx ∈ awaiters.backend.completed, ctx ∈ awaiters.continued ∨
    ctx ∈ awaiters.awaiting.map Prod.snd ∨ ctx ∈ awaiters.backend.place.toResume

/-- The step completes no operation whose `await_suspend` has not tested it yet: there is none for
which the poll has an event and the kernel a result. -/
def Tested (awaiters : Awaiters) : AwaiterAction → Prop
  | .backend (.collect events) =>
      ∀ visit ∈ events.flatMap (Event.visits awaiters.backend.wakeFd), ∀ ctx,
        awaiters.backend.completes visit = some ctx → ctx ∉ awaiters.awaiting.map Prod.snd
  | _ => True

/-- A coroutine that has gone on, one that a poll is going to resume and one in `await_suspend` are
three different ones. -/
structure Sound (awaiters : Awaiters) : Prop where
  backend : awaiters.backend.Sound
  known : ∀ ctx ∈ awaiters.awaiting.map Prod.snd, ctx ∈ awaiters.backend.submitted
  awaitingOnce : (awaiters.awaiting.map Prod.snd).Nodup
  once : (awaiters.continued ++ awaiters.backend.place.toResume).Nodup
  apart : ∀ ctx ∈ awaiters.awaiting.map Prod.snd,
    ctx ∉ awaiters.continued ++ awaiters.backend.place.toResume
  late : ∀ ctx ∈ awaiters.continued, ctx ∈ awaiters.backend.completed
  awake : ∀ ctx ∈ awaiters.backend.completed, ctx ∈ awaiters.continued ∨
    ctx ∈ awaiters.awaiting.map Prod.snd ∨ ctx ∈ awaiters.backend.place.toResume

theorem sound_new (wakeFd : Fd) : Sound { backend := { wakeFd := wakeFd } } where
  backend := EpollBackend.sound_new wakeFd
  known := nofun
  awaitingOnce := List.nodup_nil
  once := List.nodup_nil
  apart := nofun
  late := nofun
  awake := nofun

theorem Sound.once_continued {awaiters : Awaiters} (sound : awaiters.Sound) :
    awaiters.ContinuedOnce :=
  ⟨(List.nodup_append.mp sound.once).1, sound.late, sound.awake⟩

/-! ### Steps -/

section Steps

variable {awaiters next : Awaiters}

theorem step_submit {submitter : Submitter} {type : OpType} {fd : Fd} {ctx : Ctx}
    {result : KernelResult}
    (taken : awaiters.step (.submit submitter type fd ctx result) = some next) :
    ∃ backend, awaiters.backend.step (.submit submitter type fd ctx result) = some backend ∧
      next = { awaiters with
        backend := backend, awaiting := awaiters.awaiting ++ [(submitter, ctx)] } := by
  rw [step] at taken
  split at taken
  · cases taken
  · obtain ⟨backend, moved, rfl⟩ := Option.map_eq_some_iff.mp taken
    exact ⟨backend, moved, rfl⟩

theorem step_backend {action : EpollAction} (taken : awaiters.step (.backend action) = some next) :
    ∃ backend, awaiters.backend.step action = some backend ∧
      next = { awaiters with
        backend := backend, continued := awaiters.continued ++ awaiters.resumes action } := by
  cases action with
  | submit => cases taken
  | _ =>
    rw [step] at taken
    · split at taken
      · cases taken
      · obtain ⟨backend, moved, rfl⟩ := Option.map_eq_some_iff.mp taken
        exact ⟨backend, moved, rfl⟩
    · nofun

/-- What holds is kept by a step that leaves the records of contexts as they are. -/
theorem Sound.of_backend (sound : awaiters.Sound) {backend : EpollBackend} (still : backend.Sound)
    (submitted : backend.submitted = awaiters.backend.submitted)
    (completed : backend.completed = awaiters.backend.completed)
    (toResume : backend.place.toResume = awaiters.backend.place.toResume) :
    ({ awaiters with backend := backend } : Awaiters).Sound where
  backend := still
  known := fun ctx member => submitted ▸ sound.known ctx member
  awaitingOnce := sound.awaitingOnce
  once := toResume ▸ sound.once
  apart := toResume ▸ sound.apart
  late := completed ▸ sound.late
  awake := by
    dsimp only
    rw [completed, toResume]
    exact sound.awake

theorem Sound.submit (sound : awaiters.Sound) {submitter : Submitter} {type : OpType} {fd : Fd}
    {ctx : Ctx} {result : KernelResult}
    (taken : awaiters.step (.submit submitter type fd ctx result) = some next) : next.Sound := by
  obtain ⟨backend, moved, rfl⟩ := step_submit taken
  obtain ⟨fresh, _, submits⟩ := EpollBackend.step_submit moved
  obtain ⟨place, submitted, completed⟩ := submits.records
  have grown : (awaiters.awaiting ++ [(submitter, ctx)]).map Prod.snd =
      awaiters.awaiting.map Prod.snd ++ [ctx] := List.map_append
  -- The context is none of those that the other records name.
  have new {other : Ctx} (known : other ∈ awaiters.backend.submitted) : other ≠ ctx := by
    rintro rfl
    exact fresh known
  have left : ctx ∉ awaiters.continued ++ awaiters.backend.place.toResume := by
    intro member
    obtain gone | pending := List.mem_append.mp member
    · exact fresh (sound.backend.done ctx (sound.late ctx gone))
    · exact fresh (sound.backend.done ctx
        (sound.backend.resumedDone ctx (List.mem_append_right _ pending)))
  constructor
  · exact sound.backend.step moved
  · intro other member
    rw [grown] at member
    show other ∈ backend.submitted
    rw [submitted]
    obtain former | last := List.mem_append.mp member
    · exact List.mem_append_left _ (sound.known other former)
    · exact List.mem_append_right _ last
  · rw [grown]
    refine List.nodup_append.mpr ⟨sound.awaitingOnce, List.nodup_singleton _, ?_⟩
    rintro other former _ last rfl
    exact new (sound.known other former) (List.mem_singleton.mp last)
  · dsimp only
    rw [place]
    exact sound.once
  · intro other member
    rw [grown] at member
    dsimp only
    rw [place]
    obtain former | last := List.mem_append.mp member
    · exact sound.apart other former
    · rw [List.mem_singleton.mp last]
      exact left
  · intro other member
    show other ∈ backend.completed
    obtain same | one := completed
    · rw [same]
      exact sound.late other member
    · rw [one]
      exact List.mem_append_left _ (sound.late other member)
  · intro other member
    have member : other ∈ backend.completed := member
    rw [grown]
    dsimp only
    rw [place]
    have before (done : other ∈ awaiters.backend.completed) := (sound.awake other done).imp_right
      (Or.imp_left (List.mem_append_left [ctx]))
    obtain same | one := completed
    · rw [same] at member
      exact before member
    · rw [one] at member
      obtain former | last := List.mem_append.mp member
      · exact before former
      · exact Or.inr (Or.inl (List.mem_append_right _ last))

/-- `await_suspend` returns: the coroutine goes on if its operation is completed. -/
theorem Sound.test (sound : awaiters.Sound) {submitter : Submitter} {ctx : Ctx}
    (taken : awaiters.step (.test submitter ctx) = some next) : next.Sound := by
  rw [step] at taken
  split at taken
  · rename_i waits
    cases taken
    have member : ctx ∈ awaiters.awaiting.map Prod.snd := List.mem_map.mpr ⟨_, waits, rfl⟩
    have fewer {other : Ctx}
        (left : other ∈ (awaiters.awaiting.erase (submitter, ctx)).map Prod.snd) :
        other ∈ awaiters.awaiting.map Prod.snd := by
      obtain ⟨wait, found, rfl⟩ := List.mem_map.mp left
      exact List.mem_map.mpr ⟨wait, List.mem_of_mem_erase found, rfl⟩
    have gone : ctx ∉ (awaiters.awaiting.erase (submitter, ctx)).map Prod.snd := by
      intro left
      obtain ⟨wait, found, same⟩ := List.mem_map.mp left
      have only :=
        List.inj_on_of_nodup_map sound.awaitingOnce (List.mem_of_mem_erase found) waits same
      rw [only] at found
      exact sound.awaitingOnce.of_map.not_mem_erase found
    have others {other : Ctx} (differs : other ≠ ctx)
        (waits : other ∈ awaiters.awaiting.map Prod.snd) :
        other ∈ (awaiters.awaiting.erase (submitter, ctx)).map Prod.snd := by
      obtain ⟨wait, found, rfl⟩ := List.mem_map.mp waits
      refine List.mem_map.mpr ⟨wait, (List.mem_erase_of_ne ?_).mpr found, rfl⟩
      rintro rfl
      exact differs rfl
    have once := sound.once
    have outside := sound.apart ctx member
    by_cases done : ctx ∈ awaiters.backend.completed
    · rw [if_pos done]
      have swap : (awaiters.continued ++ [ctx] ++ awaiters.backend.place.toResume).Perm
          (ctx :: (awaiters.continued ++ awaiters.backend.place.toResume)) := by
        rw [List.append_assoc]
        exact List.perm_middle
      constructor
      · exact sound.backend
      · exact fun other left => sound.known other (fewer left)
      · exact sound.awaitingOnce.sublist ((List.erase_sublist).map _)
      · exact swap.nodup_iff.mpr (List.nodup_cons.mpr ⟨outside, once⟩)
      · intro other left inside
        obtain rfl | former := List.mem_cons.mp (swap.mem_iff.mp inside)
        · exact gone left
        · exact sound.apart other (fewer left) former
      · intro other inside
        obtain former | last := List.mem_append.mp inside
        · exact sound.late other former
        · rw [List.mem_singleton.mp last]
          exact done
      · intro other completed
        by_cases same : other = ctx
        · exact Or.inl (List.mem_append_right _ (List.mem_singleton.mpr same))
        · exact (sound.awake other completed).imp (List.mem_append_left _)
            (Or.imp_left (others same))
    · rw [if_neg done, List.append_nil]
      constructor
      · exact sound.backend
      · exact fun other left => sound.known other (fewer left)
      · exact sound.awaitingOnce.sublist ((List.erase_sublist).map _)
      · exact once
      · exact fun other left => sound.apart other (fewer left)
      · exact sound.late
      · intro other completed
        have differs : other ≠ ctx := by
          rintro rfl
          exact done completed
        exact (sound.awake other completed).imp_right (Or.imp_left (others differs))
  · cases taken

/-- A poll completes operations that `await_suspend` has tested. -/
theorem Sound.collect (sound : awaiters.Sound) {events : List Event}
    (tested : awaiters.Tested (.backend (.collect events)))
    (taken : awaiters.step (.backend (.collect events)) = some next) : next.Sound := by
  obtain ⟨backend, moved, rfl⟩ := step_backend taken
  have still := sound.backend.step moved
  obtain ⟨place, _, rfl⟩ := EpollBackend.step_collect moved
  obtain ⟨collected, collects, same⟩ := EpollBackend.collects_collect sound.backend place events
  have nothing : awaiters.backend.place.toResume = [] := by rw [place]; rfl
  have once := sound.once
  rw [nothing, List.append_nil] at once
  have completed : (awaiters.backend.collect events).completed =
      awaiters.backend.completed ++ collected.toResume := by
    rw [same]
    exact collects.completed
  have toResume : (awaiters.backend.collect events).place.toResume = collected.toResume := by
    rw [same]
    rfl
  have submitted : (awaiters.backend.collect events).submitted = awaiters.backend.submitted := by
    rw [same]
    exact collects.submitted
  -- What is completed now was neither completed before nor is it in `await_suspend`.
  have new : collected.toResume.Nodup ∧
      ∀ ctx ∈ awaiters.backend.completed, ∀ other ∈ collected.toResume, ctx ≠ other := by
    have all := still.completedOnce
    rw [completed] at all
    exact (List.nodup_append.mp all).2
  have apart {ctx : Ctx} (resumes : ctx ∈ collected.toResume) :
      ctx ∉ awaiters.awaiting.map Prod.snd := by
    rw [collects.toResume] at resumes
    obtain ⟨visit, visited, done⟩ := List.mem_filterMap.mp resumes
    exact tested visit visited ctx done
  show Sound { awaiters with
    backend := awaiters.backend.collect events, continued := awaiters.continued ++ [] }
  rw [List.append_nil]
  constructor
  · exact still
  · intro ctx member
    dsimp only
    rw [submitted]
    exact sound.known ctx member
  · exact sound.awaitingOnce
  · dsimp only
    rw [toResume]
    refine List.nodup_append.mpr ⟨once, new.1, fun ctx member other resumes => ?_⟩
    exact new.2 ctx (sound.late ctx member) other resumes
  · intro ctx member
    dsimp only
    rw [toResume]
    intro inside
    obtain gone | resumes := List.mem_append.mp inside
    · exact sound.apart ctx member (List.mem_append_left _ gone)
    · exact apart resumes member
  · intro ctx member
    dsimp only
    rw [completed]
    exact List.mem_append_left _ (sound.late ctx member)
  · intro ctx member
    dsimp only at member ⊢
    rw [completed] at member
    rw [toResume]
    obtain former | last := List.mem_append.mp member
    · obtain gone | waits | resumes := sound.awake ctx former
      · exact Or.inl gone
      · exact Or.inr (Or.inl waits)
      · rw [nothing] at resumes
        cases resumes
    · exact Or.inr (Or.inr last)

/-- The poll resumes a coroutine. -/
theorem Sound.resume (sound : awaiters.Sound)
    (taken : awaiters.step (.backend .resume) = some next) : next.Sound := by
  obtain ⟨backend, moved, rfl⟩ := step_backend taken
  have still := sound.backend.step moved
  obtain ⟨ctx, toResume, place, rfl⟩ := EpollBackend.step_resume moved
  have pending : awaiters.backend.place.toResume = ctx :: toResume := by rw [place]; rfl
  have resumed : awaiters.resumes .resume = [ctx] := by
    rw [resumes, pending]
    rfl
  have once := sound.once
  have apart := sound.apart
  have awake := sound.awake
  rw [pending] at once apart awake
  rw [resumed]
  have same : awaiters.continued ++ [ctx] ++ toResume = awaiters.continued ++ ctx :: toResume := by
    rw [List.append_assoc, List.singleton_append]
  constructor
  · exact still
  · exact sound.known
  · exact sound.awaitingOnce
  · show (awaiters.continued ++ [ctx] ++ toResume).Nodup
    rw [same]
    exact once
  · intro other member
    show other ∉ awaiters.continued ++ [ctx] ++ toResume
    rw [same]
    exact apart other member
  · intro other member
    obtain former | last := List.mem_append.mp member
    · exact sound.late other former
    · refine sound.backend.resumedDone other (List.mem_append_right _ ?_)
      rw [pending, List.mem_singleton.mp last]
      exact List.mem_cons_self
  · intro other member
    obtain gone | waits | resumes := awake other member
    · exact Or.inl (List.mem_append_left _ gone)
    · exact Or.inr (Or.inl waits)
    · obtain rfl | later := List.mem_cons.mp resumes
      · exact Or.inl (List.mem_append_right _ List.mem_cons_self)
      · exact Or.inr (Or.inr later)

theorem Sound.step (sound : awaiters.Sound) {action : AwaiterAction}
    (tested : awaiters.Tested action) (taken : awaiters.step action = some next) : next.Sound := by
  cases action with
  | submit submitter type fd ctx result => exact sound.submit taken
  | test submitter ctx => exact sound.test taken
  | backend action =>
    have quiet (same : awaiters.resumes action = []) {backend : EpollBackend}
        (moved : awaiters.backend.step action = some backend)
        (submitted : backend.submitted = awaiters.backend.submitted)
        (completed : backend.completed = awaiters.backend.completed)
        (toResume : backend.place.toResume = awaiters.backend.place.toResume) :
        Sound { awaiters with
          backend := backend, continued := awaiters.continued ++ awaiters.resumes action } := by
      rw [same, List.append_nil]
      exact sound.of_backend (sound.backend.step moved) submitted completed toResume
    cases action with
    | submit => cases taken
    | collect events => exact sound.collect tested taken
    | resume => exact sound.resume taken
    | register fd =>
      obtain ⟨backend, moved, rfl⟩ := step_backend taken
      refine quiet rfl moved ?_ ?_ ?_ <;>
      · cases moved
        rfl
    | deregister fd =>
      obtain ⟨backend, moved, rfl⟩ := step_backend taken
      refine quiet rfl moved ?_ ?_ ?_ <;>
      · cases moved
        rfl
    | enter =>
      obtain ⟨backend, moved, rfl⟩ := step_backend taken
      obtain ⟨place, same⟩ := EpollBackend.step_enter moved
      refine quiet rfl moved ?_ ?_ ?_ <;> rw [same]
      · rfl
      · rw [place]
        rfl
    | erase =>
      obtain ⟨backend, moved, rfl⟩ := step_backend taken
      obtain ⟨toResume, erases, place, same⟩ := EpollBackend.step_erase moved
      refine quiet rfl moved ?_ ?_ ?_ <;> rw [same]
      · rfl
      · rfl
      · rw [place]
        rfl
    | leave =>
      obtain ⟨backend, moved, rfl⟩ := step_backend taken
      obtain ⟨place, same⟩ := EpollBackend.step_leave moved
      obtain ⟨_, submitted, completed⟩ := awaiters.backend.processDeferredWaits_records
      refine quiet rfl moved ?_ ?_ ?_ <;> rw [same]
      · exact submitted
      · exact completed
      · rw [place]
        rfl

end Steps

/-- Every coroutine is continued exactly once per operation, in every run in which no poll completes
an operation that `await_suspend` has not tested yet. -/
theorem continuedOnce {wakeFd : Fd} {actions : List AwaiterAction} {final : Awaiters}
    (heeds : Heeds step Tested { backend := { wakeFd := wakeFd } } actions)
    (run : after step { backend := { wakeFd := wakeFd } } actions = some final) :
    final.ContinuedOnce :=
  (after_heeding Sound (fun _ _ _ sound tested taken => sound.step tested taken)
    (sound_new wakeFd) heeds run).once_continued

open EpollBackend (readable)

/-- A read of another thread that waits for a poll. -/
theorem continuedOnce_read :
    ∃ final, after step { backend := {} }
        [.submit .other .read 5 0 (.error 11), .test .other 0, .backend .enter,
          .backend (.collect [readable 5 3]), .backend .erase, .backend .resume] = some final ∧
      final.continued = [0] ∧ final.ContinuedOnce := by
  have heeds : Heeds step Tested { backend := {} }
      [.submit .other .read 5 0 (.error 11), .test .other 0, .backend .enter,
        .backend (.collect [readable 5 3]), .backend .erase, .backend .resume] := by
    refine ⟨trivial, fun _ submitted => ?_⟩
    cases submitted
    refine ⟨trivial, fun _ tested => ?_⟩
    cases tested
    refine ⟨trivial, fun _ entered => ?_⟩
    cases entered
    refine ⟨fun _ _ _ _ waits => ?_, fun _ _ => ?_⟩
    · cases waits
    · exact ⟨trivial, fun _ _ => ⟨trivial, fun _ _ => trivial⟩⟩
  exact ⟨_, rfl, rfl, continuedOnce heeds rfl⟩

/-- The poll completes the read between its submission and the test: `await_suspend` returns false,
and the coroutine is resumed as well. -/
theorem not_continuedOnce_race :
    ∃ final, after step { backend := {} }
        [.submit .other .read 5 0 (.error 11), .backend .enter, .backend (.collect [readable 5 3]),
          .test .other 0, .backend .erase, .backend .resume] = some final ∧
      final.continued = [0, 0] ∧ ¬ final.ContinuedOnce :=
  ⟨_, rfl, rfl, fun continuedOnce => absurd continuedOnce.once (by decide)⟩

/-! ### The condition is needed -/

section Untested

variable {awaiters next : Awaiters}

/-- A step of the polling thread, when it is not in `await_suspend`. -/
theorem step_polling {action : EpollAction} (polling : action.isPolling = true)
    (free : awaiters.pollerAwaits = false) {backend : EpollBackend}
    (moved : awaiters.backend.step action = some backend) :
    awaiters.step (.backend action) = some { awaiters with
      backend := backend, continued := awaiters.continued ++ awaiters.resumes action } := by
  have free : ¬ (action.isPolling = true ∧ awaiters.pollerAwaits = true) := by
    rw [free]
    nofun
  cases action with
  | submit => cases polling
  | _ =>
    rw [step, if_neg free, moved]
    · rfl
    · nofun

/-- The poll resumes all that it has completed. -/
theorem after_resumes {toResume : List Ctx} (place : awaiters.backend.place = .resuming toResume)
    (free : awaiters.pollerAwaits = false) :
    ∃ last, after step awaiters (List.replicate toResume.length (.backend .resume)) = some last ∧
      last.continued = awaiters.continued ++ toResume := by
  induction toResume generalizing awaiters with
  | nil => exact ⟨awaiters, rfl, (List.append_nil _).symm⟩
  | cons ctx toResume inductionHypothesis =>
    have moved : awaiters.backend.step .resume = some { awaiters.backend with
        place := .resuming toResume, resumed := awaiters.backend.resumed ++ [ctx] } := by
      rw [EpollBackend.step, place]
    have taken := step_polling rfl free moved
    have resumed : awaiters.resumes .resume = [ctx] := by
      rw [resumes, place]
      rfl
    rw [resumed] at taken
    obtain ⟨last, run, all⟩ := @inductionHypothesis { awaiters with
      backend := { awaiters.backend with
        place := .resuming toResume, resumed := awaiters.backend.resumed ++ [ctx] }
      continued := awaiters.continued ++ [ctx] } rfl free
    refine ⟨last, after_cons.mpr ⟨_, taken, run⟩, ?_⟩
    rw [all, List.append_assoc, List.singleton_append]

/-- A poll that completes an operation that has not been tested can be followed by two continuations
of its coroutine. -/
theorem not_continuedOnce_of_untested (sound : awaiters.backend.Sound) {events : List Event}
    (taken : awaiters.step (.backend (.collect events)) = some next)
    (untested : ¬ awaiters.Tested (.backend (.collect events))) :
    ∃ actions last, after step next actions = some last ∧ ¬ last.ContinuedOnce := by
  obtain ⟨visit, visited, known, completes, waits⟩ : ∃ visit ∈
      events.flatMap (Event.visits awaiters.backend.wakeFd), ∃ ctx,
        awaiters.backend.completes visit = some ctx ∧ ctx ∈ awaiters.awaiting.map Prod.snd := by
    by_contra none
    refine untested fun visit visited ctx completes waits => none ?_
    exact ⟨visit, visited, ctx, completes, waits⟩
  obtain ⟨⟨submitter, ctx⟩, member, rfl⟩ := List.mem_map.mp waits
  have free : awaiters.pollerAwaits = false := by
    rw [step] at taken
    · split at taken
      · cases taken
      · rename_i free
        exact Bool.eq_false_iff.mpr fun waiting => free ⟨rfl, waiting⟩
    · nofun
  obtain ⟨backend, moved, rfl⟩ := step_backend taken
  obtain ⟨place, _, rfl⟩ := EpollBackend.step_collect moved
  obtain ⟨collected, collects, same⟩ := EpollBackend.collects_collect sound place events
  have resumes : ctx ∈ collected.toResume := by
    rw [collects.toResume]
    exact List.mem_filterMap.mpr ⟨visit, visited, completes⟩
  have done : ctx ∈ (awaiters.backend.collect events).completed := by
    have completed : (awaiters.backend.collect events).completed =
        awaiters.backend.completed ++ collected.toResume := by
      rw [same]
      exact collects.completed
    rw [completed]
    exact List.mem_append_right _ resumes
  have collectedPlace : (awaiters.backend.collect events).place =
      .collected collected.toResume collected.erases := by rw [same]
  have erased : (awaiters.backend.collect events).step .erase =
      some { (awaiters.backend.collect events).erase collected.erases with
        place := .resuming collected.toResume } := by
    rw [EpollBackend.step, collectedPlace]
  -- `await_suspend` returns false, and then the poll goes on to resume the coroutine.
  let tested : Awaiters := { awaiters with
    backend := awaiters.backend.collect events
    awaiting := awaiters.awaiting.erase (submitter, ctx)
    continued := awaiters.continued ++ [] ++ [ctx] }
  have tests : step { awaiters with
      backend := awaiters.backend.collect events, continued := awaiters.continued ++ [] }
      (.test submitter ctx) = some tested := by
    rw [step, if_pos member, if_pos done]
  have stillFree : tested.pollerAwaits = false := by
    refine List.any_eq_false.mpr fun wait left => ?_
    exact List.any_eq_false.mp free wait (List.mem_of_mem_erase left)
  have erases := @step_polling tested .erase rfl stillFree _ erased
  obtain ⟨last, run, all⟩ := @after_resumes { tested with
    backend := { (awaiters.backend.collect events).erase collected.erases with
      place := .resuming collected.toResume }
    continued := tested.continued ++ tested.resumes .erase } collected.toResume rfl stillFree
  refine ⟨.test submitter ctx :: .backend .erase :: _, last,
    after_cons.mpr ⟨tested, tests, after_cons.mpr ⟨_, erases, run⟩⟩, fun continuedOnce => ?_⟩
  have once := continuedOnce.once
  rw [all] at once
  have before : ctx ∈ tested.continued ++ tested.resumes .erase :=
    List.mem_append_left _ (List.mem_append_right _ List.mem_cons_self)
  exact (List.nodup_append.mp once).2.2 ctx before ctx resumes rfl

end Untested

end Awaiters

end AsyncNet.Io
