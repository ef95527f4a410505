/-
This file is about what becomes of the operations that are submitted to the backend. In every
run a context is completed at most once and resumed at most once. An operation is dropped where
an entry of the maps is replaced or erased before it is completed, and these are exactly the
steps that do so: a submission and a deferred wait for a descriptor and direction that is in
use, the second section of `poll_impl` where an operation was submitted since the first, and
`deregister_impl`.
-/

import AsyncNet.Io.EpollRecords

namespace AsyncNet.Io

open Library

namespace EpollBackend

/-! ### The first section of a poll -/

/-- The context that the handling of an event completes. -/
def completes (backend : EpollBackend) (visit : Visit) : Option Ctx :=
  (backend.pending visit.direction visit.fd).bind fun op =>
    (op.type.outcome visit.result).map fun _ => op.ctx

theorem completes_eq_some {backend : EpollBackend} {visit : Visit} {ctx : Ctx}
    (done : backend.completes visit = some ctx) :
    ∃ op, backend.pending visit.direction visit.fd = some op ∧ op.ctx = ctx := by
  obtain ⟨op, found, outcome⟩ := Option.bind_eq_some_iff.mp done
  obtain ⟨_, _, same⟩ := Option.map_eq_some_iff.mp outcome
  exact ⟨op, found, same⟩

/-- What has been collected so far from a backend. -/
structure Collects (backend : EpollBackend) (visits : List Visit) (collected : Collected) :
    Prop where
  pending : collected.backend.pending = backend.pending
  deferred : collected.backend.deferred = backend.deferred
  submitted : collected.backend.submitted = backend.submitted
  resumed : collected.backend.resumed = backend.resumed
  completed : collected.backend.completed = backend.completed ++ collected.toResume
  toResume : collected.toResume = visits.filterMap backend.completes
  erases : ∀ visit ∈ visits, backend.completes visit ≠ none →
    (visit.direction, visit.fd) ∈ collected.erases

theorem Collects.visit {backend : EpollBackend} {visits : List Visit} {collected : Collected}
    (collects : Collects backend visits collected) (visit : Visit) :
    Collects backend (visits ++ [visit]) (collected.visit visit) := by
  have found := congrFun (congrFun collects.pending visit.direction) visit.fd
  have nothing (none : backend.completes visit = none) :
      Collects backend (visits ++ [visit]) collected := by
    refine ⟨collects.pending, collects.deferred, collects.submitted, collects.resumed,
      collects.completed, ?_, fun other member done => ?_⟩
    · rw [List.filterMap_append, List.filterMap_cons_none none, List.filterMap_nil, List.append_nil]
      exact collects.toResume
    · obtain former | last := List.mem_append.mp member
      · exact collects.erases other former done
      · rw [List.mem_singleton.mp last] at done
        exact absurd none done
  unfold Collected.visit
  rw [found]
  cases here : backend.pending visit.direction visit.fd with
  | none =>
    refine nothing ?_
    rw [completes, here]
    rfl
  | some op =>
    dsimp only
    cases outcome : op.type.outcome visit.result with
    | none =>
      refine nothing ?_
      rw [completes, here, Option.bind_some, outcome]
      rfl
    | some result =>
      have done : backend.completes visit = some op.ctx := by
        rw [completes, here, Option.bind_some, outcome]
        rfl
      -- Whether the events are updated makes no difference for the records.
      have same : SameRecords (collected.backend.complete op.ctx result)
          (if op.type = .accept then collected.backend.complete op.ctx result
            else (collected.backend.complete op.ctx result).updateEvents visit.fd) := by
        split
        · exact ⟨rfl, rfl, rfl, rfl, rfl, rfl⟩
        · exact sameRecords_updateEvents _ _
      dsimp only
      constructor
      · exact same.pending.trans collects.pending
      · exact same.deferred.trans collects.deferred
      · exact same.submitted.trans collects.submitted
      · exact same.resumed.trans collects.resumed
      · rw [same.completed, completed_complete, collects.completed, List.append_assoc]
      · rw [List.filterMap_append, List.filterMap_cons_some done, List.filterMap_nil,
          collects.toResume]
      · intro other member ends
        obtain former | last := List.mem_append.mp member
        · exact List.mem_append_left _ (collects.erases other former ends)
        · rw [List.mem_singleton.mp last]
          exact List.mem_append_right _ List.mem_cons_self

/-- The loop over the events completes what is recorded for them and would not block. -/
theorem collects_foldl {backend : EpollBackend} {before : List Visit} {collected : Collected}
    (collects : Collects backend before collected) (visits : List Visit) :
    Collects backend (before ++ visits) (visits.foldl Collected.visit collected) := by
  induction visits generalizing before collected with
  | nil =>
    rw [List.append_nil]
    exact collects
  | cons visit visits inductionHypothesis =>
    have next := inductionHypothesis (collects.visit visit)
    rwa [List.append_assoc] at next

theorem collects_nil (backend : EpollBackend) : Collects backend [] { backend := backend } :=
  ⟨rfl, rfl, rfl, rfl, (List.append_nil _).symm, rfl, nofun⟩

/-- The events are for different descriptors, so they are handled in different slots. -/
theorem nodup_visits (wakeFd : Fd) {events : List Event} (distinct : (events.map Event.fd).Nodup) :
    (events.flatMap (Event.visits wakeFd)).Pairwise fun visit other =>
      (visit.direction, visit.fd) ≠ (other.direction, other.fd) := by
  have ofEvent {event : Event} {visit : Visit} (member : visit ∈ event.visits wakeFd) :
      visit.fd = event.fd := by
    unfold Event.visits at member
    split at member
    · cases member
    · obtain member | member := List.mem_append.mp member
      · split at member
        · rw [List.mem_singleton.mp member]
        · cases member
      · split at member
        · rw [List.mem_singleton.mp member]
        · cases member
  rw [List.pairwise_flatMap]
  constructor
  · intro event _
    unfold Event.visits
    split
    · exact List.Pairwise.nil
    · refine List.pairwise_append.mpr ⟨?_, ?_, ?_⟩
      · split
        · exact List.pairwise_singleton _ _
        · exact List.Pairwise.nil
      · split
        · exact List.pairwise_singleton _ _
        · exact List.Pairwise.nil
      · intro first inFirst second inSecond
        split at inFirst
        · split at inSecond
          · rw [List.mem_singleton.mp inFirst, List.mem_singleton.mp inSecond]
            exact fun same => Direction.noConfusion (congrArg Prod.fst same)
          · cases inSecond
        · cases inFirst
  · refine (List.pairwise_map.mp distinct).imp fun {event other} differs first inFirst second
      inSecond same => differs ?_
    rw [← ofEvent inFirst, ← ofEvent inSecond]
    exact congrArg Prod.snd same

section Sections

variable {backend next : EpollBackend}

theorem processDeferredWaits_nil (none : backend.deferred = []) :
    backend.processDeferredWaits = backend := by
  unfold processDeferredWaits
  rw [none, List.foldl_nil, ← none]

/-- Waits are deferred only while contexts are resumed. -/
theorem Sound.deferred_eq_nil (sound : backend.Sound)
    (other : ∀ toResume, backend.place ≠ .resuming toResume) : backend.deferred = [] := by
  by_contra some
  obtain ⟨toResume, resuming⟩ := sound.deferredPlace some
  exact other toResume resuming

theorem Sound.deferred_waiting (sound : backend.Sound) (place : backend.place = .waiting) :
    backend.deferred = [] :=
  sound.deferred_eq_nil fun _ resuming => by cases place.symm.trans resuming

/-- What the first section does to the records. There are no deferred waits then. -/
theorem collects_collect (sound : backend.Sound) (place : backend.place = .waiting)
    (events : List Event) :
    ∃ collected, Collects backend (events.flatMap (Event.visits backend.wakeFd)) collected ∧
      backend.collect events =
        { collected.backend with place := .collected collected.toResume collected.erases } := by
  refine ⟨_, collects_foldl (collects_nil backend) _, ?_⟩
  unfold collect
  rw [processDeferredWaits_nil (sound.deferred_waiting place)]
  rfl

theorem Sound.collect (sound : backend.Sound) (place : backend.place = .waiting)
    {events : List Event} (distinct : (events.map Event.fd).Nodup) :
    (backend.collect events).Sound := by
  obtain ⟨collected, collects, same⟩ := collects_collect sound place events
  have slots := nodup_visits backend.wakeFd distinct
  rw [same]
  generalize events.flatMap (Event.visits backend.wakeFd) = visits at collects slots
  have none := sound.deferred_waiting place
  have noErases : backend.place.erases = [] := by rw [place]; rfl
  -- What is completed now was recorded and not completed.
  have new {ctx : Ctx} (member : ctx ∈ collected.toResume) :
      ctx ∉ backend.completed ∧ ctx ∈ backend.submitted := by
    rw [collects.toResume] at member
    obtain ⟨visit, _, done⟩ := List.mem_filterMap.mp member
    obtain ⟨op, found, rfl⟩ := completes_eq_some done
    refine ⟨fun before => ?_, sound.known op.ctx (Or.inl ⟨_, _, op, found, rfl⟩)⟩
    have erased := sound.erased _ _ op found before
    rw [noErases] at erased
    cases erased
  have once : collected.toResume.Nodup := by
    rw [collects.toResume]
    refine slots.filterMap _ fun visit other differs ctx done ctx' done' => ?_
    rintro rfl
    obtain ⟨op, found, own⟩ := completes_eq_some done
    obtain ⟨op', found', own'⟩ := completes_eq_some done'
    obtain ⟨direction, fd⟩ := sound.single _ _ op _ _ op' found found' (own.trans own'.symm)
    exact differs (Prod.ext direction fd)
  have resumedDone {ctx : Ctx} (member : ctx ∈ backend.resumed) : ctx ∈ backend.completed :=
    sound.resumedDone ctx (List.mem_append_left _ member)
  have completed : ({ collected.backend with
      place := .collected collected.toResume collected.erases } : EpollBackend).completed =
      backend.completed ++ collected.toResume := collects.completed
  constructor
  · rintro ctx (⟨direction, fd, op, found, own⟩ | ⟨wait, member, _⟩)
    · have found : collected.backend.pending direction fd = some op := found
      rw [collects.pending] at found
      show ctx ∈ collected.backend.submitted
      rw [collects.submitted]
      exact sound.known ctx (Or.inl ⟨direction, fd, op, found, own⟩)
    · have member : wait ∈ collected.backend.deferred := member
      rw [collects.deferred, none] at member
      cases member
  · intro ctx member
    rw [completed] at member
    show ctx ∈ collected.backend.submitted
    rw [collects.submitted]
    obtain former | last := List.mem_append.mp member
    · exact sound.done ctx former
    · exact (new last).2
  · dsimp only
    rw [collects.pending]
    exact sound.single
  · dsimp only
    rw [collects.pending, collects.deferred]
    exact sound.apart
  · dsimp only
    rw [collects.deferred]
    exact sound.deferredOnce
  · dsimp only
    rw [collects.deferred, none]
    nofun
  · dsimp only
    rw [collects.deferred, none]
    exact fun some => absurd rfl some
  · intro direction fd op found member
    have found : collected.backend.pending direction fd = some op := found
    rw [collects.pending] at found
    rw [completed] at member
    obtain former | last := List.mem_append.mp member
    · have erased := sound.erased direction fd op found former
      rw [noErases] at erased
      cases erased
    · rw [collects.toResume] at last
      obtain ⟨visit, visited, done⟩ := List.mem_filterMap.mp last
      obtain ⟨op', found', own⟩ := completes_eq_some done
      obtain ⟨rfl, rfl⟩ := sound.single _ _ op _ _ op' found found' own.symm
      refine collects.erases visit visited ?_
      rw [done]
      exact Option.some_ne_none _
  · rw [completed]
    refine List.nodup_append.mpr ⟨sound.completedOnce, once, ?_⟩
    rintro ctx former _ last rfl
    exact (new last).1 former
  · show (collected.backend.resumed ++ collected.toResume).Nodup
    rw [collects.resumed]
    refine List.nodup_append.mpr ⟨(List.nodup_append.mp sound.resumedOnce).1, once, ?_⟩
    rintro ctx former _ last rfl
    exact (new last).1 (resumedDone former)
  · intro ctx member
    have member : ctx ∈ collected.backend.resumed ++ collected.toResume := member
    rw [collects.resumed] at member
    rw [completed]
    obtain former | last := List.mem_append.mp member
    · exact List.mem_append_left _ (resumedDone former)
    · exact List.mem_append_right _ last

/-- The first section drops nothing. -/
theorem kept_collect (sound : backend.Sound) (kept : backend.Kept)
    (place : backend.place = .waiting) (events : List Event) : (backend.collect events).Kept := by
  obtain ⟨collected, collects, same⟩ := collects_collect sound place events
  rw [same]
  intro ctx member
  have member : ctx ∈ collected.backend.submitted := member
  rw [collects.submitted] at member
  obtain done | ⟨direction, fd, op, found, own⟩ | ⟨wait, waits, own⟩ := kept ctx member
  · refine Or.inl ?_
    show ctx ∈ collected.backend.completed
    rw [collects.completed]
    exact List.mem_append_left _ done
  · refine Or.inr (Or.inl ⟨direction, fd, op, ?_, own⟩)
    show collected.backend.pending direction fd = some op
    rw [collects.pending]
    exact found
  · rw [sound.deferred_waiting place] at waits
    cases waits

/-! ### The other sections -/

/-- The second section leaves no entry that is completed. -/
theorem Sound.erase (sound : backend.Sound) {toResume : List Ctx} {erases : List (Direction × Fd)}
    (place : backend.place = .collected toResume erases) :
    ({ backend.erase erases with place := .resuming toResume } : EpollBackend).Sound := by
  have entry {direction : Direction} {fd : Fd} {op : PendingOp}
      (found : (backend.erase erases).pending direction fd = some op) :
      (direction, fd) ∉ erases ∧ backend.pending direction fd = some op := by
    have found : (if (direction, fd) ∈ erases then none else backend.pending direction fd) =
        some op := found
    split at found
    · cases found
    · rename_i outside
      exact ⟨outside, found⟩
  have none := sound.deferred_eq_nil fun _ resuming => by cases place.symm.trans resuming
  have once := sound.resumedOnce
  have done := sound.resumedDone
  rw [place] at once done
  constructor
  · rintro ctx (⟨direction, fd, op, found, own⟩ | waits)
    · exact sound.known ctx (Or.inl ⟨direction, fd, op, (entry found).2, own⟩)
    · exact sound.known ctx (Or.inr waits)
  · exact sound.done
  · intro direction fd op direction' fd' op' found found'
    exact sound.single direction fd op direction' fd' op' (entry found).2 (entry found').2
  · intro wait member direction fd op found
    exact sound.apart wait member direction fd op (entry found).2
  · exact sound.deferredOnce
  · exact sound.deferredOpen
  · exact fun some => absurd none some
  · intro direction fd op found member
    have erased := sound.erased direction fd op (entry found).2 member
    rw [place] at erased
    exact absurd erased (entry found).1
  · exact sound.completedOnce
  · exact once
  · exact done

theorem touches_erase (sound : backend.Sound) (erases : List (Direction × Fd)) (place : PollPlace) :
    Touches (fun direction fd => (direction, fd) ∈ erases) backend
      { backend.erase erases with place := place } where
  old := fun _ member => member
  new := fun _ member => Or.inl member
  grows := fun _ member => member
  outside := fun _ _ outside => if_neg outside
  gone := fun _ _ _ _ _ member => member
  inside := by
    intro direction fd op here found
    cases (if_pos here).symm.trans found
  moved := fun wait member => Or.inr ⟨wait, member, rfl⟩
  apart := sound.apart

theorem Sound.deregister (sound : backend.Sound) (fd : Fd) : (backend.deregister fd).Sound := by
  have cleared := (sound.setPending_none .read fd).setPending_none .write fd
  have same : SameRecords ((backend.setPending .read fd none).setPending .write fd none)
      (backend.deregister fd) := ⟨rfl, rfl, rfl, rfl, rfl, rfl⟩
  exact same.sound cleared

theorem pending_deregister (backend : EpollBackend) (fd fd' : Fd) (direction : Direction) :
    (backend.deregister fd).pending direction fd' =
      if fd' = fd then none else backend.pending direction fd' := by
  refine (pending_setPending _ _ _ _ _ _).trans ?_
  rw [pending_setPending]
  by_cases same : fd' = fd
  · cases direction
    · rw [if_neg fun both => Direction.noConfusion both.1, if_pos ⟨rfl, same⟩, if_pos same]
    · rw [if_pos ⟨rfl, same⟩, if_pos same]
  · rw [if_neg fun both => same both.2, if_neg fun both => same both.2, if_neg same]

theorem touches_deregister (sound : backend.Sound) (fd : Fd) :
    Touches (fun _ fd' => fd' = fd) backend (backend.deregister fd) where
  old := fun _ member => member
  new := fun _ member => Or.inl member
  grows := fun _ member => member
  outside := fun direction fd' elsewhere =>
    (backend.pending_deregister fd fd' direction).trans (if_neg elsewhere)
  gone := fun _ _ _ _ _ member => member
  inside := by
    intro direction fd' op here found
    cases ((backend.pending_deregister fd fd' direction).trans (if_pos here)).symm.trans found
  moved := fun wait member => Or.inr ⟨wait, member, rfl⟩
  apart := sound.apart

/-- A context is resumed. -/
theorem Sound.resume (sound : backend.Sound) {ctx : Ctx} {toResume : List Ctx}
    (place : backend.place = .resuming (ctx :: toResume)) :
    ({ backend with place := .resuming toResume, resumed := backend.resumed ++ [ctx] } :
      EpollBackend).Sound := by
  have once := sound.resumedOnce
  have done := sound.resumedDone
  have erased := sound.erased
  rw [place] at once done erased
  have same : backend.resumed ++ [ctx] ++ toResume = backend.resumed ++ ctx :: toResume :=
    List.append_cons _ _ _ |>.symm
  refine { sound with
    deferredPlace := fun _ => ⟨toResume, rfl⟩, erased := erased, resumedOnce := ?_,
    resumedDone := ?_ }
  · show (backend.resumed ++ [ctx] ++ toResume).Nodup
    rw [same]
    exact once
  · show ∀ other ∈ backend.resumed ++ [ctx] ++ toResume, other ∈ backend.completed
    rw [same]
    exact done

/-! ### Deferred waits -/

/-- A deferred wait is recorded. -/
def recordWait (backend : EpollBackend) (wait : DeferredWait) : EpollBackend :=
  backend.record wait.fd wait.op

theorem foldl_recordWait_deferred (backend : EpollBackend) (waits deferred : List DeferredWait) :
    waits.foldl recordWait { backend with deferred := deferred } =
      { waits.foldl recordWait backend with deferred := deferred } := by
  induction waits generalizing backend with
  | nil => rfl
  | cons wait waits inductionHypothesis => exact inductionHypothesis (backend.recordWait wait)

theorem sparesWaits_deferred (backend : EpollBackend) (waits deferred : List DeferredWait) :
    SparesWaits { backend with deferred := deferred } waits ↔ SparesWaits backend waits := by
  induction waits generalizing backend with
  | nil => exact Iff.rfl
  | cons wait waits inductionHypothesis =>
    exact and_congr Iff.rfl (inductionHypothesis (backend.recordWait wait))

/-- Nothing is submitted or completed when the deferred waits are recorded. -/
theorem processDeferredWaits_records (backend : EpollBackend) :
    backend.processDeferredWaits.place = backend.place ∧
      backend.processDeferredWaits.submitted = backend.submitted ∧
      backend.processDeferredWaits.completed = backend.completed := by
  have fold (waits : List DeferredWait) (backend : EpollBackend) :
      (waits.foldl recordWait backend).place = backend.place ∧
        (waits.foldl recordWait backend).submitted = backend.submitted ∧
        (waits.foldl recordWait backend).completed = backend.completed := by
    induction waits generalizing backend with
    | nil => exact ⟨rfl, rfl, rfl⟩
    | cons wait waits inductionHypothesis => exact inductionHypothesis (backend.recordWait wait)
  exact fold backend.deferred backend

theorem touches_recordWait (sound : backend.Sound) {wait : DeferredWait}
    {waits : List DeferredWait} (first : backend.deferred = wait :: waits) :
    Touches (fun direction fd => direction = wait.op.type.direction ∧ fd = wait.fd) backend
      (recordWait { backend with deferred := waits } wait) where
  old := fun _ member => member
  new := fun _ member => Or.inl member
  grows := fun _ member => member
  outside := fun _ _ elsewhere => (pending_setPending _ _ _ _ _ _).trans (if_neg elsewhere)
  gone := fun _ _ _ _ _ member => member
  inside := by
    intro direction fd op here found direction' fd' former before
    cases ((pending_setPending _ _ _ _ _ _).trans (if_pos here)).symm.trans found
    exact sound.apart wait (first ▸ List.mem_cons_self) direction' fd' former before
  moved := by
    intro other member
    rw [first] at member
    obtain rfl | later := List.mem_cons.mp member
    · exact Or.inl ⟨_, _, other.op, (pending_setPending _ _ _ _ _ _).trans (if_pos ⟨rfl, rfl⟩), rfl⟩
    · exact Or.inr ⟨other, later, rfl⟩
  apart := fun other later => sound.apart other (first ▸ List.mem_cons_of_mem _ later)

/-- What is kept after a deferred wait was recorded was kept before. -/
theorem kept_of_recordWait {wait : DeferredWait} {waits : List DeferredWait}
    (first : backend.deferred = wait :: waits)
    (kept : (recordWait { backend with deferred := waits } wait).Kept) : backend.Kept := by
  intro ctx member
  obtain done | ⟨direction, fd, op, found, own⟩ | ⟨other, later, own⟩ := kept ctx member
  · exact Or.inl done
  · have found := (pending_setPending _ _ _ _ _ _).symm.trans found
    split at found
    · cases found
      exact Or.inr (Or.inr ⟨wait, first ▸ List.mem_cons_self, own⟩)
    · exact Or.inr (Or.inl ⟨direction, fd, op, found, own⟩)
  · exact Or.inr (Or.inr ⟨other, first ▸ List.mem_cons_of_mem _ later, own⟩)

/-- The deferred waits are recorded, and nothing is dropped if and only if each finds its slot free
in its turn. -/
theorem processDeferredWaits_spec {waits : List DeferredWait} (sound : backend.Sound)
    (deferred : backend.deferred = waits) :
    backend.processDeferredWaits.Sound ∧
      (backend.processDeferredWaits.Kept ↔ backend.Kept ∧ backend.SparesWaits waits) := by
  induction waits generalizing backend with
  | nil =>
    rw [processDeferredWaits_nil deferred]
    exact ⟨sound, (and_iff_left trivial).symm⟩
  | cons wait waits inductionHypothesis =>
    obtain ⟨taken, loose⟩ := sound.undefer deferred
    have loose : ({ backend with deferred := waits } : EpollBackend).Loose wait.op.ctx := loose
    have recorded : (recordWait { backend with deferred := waits } wait).Sound :=
      taken.record loose wait.fd
    have step : backend.processDeferredWaits =
        (recordWait { backend with deferred := waits } wait).processDeferredWaits := by
      have first := foldl_recordWait_deferred (backend.recordWait wait) waits waits
      show { backend.deferred.foldl recordWait backend with deferred := [] } =
        { waits.foldl recordWait { backend.recordWait wait with deferred := waits } with
          deferred := [] }
      rw [deferred, first]
      rfl
    obtain ⟨after, keeps⟩ := inductionHypothesis recorded rfl
    rw [step]
    refine ⟨after, ?_⟩
    have spares : SparesWaits (recordWait { backend with deferred := waits } wait) waits ↔
        SparesWaits (backend.recordWait wait) waits :=
      sparesWaits_deferred (backend.recordWait wait) waits waits
    rw [keeps, spares]
    constructor
    · rintro ⟨kept, rest⟩
      have before := kept_of_recordWait deferred kept
      have spared := ((touches_recordWait sound deferred).kept_iff sound before).mp kept
      exact ⟨before, spared _ _ ⟨rfl, rfl⟩, rest⟩
    · rintro ⟨before, spared, rest⟩
      refine ⟨((touches_recordWait sound deferred).kept_iff sound before).mpr ?_, rest⟩
      rintro direction fd ⟨rfl, rfl⟩
      exact spared

end Sections

/-! ### Runs -/

section Runs

variable {backend next : EpollBackend}

theorem step_submit {submitter : Submitter} {type : OpType} {fd : Fd} {ctx : Ctx}
    {result : KernelResult}
    (taken : backend.step (.submit submitter type fd ctx result) = some next) :
    ctx ∉ backend.submitted ∧
      (backend.inPoll submitter = true → ∃ toResume, backend.place = .resuming toResume) ∧
      Submits backend (backend.inPoll submitter) type fd ctx result next := by
  rw [step] at taken
  split at taken
  · rename_i allowed
    cases taken
    refine ⟨allowed.1, fun polls => ?_, submits_submit ..⟩
    cases submitter with
    | other => cases polls
    | poller =>
      have inside : backend.place ≠ .outside := of_decide_eq_true polls
      have running := allowed.2 rfl
      unfold runs at running
      split at running
      · rename_i outside
        exact absurd outside inside
      · rename_i toResume resuming
        exact ⟨toResume, resuming⟩
      · cases running
  · cases taken

theorem step_collect {events : List Event}
    (taken : backend.step (.collect events) = some next) :
    backend.place = .waiting ∧ (events.map Event.fd).Nodup ∧ next = backend.collect events := by
  rw [step] at taken
  split at taken
  · rename_i allowed
    cases taken
    exact ⟨allowed.1, allowed.2.1, rfl⟩
  · cases taken

theorem step_erase (taken : backend.step .erase = some next) :
    ∃ toResume erases, backend.place = .collected toResume erases ∧
      next = { backend.erase erases with place := .resuming toResume } := by
  rw [step] at taken
  split at taken
  · rename_i toResume erases place
    cases taken
    exact ⟨toResume, erases, place, rfl⟩
  · cases taken

theorem step_resume (taken : backend.step .resume = some next) :
    ∃ ctx toResume, backend.place = .resuming (ctx :: toResume) ∧
      next = { backend with
        place := .resuming toResume, resumed := backend.resumed ++ [ctx] } := by
  rw [step] at taken
  split at taken
  · rename_i ctx toResume place
    cases taken
    exact ⟨ctx, toResume, place, rfl⟩
  · cases taken

theorem step_leave (taken : backend.step .leave = some next) :
    backend.place = .resuming [] ∧
      next = { backend.processDeferredWaits with place := .outside } := by
  rw [step] at taken
  split at taken
  · rename_i place
    cases taken
    exact ⟨place, rfl⟩
  · cases taken

theorem step_enter (taken : backend.step .enter = some next) :
    backend.place = .outside ∧ next = { backend with place := .waiting } := by
  rw [step] at taken
  split at taken
  · rename_i place
    cases taken
    exact ⟨place, rfl⟩
  · cases taken

/-- The polling thread goes from one place to another that has nothing to resume or to erase. -/
theorem Sound.goto (sound : backend.Sound) {place : PollPlace} (none : backend.deferred = [])
    (erases : backend.place.erases = place.erases)
    (toResume : backend.place.toResume = place.toResume) :
    ({ backend with place := place } : EpollBackend).Sound :=
  { sound with
    deferredPlace := fun some => absurd none some
    erased := erases ▸ sound.erased
    resumedOnce := toResume ▸ sound.resumedOnce
    resumedDone := toResume ▸ sound.resumedDone }

theorem Sound.step (sound : backend.Sound) {action : EpollAction}
    (taken : backend.step action = some next) : next.Sound := by
  cases action with
  | register fd =>
    cases taken
    have same : SameRecords backend (backend.register fd) := ⟨rfl, rfl, rfl, rfl, rfl, rfl⟩
    exact same.sound sound
  | deregister fd =>
    cases taken
    exact sound.deregister fd
  | submit submitter type fd ctx result =>
    obtain ⟨fresh, polls, submits⟩ := step_submit taken
    exact sound.submits fresh polls submits
  | enter =>
    obtain ⟨place, rfl⟩ := step_enter taken
    have none := sound.deferred_eq_nil fun _ resuming => by cases place.symm.trans resuming
    exact sound.goto none (by rw [place]; rfl) (by rw [place]; rfl)
  | collect events =>
    obtain ⟨place, distinct, rfl⟩ := step_collect taken
    exact sound.collect place distinct
  | erase =>
    obtain ⟨toResume, erases, place, rfl⟩ := step_erase taken
    exact sound.erase place
  | resume =>
    obtain ⟨ctx, toResume, place, rfl⟩ := step_resume taken
    exact sound.resume place
  | leave =>
    obtain ⟨place, rfl⟩ := step_leave taken
    obtain ⟨after, _⟩ := processDeferredWaits_spec sound rfl
    have stays := backend.processDeferredWaits_records.1
    exact after.goto rfl (by rw [stays, place]; rfl) (by rw [stays, place]; rfl)

/-- One step drops nothing if and only if it spares the operations that are not completed. -/
theorem kept_step_iff (sound : backend.Sound) (kept : backend.Kept) {action : EpollAction}
    (taken : backend.step action = some next) : next.Kept ↔ backend.Spares action := by
  cases action with
  | register fd =>
    cases taken
    exact iff_of_true kept trivial
  | deregister fd =>
    cases taken
    rw [(touches_deregister sound fd).kept_iff sound kept]
    constructor
    · exact fun spared direction => spared direction fd rfl
    · rintro spared direction _ rfl
      exact spared direction
  | submit submitter type fd ctx result =>
    obtain ⟨fresh, _, submits⟩ := step_submit taken
    exact kept_submits_iff sound kept fresh submits
  | enter =>
    obtain ⟨_, rfl⟩ := step_enter taken
    exact iff_of_true kept trivial
  | collect events =>
    obtain ⟨place, _, rfl⟩ := step_collect taken
    exact iff_of_true (kept_collect sound kept place events) trivial
  | erase =>
    obtain ⟨toResume, erases, place, rfl⟩ := step_erase taken
    rw [(touches_erase sound erases _).kept_iff sound kept]
    unfold Spares
    rw [place]
    constructor
    · exact fun spared slot member => spared slot.1 slot.2 member
    · exact fun spared direction fd member => spared (direction, fd) member
  | resume =>
    obtain ⟨ctx, toResume, _, rfl⟩ := step_resume taken
    exact iff_of_true kept trivial
  | leave =>
    obtain ⟨_, rfl⟩ := step_leave taken
    obtain ⟨_, keeps⟩ := processDeferredWaits_spec sound rfl
    exact keeps.trans (and_iff_right kept)

theorem Sound.eachOnce_iff (sound : backend.Sound) : backend.EachOnce ↔ backend.Kept :=
  ⟨EachOnce.kept, fun kept =>
    ⟨sound.completedOnce, (List.nodup_append.mp sound.resumedOnce).1, kept⟩⟩

end Runs

/-- In every run each context is completed at most once and resumed at most once. None is dropped
throughout a run if and only if no step of the run replaces or erases an operation that is not
completed. -/
theorem eachOnce_throughout {wakeFd : Fd} {actions : List EpollAction} {final : EpollBackend}
    (run : after step { wakeFd := wakeFd } actions = some final) :
    final.completed.Nodup ∧ final.resumed.Nodup ∧
      ((∀ front backend, front <+: actions →
          after step { wakeFd := wakeFd } front = some backend → backend.EachOnce) ↔
        Heeds step Spares { wakeFd := wakeFd } actions) := by
  have sound : final.Sound :=
    after_invariant Sound (fun _ _ _ sound taken => sound.step taken) (sound_new wakeFd) run
  refine ⟨sound.completedOnce, (List.nodup_append.mp sound.resumedOnce).1, ?_⟩
  refine forall_front_iff_heeds (fun _ _ _ sound taken => Sound.step sound taken)
    (fun state action next sound eachOnce taken => ?_) (sound_new wakeFd)
    ((sound_new wakeFd).eachOnce_iff.mpr nofun) run
  rw [(Sound.step sound taken).eachOnce_iff]
  exact kept_step_iff sound eachOnce.kept taken

/-- An event for a descriptor that can be read. -/
def readable (fd : Fd) (bytes : Nat) : Event :=
  { fd := fd, epollin := true, epollout := false, epollhup := false, epollerr := false
    readResult := .ok bytes, writeResult := .error 11 }

/-- A read is completed by a poll, and the coroutine reads again when it is resumed. -/
theorem eachOnce_throughout_echo :
    let actions : List EpollAction :=
      [.submit .other .read 5 0 (.error 11), .enter, .collect [readable 5 3], .erase, .resume,
        .submit .poller .read 5 1 (.error 11), .leave]
    (after step {} actions).isSome ∧
      ∀ front backend, front <+: actions → after step {} front = some backend →
        backend.EachOnce := by
  refine ⟨rfl, (eachOnce_throughout rfl).2.2.mpr ⟨Or.inr (Or.inr nofun), fun _ submitted => ?_⟩⟩
  cases submitted
  refine ⟨trivial, fun _ entered => ?_⟩
  cases entered
  refine ⟨trivial, fun _ collected => ?_⟩
  cases collected
  refine ⟨fun slot member op found => ?_, fun _ erased => ?_⟩
  · rw [List.mem_singleton.mp member] at found
    cases found
    decide
  · cases erased
    refine ⟨trivial, fun _ resumed => ?_⟩
    cases resumed
    refine ⟨Or.inr (Or.inr nofun), fun _ again => ?_⟩
    cases again
    exact ⟨trivial, fun _ _ => trivial⟩

/-- A read that is submitted by another thread between the two sections of a poll, after the one
before it was completed: the second section erases it. -/
theorem not_eachOnce_between :
    ∃ backend, after step {}
        [.submit .other .read 5 0 (.error 11), .enter, .collect [readable 5 3],
          .submit .other .read 5 1 (.error 11), .erase] = some backend ∧ ¬ backend.EachOnce := by
  refine ⟨_, rfl, fun eachOnce => ?_⟩
  obtain done | ⟨direction, fd, op, found, own⟩ | ⟨wait, member, _⟩ :=
    eachOnce.kept 1 (List.mem_cons_of_mem _ List.mem_cons_self)
  · exact absurd done (by decide)
  · by_cases here : direction = .read ∧ fd = 5
    · obtain ⟨rfl, rfl⟩ := here
      cases found
    · have outside : (direction, fd) ∉ [(Direction.read, (5 : Fd))] := fun member =>
        here (Prod.mk.inj (List.mem_singleton.mp member))
      have found := (if_neg outside).symm.trans found
      have found :=
        ((pending_setPending _ .read direction 5 fd _).trans (if_neg here)).symm.trans found
      have found :=
        ((pending_setPending _ .read direction 5 fd _).trans (if_neg here)).symm.trans found
      cases found
  · cases member

end EpollBackend

end AsyncNet.Io
