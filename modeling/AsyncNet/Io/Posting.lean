/-
This file proves what `io_context` promises to those who post to it. The handlers are called in the
order in which they were posted, each once, whatever the threads do between the steps of the loop.
And `run_until_complete` gives up only when it has read a work count of zero and then, before any
other step of its own, has seen an empty queue, at which moment every handler has been called.
-/

import AsyncNet.Io.IoContext

namespace AsyncNet.Io.IoContext

open Library

variable {Handler : Type}

/-! ### What is promised -/

/-- What has been called, what is left of the batch and what is queued are what has been posted. -/
def InOrder (context : IoContext Handler) : Prop :=
  context.called ++ context.batch ++ context.pending = context.posted

/-- The step from one state to the next ends `run_until_complete`. -/
def Returns (context next : IoContext Handler) : Prop :=
  (∃ point, context.place = some (.runUntilComplete, point)) ∧ next.place = none

/-- A step of another thread than the one of the loop. -/
def Foreign : ContextAction Handler → Prop
  | .enter _ => False
  | .advance _ => False
  | _ => True

/-- The last step of the loop in a schedule was the load of a work count of zero. -/
def ReadZero [DecidableEq Handler] (actions : List (ContextAction Handler)) : Prop :=
  ∃ earlier between read, actions = earlier ++ .advance .loadWork :: between ∧
    (∀ action ∈ between, Foreign action) ∧ after step {} earlier = some read ∧ read.workCount = 0

/-! ### The order of the calls -/

variable {context next : IoContext Handler}

theorem inOrder_new : ({} : IoContext Handler).InOrder := rfl

variable [DecidableEq Handler]

/-- What a step takes from the queue or the batch goes on in order. -/
theorem InOrder.step (ordered : context.InOrder) {action : ContextAction Handler}
    (taken : context.step action = some next) : next.InOrder := by
  obtain ⟨ran, posts, called, posted, moved⟩ := step_handlers taken
  have before : context.called ++ context.batch ++ context.pending = context.posted := ordered
  calc next.called ++ next.batch ++ next.pending
      = context.called ++ (ran ++ next.batch ++ next.pending) := by
        rw [called]
        simp only [List.append_assoc]
    _ = context.called ++ context.batch ++ context.pending ++ posts := by
        rw [moved]
        simp only [List.append_assoc]
    _ = next.posted := by rw [before, posted]

/-! ### The end of `run_until_complete` -/

omit [DecidableEq Handler] in
theorem not_returns_of_place (same : next.place = context.place) : ¬ context.Returns next := by
  rintro ⟨⟨point, inside⟩, outside⟩
  rw [same, inside] at outside
  cases outside

/-- Only two steps end `run_until_complete`. -/
theorem Returns.cases (returns : context.Returns next) {action : ContextAction Handler}
    (taken : context.step action = some next) :
    context.stopped = true ∨
      context.place = some (.runUntilComplete, .queue) ∧ context.pending = [] := by
  obtain ⟨⟨point, inside⟩, outside⟩ := returns
  cases action with
  | enter loop =>
    rw [IoContext.step, inside] at taken
    cases taken
  | advance loopStep =>
    have taken : context.advance loopStep = some next := taken
    unfold IoContext.advance at taken
    rw [inside] at taken
    dsimp only at taken
    split at taken
    · left
      by_contra running
      rw [test, if_neg running] at taken
      cases taken
      cases outside
    · cases taken
      cases outside
    · cases taken
      right
      refine ⟨inside, ?_⟩
      by_contra some
      rw [checkPending, if_neg some] at outside
      cases outside
    · cases taken
      cases outside
    · unfold IoContext.processTimers at taken
      split at taken
      · cases taken
        cases outside
      · cases taken
    · cases taken
      rename_i expired
      cases expired <;> cases outside
    · cases taken
      cases outside
    · cases taken
      rename_i left
      cases left <;> cases outside
    · cases taken
      cases outside
    · cases taken
  | post _ | postAt _ _ | makeWork | stop | restart =>
    cases taken
    exact absurd ⟨⟨point, inside⟩, outside⟩ (not_returns_of_place rfl)
  | releaseWork =>
    rw [IoContext.step] at taken
    split at taken
    · cases taken
    · cases taken
      exact absurd ⟨⟨point, inside⟩, outside⟩ (not_returns_of_place rfl)

/-- The loop sets neither the flag nor the work count, and it comes to look at the queue from a work
count of zero. -/
theorem advance_spec {loopStep : LoopStep Handler} (taken : context.advance loopStep = some next) :
    next.stopped = context.stopped ∧ next.workCount = context.workCount ∧
      ∀ loop, next.place = some (loop, .queue) → loopStep = .loadWork ∧ context.workCount = 0 := by
  unfold IoContext.advance at taken
  split at taken
  · cases taken
  · rename_i loop point place
    split at taken
    · cases taken
      unfold test
      split
      · exact ⟨rfl, rfl, nofun⟩
      · cases loop <;> exact ⟨rfl, rfl, nofun⟩
    · cases taken
      unfold loadWork
      split
      · rename_i zero
        exact ⟨rfl, rfl, fun _ _ => ⟨rfl, zero⟩⟩
      · exact ⟨rfl, rfl, nofun⟩
    · cases taken
      unfold checkPending
      split
      · exact ⟨rfl, rfl, nofun⟩
      · exact ⟨rfl, rfl, nofun⟩
    · cases taken
      exact ⟨rfl, rfl, nofun⟩
    · unfold IoContext.processTimers at taken
      split at taken
      · cases taken
        exact ⟨rfl, rfl, nofun⟩
      · cases taken
    · cases taken
      rename_i expired
      cases expired <;> exact ⟨rfl, rfl, nofun⟩
    · cases taken
      exact ⟨rfl, rfl, nofun⟩
    · cases taken
      rename_i left
      cases left with
      | nil => cases loop <;> exact ⟨rfl, rfl, nofun⟩
      | cons fn left => exact ⟨rfl, rfl, nofun⟩
    · cases taken
      exact ⟨rfl, rfl, nofun⟩
    · cases taken

/-- A pass in which `run_until_complete` is left: no work is counted and nothing is queued. -/
theorem leaves (top : context.place = some (.runUntilComplete, .top))
    (running : context.stopped = false) (free : context.workCount = 0)
    (empty : context.pending = []) :
    after step context [.advance .test, .advance .loadWork, .advance .checkPending] =
      some { context with place := none } := by
  have tested : context.step (.advance .test) =
      some { context with place := some (.runUntilComplete, .work) } := by
    show context.advance .test = _
    unfold IoContext.advance test
    rw [top, running]
    rfl
  have loaded : IoContext.step { context with place := some (.runUntilComplete, .work) }
      (.advance .loadWork) = some { context with place := some (.runUntilComplete, .queue) } := by
    show some (loadWork _ _) = _
    unfold loadWork
    rw [if_pos free]
  have checked : IoContext.step { context with place := some (.runUntilComplete, .queue) }
      (.advance .checkPending) = some { context with place := none } := by
    show some (checkPending _ _) = _
    unfold checkPending
    rw [if_pos empty]
  exact after_cons.mpr ⟨_, tested, after_cons.mpr ⟨_, loaded, after_cons.mpr ⟨_, checked, rfl⟩⟩⟩

/-- The flag is set by `stop` only. -/
theorem stopped_of_step {action : ContextAction Handler} (taken : context.step action = some next)
    (stopped : next.stopped = true) : context.stopped = true ∨ action = .stop := by
  cases action with
  | enter loop =>
    rw [IoContext.step] at taken
    split at taken
    · cases taken
      left
      cases loop <;> exact stopped
    · cases taken
  | advance loopStep => exact Or.inl ((advance_spec taken).1.symm.trans stopped)
  | post _ | postAt _ _ | makeWork =>
    cases taken
    exact Or.inl stopped
  | releaseWork =>
    rw [IoContext.step] at taken
    split at taken
    · cases taken
    · cases taken
      exact Or.inl stopped
  | stop => exact Or.inr rfl
  | restart =>
    cases taken
    cases stopped

theorem stop_of_stopped {actions : List (ContextAction Handler)}
    (run : after step {} actions = some context) (stopped : context.stopped = true) :
    .stop ∈ actions := by
  refine after_history (fun actions (context : IoContext Handler) =>
    context.stopped = true → .stop ∈ actions) (fun set => Bool.noConfusion set) ?_ run stopped
  intro actions middle action next _ earlier taken stopped
  obtain before | rfl := stopped_of_step taken stopped
  · exact List.mem_append_left _ (earlier before)
  · exact List.mem_append_right _ (List.mem_singleton.mpr rfl)

/-- The loop comes to look at the queue by a load, and stays there while others take their steps. -/
theorem queue_of_step {action : ContextAction Handler} (taken : context.step action = some next)
    {loop : Loop} (here : next.place = some (loop, .queue)) :
    (action = .advance .loadWork ∧ context.workCount = 0) ∨
      (Foreign action ∧ context.place = some (loop, .queue)) := by
  cases action with
  | enter loop =>
    rw [IoContext.step] at taken
    split at taken
    · cases taken
      cases loop <;> cases here
    · cases taken
  | advance loopStep =>
    obtain ⟨rfl, zero⟩ := (advance_spec taken).2.2 loop here
    exact Or.inl ⟨rfl, zero⟩
  | post _ | postAt _ _ | makeWork | stop | restart =>
    cases taken
    exact Or.inr ⟨trivial, here⟩
  | releaseWork =>
    rw [IoContext.step] at taken
    split at taken
    · cases taken
    · cases taken
      exact Or.inr ⟨trivial, here⟩

/-- The queue is looked at after a work count of zero has been read. -/
theorem readZero_of_queue {actions : List (ContextAction Handler)}
    (run : after step {} actions = some context) {loop : Loop}
    (here : context.place = some (loop, .queue)) : ReadZero actions := by
  refine after_history (fun actions (context : IoContext Handler) =>
    context.place = some (loop, .queue) → ReadZero actions) (fun inside => ?_) ?_ run here
  · cases inside
  intro actions middle action next front earlier taken here
  obtain ⟨rfl, zero⟩ | ⟨foreign, before⟩ := queue_of_step taken here
  · exact ⟨actions, [], middle, rfl, nofun, front, zero⟩
  · obtain ⟨first, between, read, rfl, others, reached, zero⟩ := earlier before
    refine ⟨first, between ++ [action], read, ?_, fun other member => ?_, reached, zero⟩
    · rw [List.append_assoc, List.cons_append]
    · obtain old | new := List.mem_append.mp member
      · exact others other old
      · rw [List.mem_singleton.mp new]
        exact foreign

end AsyncNet.Io.IoContext
