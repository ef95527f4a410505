/-
This file is about a handler or a callback of a timer that throws out of the function that runs the
loop of `io_context`. The function has moved its batch into a container of its own, a queue of
handlers or a vector of callbacks, and the exception destroys that container with what is left in
it. What is in the queue and among the timers of the context is not touched.

So the rest of a batch is lost, and only it: what else was queued is executed by later calls, each
once and in order. The handler or callback that throws does no harm if it is the last of its batch.
-/

import AsyncNet.Io.IoContext
import Mathlib.Data.List.Sort

namespace AsyncNet.Io

open Library

variable {Handler : Type}

/-! ### Exceptions -/

namespace IoContext

/-- The callbacks that a call of `process_timers` has taken and not called. -/
def held (context : IoContext Handler) : List (TimerEntry Handler) :=
  match context.place with
  | some (_, .timers expired) => expired
  | _ => []

end IoContext

/-- The callback of a timer that a step calls. -/
def ContextAction.fired (context : IoContext Handler) :
    ContextAction Handler → List (TimerEntry Handler)
  | .advance .callback => context.held.take 1
  | _ => []

/-- The timer that a step posts. -/
def ContextAction.timed : ContextAction Handler → List (TimerEntry Handler)
  | .postAt deadline callback => [⟨deadline, callback⟩]
  | _ => []

/-- `io_context`, with a record of the timers whose callbacks have been called and of those that
have been posted. -/
structure Recorded (Handler : Type) where
  context : IoContext Handler
  fired : List (TimerEntry Handler) := []
  timed : List (TimerEntry Handler) := []

namespace Recorded

section Steps

variable [DecidableEq Handler]

/-- A step in which nothing is thrown. -/
def step (recorded : Recorded Handler) (action : ContextAction Handler) :
    Option (Recorded Handler) :=
  (recorded.context.step action).map fun next =>
    { context := next
      fired := recorded.fired ++ action.fired recorded.context
      timed := recorded.timed ++ action.timed }

end Steps

/-- The callback or the handler that is called throws, and the exception leaves the function that
runs the loop. The callback has been called, and the handler is recorded when it is called. -/
def throws (recorded : Recorded Handler) : Option (Recorded Handler) :=
  match recorded.context.place with
  | some (_, .timers (entry :: _)) =>
      some { recorded with
        context := { recorded.context with place := none }
        fired := recorded.fired ++ [entry] }
  | some (_, .calling _ _) =>
      some { recorded with context := { recorded.context with place := none } }
  | _ => none

/-- The handlers that are queued beside the one that is called: what is left of its batch, and the
queue. -/
def otherHandlers (recorded : Recorded Handler) : List Handler :=
  recorded.context.batch ++ recorded.context.pending

/-- The timers that are queued beside the one whose callback is called: what has been taken together
with it, and those that have not been taken. -/
def otherTimers (recorded : Recorded Handler) : List (TimerEntry Handler) :=
  recorded.context.held.tail ++ recorded.context.timers

/-! ### What a later call executes -/

/-- The handlers and the timers that were queued at one moment have been executed at a later one,
each once and in order, with what has been posted in between, up to those that are still queued. -/
structure Executes (handlers : List Handler) (timers : List (TimerEntry Handler))
    (start final : Recorded Handler) : Prop where
  handlers : ∃ ran posts,
    final.context.called = start.context.called ++ ran ∧
    final.context.posted = start.context.posted ++ posts ∧
    ran ++ final.context.batch ++ final.context.pending = handlers ++ posts
  timers : ∃ ran posts,
    final.fired = start.fired ++ ran ∧ final.timed = start.timed ++ posts ∧
    (ran ++ final.context.held ++ final.context.timers).Perm (timers ++ posts) ∧
    ∀ front entry back, ran = front ++ entry :: back →
      ∀ timer ∈ timers, timer.deadline < entry.deadline → timer ∈ front

variable [DecidableEq Handler]

/-- Whatever is called later and does not throw executes what was queued, and when the timers have
expired there is a call that executes all of it. -/
structure StillExecuted (handlers : List Handler) (timers : List (TimerEntry Handler))
    (start : Recorded Handler) : Prop where
  kept : ∀ actions final, after step start actions = some final →
    Executes handlers timers start final
  done : ∀ now, (∀ timer ∈ timers, timer.deadline ≤ now) →
    ∃ actions final fired, after step start actions = some final ∧
      final.context.called = start.context.called ++ handlers ∧
      final.fired = start.fired ++ fired ∧ fired.Perm timers

end Recorded

/-! ### What a step does to the queues -/

namespace IoContext

variable [DecidableEq Handler] {context next : IoContext Handler}
  {action : ContextAction Handler}

omit [DecidableEq Handler] in
theorem held_of_place {loop : Loop} {point : Point Handler}
    (place : context.place = some (loop, point)) (other : ∀ expired, point ≠ .timers expired) :
    context.held = [] := by
  rw [held, place]
  cases point with
  | timers expired => exact absurd rfl (other expired)
  | _ => rfl

/-- What a step does to the timers and to the callbacks that have been taken: nothing but append
what is posted, or it calls the first callback, or it takes what has expired. -/
inductive TimerStep (context next : IoContext Handler) (action : ContextAction Handler) : Prop
  | posts (held : next.held = context.held) (timers : next.timers = context.timers ++ action.timed)
      (fired : action.fired context = [])
  | fires (entry : TimerEntry Handler) (held : context.held = entry :: next.held)
      (timers : next.timers = context.timers) (fired : action.fired context = [entry])
      (timed : action.timed = [])
  | takes (now : Nat) (held : context.held = [])
      (expired : next.held.Perm (context.timers.filter (·.deadline ≤ now)))
      (sorted : next.held.Pairwise (·.deadline ≤ ·.deadline))
      (timers : next.timers = context.timers.filter (now < ·.deadline))
      (fired : action.fired context = []) (timed : action.timed = [])

theorem step_timers (taken : context.step action = some next) : TimerStep context next action := by
  have still (held : next.held = context.held) (timers : next.timers = context.timers)
      (fired : action.fired context = []) (timed : action.timed = []) :
      TimerStep context next action := by
    refine .posts held ?_ fired
    rw [timers, timed, List.append_nil]
  cases action with
  | enter loop =>
    rw [step] at taken
    split at taken
    · rename_i outside
      have empty : context.held = [] := by rw [held, outside]
      cases taken
      cases loop <;> exact still empty.symm rfl rfl rfl
    · cases taken
  | advance loopStep =>
    change context.advance loopStep = some next at taken
    unfold IoContext.advance at taken
    split at taken
    · cases taken
    · rename_i loop point place
      split at taken
      · have empty := held_of_place place (by intro expired wrong; cases wrong)
        cases taken
        refine still (Eq.trans ?_ empty.symm) ?_ rfl rfl
        · unfold test
          split
          · rfl
          · cases loop <;> rfl
        · unfold test
          split
          · rfl
          · cases loop <;> rfl
      · have empty := held_of_place place (by intro expired wrong; cases wrong)
        cases taken
        refine still (Eq.trans ?_ empty.symm) rfl rfl rfl
        unfold loadWork
        split <;> rfl
      · have empty := held_of_place place (by intro expired wrong; cases wrong)
        cases taken
        refine still (Eq.trans ?_ empty.symm) rfl rfl rfl
        unfold checkPending
        split <;> rfl
      · have empty := held_of_place place (by intro expired wrong; cases wrong)
        cases taken
        exact still empty.symm rfl rfl rfl
      · rename_i now expired
        have empty := held_of_place place (by intro expired wrong; cases wrong)
        unfold IoContext.processTimers at taken
        split at taken
        · rename_i accepted
          cases taken
          exact .takes now empty accepted.1 accepted.2 rfl rfl rfl
        · cases taken
      · rename_i expired
        have here : context.held = expired := by rw [held, place]
        cases taken
        cases expired with
        | nil =>
          refine still here.symm rfl ?_ rfl
          show context.held.take 1 = []
          rw [here]
          rfl
        | cons entry expired =>
          refine .fires entry here rfl ?_ rfl
          show context.held.take 1 = [entry]
          rw [here]
          rfl
      · have empty := held_of_place place (by intro expired wrong; cases wrong)
        cases taken
        exact still empty.symm rfl rfl rfl
      · rename_i left
        have empty := held_of_place place (by intro expired wrong; cases wrong)
        cases taken
        cases left with
        | nil => cases loop <;> exact still empty.symm rfl rfl rfl
        | cons fn left => exact still empty.symm rfl rfl rfl
      · have empty := held_of_place place (by intro expired wrong; cases wrong)
        cases taken
        exact still empty.symm rfl rfl rfl
      · cases taken
  | postAt deadline callback =>
    cases taken
    exact .posts rfl rfl rfl
  | post _ | makeWork | stop | restart =>
    cases taken
    exact still rfl rfl rfl rfl
  | releaseWork =>
    rw [step] at taken
    split at taken
    · cases taken
    · cases taken
      exact still rfl rfl rfl rfl

end IoContext

/-! ### Runs -/

namespace Recorded

variable [DecidableEq Handler] {start recorded next : Recorded Handler}
  {action : ContextAction Handler}

theorem step_eq_some (taken : recorded.step action = some next) :
    recorded.context.step action = some next.context ∧
      next.fired = recorded.fired ++ action.fired recorded.context ∧
      next.timed = recorded.timed ++ action.timed := by
  obtain ⟨context, moved, rfl⟩ := Option.map_eq_some_iff.mp taken
  exact ⟨moved, rfl, rfl⟩

/-- The callbacks that have been called since the start, and those that have been taken: of the
timers at the start, the ones with an earlier deadline come before a callback. -/
structure TimersRun (timers : List (TimerEntry Handler)) (start final : Recorded Handler)
    (ran posts : List (TimerEntry Handler)) : Prop where
  fired : final.fired = start.fired ++ ran
  timed : final.timed = start.timed ++ posts
  kept : (ran ++ final.context.held ++ final.context.timers).Perm (timers ++ posts)
  inOrder : ∀ front entry back, ran = front ++ entry :: back →
    ∀ timer ∈ timers, timer.deadline < entry.deadline → timer ∈ front
  sorted : final.context.held.Pairwise (·.deadline ≤ ·.deadline)
  earlier : ∀ entry ∈ final.context.held,
    ∀ timer ∈ timers, timer.deadline < entry.deadline → timer ∈ ran ++ final.context.held

theorem TimersRun.step {timers ran posts : List (TimerEntry Handler)}
    (run : TimersRun timers start recorded ran posts)
    (taken : recorded.step action = some next) :
    TimersRun timers start next (ran ++ action.fired recorded.context) (posts ++ action.timed) := by
  obtain ⟨moved, fired, timed⟩ := step_eq_some taken
  have firedToo : next.fired = start.fired ++ (ran ++ action.fired recorded.context) := by
    rw [fired, run.fired, List.append_assoc]
  have timedToo : next.timed = start.timed ++ (posts ++ action.timed) := by
    rw [timed, run.timed, List.append_assoc]
  cases IoContext.step_timers moved with
  | posts held queue none =>
    refine ⟨firedToo, timedToo, ?_, ?_, ?_, ?_⟩
    · rw [held, queue, none, List.append_nil, ← List.append_assoc, ← List.append_assoc]
      exact run.kept.append_right _
    · rw [none, List.append_nil]
      exact run.inOrder
    · rw [held]
      exact run.sorted
    · rw [held, none, List.append_nil]
      exact run.earlier
  | fires entry held queue one unposted =>
    have sorted := run.sorted
    have earlier := run.earlier
    rw [held] at sorted earlier
    refine ⟨firedToo, timedToo, ?_, ?_, (List.pairwise_cons.mp sorted).2, ?_⟩
    · have kept := run.kept
      rw [held] at kept
      rw [one, unposted, queue, List.append_nil, List.append_assoc ran]
      exact kept
    · rw [one]
      intro front last back split timer inside less
      rcases List.eq_nil_or_concat back with rfl | ⟨others, other, rfl⟩
      · obtain ⟨rfl, same⟩ := List.append_inj' split rfl
        cases same
        rcases List.mem_append.mp (earlier entry List.mem_cons_self timer inside less) with
          before | behind
        · exact before
        · rcases List.mem_cons.mp behind with rfl | later
          · exact absurd less (Nat.lt_irrefl _)
          · have le := (List.pairwise_cons.mp sorted).1 timer later
            exact absurd less (Nat.not_lt.mpr le)
      · have whole : ran ++ [entry] = (front ++ last :: others) ++ [other] := by
          rw [split, List.concat_eq_append, List.append_assoc]
          rfl
        exact run.inOrder front last others (List.append_inj' whole rfl).1 timer inside less
    · intro later inside timer inTimers less
      have before := earlier later (List.mem_cons_of_mem _ inside) timer inTimers less
      rw [one, List.append_assoc]
      exact before
  | takes now held expired sorted queue none unposted =>
    have kept := run.kept
    rw [held, List.append_nil] at kept
    have split : (next.context.held ++ next.context.timers).Perm recorded.context.timers := by
      rw [queue]
      refine (expired.append_right _).trans ?_
      have rest : (fun timer : TimerEntry Handler => decide (now < timer.deadline)) =
          fun timer => !decide (timer.deadline ≤ now) := by
        funext timer
        rw [← decide_not]
        exact decide_eq_decide.mpr Nat.not_le.symm
      rw [rest]
      exact List.filter_append_perm _ _
    refine ⟨firedToo, timedToo, ?_, ?_, sorted, ?_⟩
    · rw [none, unposted, List.append_nil, List.append_nil, List.append_assoc]
      exact (split.append_left ran).trans kept
    · rw [none, List.append_nil]
      exact run.inOrder
    · intro entry inside timer inTimers less
      have due : entry.deadline ≤ now :=
        of_decide_eq_true (List.mem_filter.mp (expired.mem_iff.mp inside)).2
      have somewhere : timer ∈ ran ++ recorded.context.timers :=
        kept.mem_iff.mpr (List.mem_append_left _ inTimers)
      rw [none, List.append_nil]
      rcases List.mem_append.mp somewhere with before | queued
      · exact List.mem_append_left _ before
      · refine List.mem_append_right _ (expired.mem_iff.mpr ?_)
        have soon : timer.deadline ≤ now := Nat.le_of_lt (Nat.lt_of_lt_of_le less due)
        exact List.mem_filter.mpr ⟨queued, decide_eq_true soon⟩

/-- The handlers that have been called since the start, and those that have been posted. -/
structure HandlersRun (handlers : List Handler) (start final : Recorded Handler)
    (ran posts : List Handler) : Prop where
  called : final.context.called = start.context.called ++ ran
  posted : final.context.posted = start.context.posted ++ posts
  inOrder : ran ++ final.context.batch ++ final.context.pending = handlers ++ posts

theorem HandlersRun.step {handlers ran posts : List Handler}
    (run : HandlersRun handlers start recorded ran posts)
    (taken : recorded.step action = some next) :
    ∃ more morePosts, HandlersRun handlers start next (ran ++ more) (posts ++ morePosts) := by
  obtain ⟨more, morePosts, called, posted, moved⟩ :=
    IoContext.step_handlers (step_eq_some taken).1
  refine ⟨more, morePosts, ?_, ?_, ?_⟩
  · rw [called, run.called, List.append_assoc]
  · rw [posted, run.posted, List.append_assoc]
  · calc ran ++ more ++ next.context.batch ++ next.context.pending
        = ran ++ (more ++ next.context.batch ++ next.context.pending) := by
          simp only [List.append_assoc]
      _ = ran ++ recorded.context.batch ++ recorded.context.pending ++ morePosts := by
          rw [moved]
          simp only [List.append_assoc]
      _ = handlers ++ (posts ++ morePosts) := by rw [run.inOrder, List.append_assoc]

section Outside

variable (outside : start.context.place = none)

include outside

omit [DecidableEq Handler] in
theorem handlersRun_start : HandlersRun start.context.pending start start [] [] := by
  have noBatch : start.context.batch = [] := by rw [IoContext.batch, outside]
  refine ⟨(List.append_nil _).symm, (List.append_nil _).symm, ?_⟩
  rw [noBatch, List.append_nil, List.append_nil]
  rfl

omit [DecidableEq Handler] in
theorem timersRun_start : TimersRun start.context.timers start start [] [] := by
  have noHeld : start.context.held = [] := by rw [IoContext.held, outside]
  refine ⟨(List.append_nil _).symm, (List.append_nil _).symm, ?_, ?_, ?_, ?_⟩
  · rw [noHeld, List.append_nil, List.append_nil]
    exact List.Perm.refl _
  · intro front entry back split
    exact absurd split (List.append_ne_nil_of_right_ne_nil _ (List.cons_ne_nil _ _)).symm
  · rw [noHeld]
    exact List.Pairwise.nil
  · intro entry inside
    rw [noHeld] at inside
    cases inside

/-- What is called when the loop is not running executes what is queued. -/
theorem executes_after {actions : List (ContextAction Handler)} {final : Recorded Handler}
    (run : after step start actions = some final) :
    Executes start.context.pending start.context.timers start final := by
  obtain ⟨ran, posts, handlers⟩ :=
    after_invariant
      (fun middle => ∃ ran posts, HandlersRun start.context.pending start middle ran posts)
      (fun middle action next holds taken => by
        obtain ⟨ran, posts, before⟩ := holds
        obtain ⟨more, morePosts, later⟩ := before.step taken
        exact ⟨_, _, later⟩)
      ⟨[], [], handlersRun_start outside⟩ run
  obtain ⟨fired, timed, timers⟩ :=
    after_invariant
      (fun middle => ∃ fired timed, TimersRun start.context.timers start middle fired timed)
      (fun middle action next holds taken => by
        obtain ⟨fired, timed, before⟩ := holds
        exact ⟨_, _, before.step taken⟩)
      ⟨[], [], timersRun_start outside⟩ run
  exact ⟨⟨ran, posts, handlers.called, handlers.posted, handlers.inOrder⟩,
    ⟨fired, timed, timers.fired, timers.timed, timers.kept, timers.inOrder⟩⟩

end Outside

/-! ### A call of `poll` -/

theorem exists_step {context : IoContext Handler}
    (moved : recorded.context.step action = some context) :
    ∃ next, recorded.step action = some next ∧ next.context = context ∧
      next.fired = recorded.fired ++ action.fired recorded.context :=
  ⟨_, Option.map_eq_some_iff.mpr ⟨context, moved, rfl⟩, rfl, rfl⟩

theorem exists_callback {expired : List (TimerEntry Handler)}
    (place : recorded.context.place = some (.poll, .timers expired)) :
    ∃ next, recorded.step (.advance .callback) = some next ∧
      next.context = recorded.context.callback .poll expired ∧
      next.fired = recorded.fired ++ expired.take 1 := by
  have held : recorded.context.held = expired := by rw [IoContext.held, place]
  have moved : recorded.context.step (.advance .callback) =
      some (recorded.context.callback .poll expired) := by
    rw [IoContext.step, IoContext.advance, place]
  obtain ⟨next, taken, context, fired⟩ := exists_step moved
  change next.fired = recorded.fired ++ recorded.context.held.take 1 at fired
  rw [held] at fired
  exact ⟨next, taken, context, fired⟩

/-- The callbacks that have been taken are called. -/
theorem after_callbacks (recorded : Recorded Handler) (expired : List (TimerEntry Handler))
    (place : recorded.context.place = some (.poll, .timers expired)) :
    ∃ actions final, after step recorded actions = some final ∧
      final.context.place = some (.poll, .pending) ∧
      final.context.pending = recorded.context.pending ∧
      final.context.called = recorded.context.called ∧
      final.fired = recorded.fired ++ expired := by
  obtain ⟨next, taken, context, fired⟩ := exists_callback place
  induction expired generalizing recorded next with
  | nil =>
    refine ⟨[.advance .callback], next, after_cons.mpr ⟨next, taken, rfl⟩, ?_⟩
    rw [context]
    exact ⟨rfl, rfl, rfl, fired⟩
  | cons entry expired inductionHypothesis =>
    have there : next.context.place = some (.poll, .timers expired) := by
      rw [context]
      rfl
    obtain ⟨later, takenLater, contextLater, firedLater⟩ := exists_callback there
    obtain ⟨actions, final, run, last, pending, called, all⟩ :=
      inductionHypothesis next there later takenLater contextLater firedLater
    refine ⟨.advance .callback :: actions, final, after_cons.mpr ⟨next, taken, run⟩, last, ?_⟩
    rw [pending, called, all, fired, context, List.append_assoc]
    exact ⟨rfl, rfl, rfl⟩

theorem exists_call {batch : List Handler}
    (place : recorded.context.place = some (.poll, .batch batch)) :
    ∃ next, recorded.step (.advance .call) = some next ∧
      next.context = recorded.context.call .poll batch ∧ next.fired = recorded.fired := by
  have moved : recorded.context.step (.advance .call) =
      some (recorded.context.call .poll batch) := by
    rw [IoContext.step, IoContext.advance, place]
  obtain ⟨next, taken, context, fired⟩ := exists_step moved
  exact ⟨next, taken, context, fired.trans (List.append_nil _)⟩

/-- The handlers of the batch are called. -/
theorem after_calls (recorded : Recorded Handler) (batch : List Handler)
    (place : recorded.context.place = some (.poll, .batch batch)) :
    ∃ actions final, after step recorded actions = some final ∧
      final.context.called = recorded.context.called ++ batch ∧
      final.fired = recorded.fired := by
  induction batch generalizing recorded with
  | nil =>
    obtain ⟨next, taken, context, fired⟩ := exists_call place
    refine ⟨[.advance .call], next, after_cons.mpr ⟨next, taken, rfl⟩, ?_, fired⟩
    rw [context, List.append_nil]
    rfl
  | cons fn batch inductionHypothesis =>
    obtain ⟨next, taken, context, fired⟩ := exists_call place
    have there : next.context.place = some (.poll, .calling fn batch) := by
      rw [context]
      rfl
    have moved : next.context.step (.advance .returned) = some
        { next.context with
          handlersExecuted := next.context.handlersExecuted + 1
          place := some (.poll, .batch batch) } := by
      rw [IoContext.step, IoContext.advance, there]
    obtain ⟨later, takenLater, contextLater, firedLater⟩ := exists_step moved
    obtain ⟨actions, final, run, called, all⟩ :=
      inductionHypothesis later (by rw [contextLater])
    refine ⟨.advance .call :: .advance .returned :: actions, final,
      after_cons.mpr ⟨next, taken, after_cons.mpr ⟨later, takenLater, run⟩⟩, ?_, ?_⟩
    · rw [called, contextLater, context]
      exact List.append_assoc recorded.context.called [fn] batch
    · rw [all, firedLater, fired]
      exact List.append_nil _

omit [DecidableEq Handler] in
/-- Timers can be put into the order of their deadlines. -/
theorem exists_sorted (timers : List (TimerEntry Handler)) :
    ∃ sorted : List (TimerEntry Handler), sorted.Perm timers ∧
      sorted.Pairwise (·.deadline ≤ ·.deadline) := by
  let le (first second : TimerEntry Handler) : Bool := first.deadline ≤ second.deadline
  have sorted : (timers.mergeSort le).Pairwise fun first second => le first second = true := by
    refine List.pairwise_mergeSort (fun first second third one two => ?_) (fun first second => ?_) _
    · exact decide_eq_true (Nat.le_trans (of_decide_eq_true one) (of_decide_eq_true two))
    · rcases Nat.le_total first.deadline second.deadline with one | two
      · rw [show le first second = true from decide_eq_true one, Bool.true_or]
      · rw [show le second first = true from decide_eq_true two, Bool.or_true]
  exact ⟨timers.mergeSort le, List.mergeSort_perm .., sorted.imp fun le => of_decide_eq_true le⟩

/-- A call of `poll` at a time at which all timers have expired executes all that is queued. -/
theorem exists_poll (outside : start.context.place = none) (now : Nat)
    (due : ∀ timer ∈ start.context.timers, timer.deadline ≤ now) :
    ∃ actions final fired, after step start actions = some final ∧
      final.context.called = start.context.called ++ start.context.pending ∧
      final.fired = start.fired ++ fired ∧ fired.Perm start.context.timers := by
  obtain ⟨expired, perm, sorted⟩ := exists_sorted start.context.timers
  have accepted : expired.Perm (start.context.timers.filter (·.deadline ≤ now)) := by
    rw [List.filter_eq_self.mpr fun timer inside => decide_eq_true (due timer inside)]
    exact perm
  have entering : start.context.step (.enter .poll) = some (start.context.enter .poll) := by
    rw [IoContext.step, if_pos outside]
  obtain ⟨entered, takenEnter, contextEnter, firedEnter⟩ := exists_step entering
  have polling : entered.context.step (.advance .poll) =
      some { entered.context with place := some (.poll, .clock) } := by
    rw [IoContext.step, IoContext.advance, contextEnter]
    rfl
  obtain ⟨polled, takenPoll, contextPoll, firedPoll⟩ := exists_step polling
  have timersPoll : polled.context.timers = start.context.timers := by
    rw [contextPoll, contextEnter]
    rfl
  have expiring : polled.context.step (.advance (.processTimers now expired)) =
      some { polled.context with
        timers := polled.context.timers.filter (now < ·.deadline)
        place := some (.poll, .timers expired) } := by
    rw [← timersPoll] at accepted
    rw [IoContext.step, IoContext.advance, show polled.context.place = some (.poll, .clock) by
      rw [contextPoll]]
    exact if_pos ⟨accepted, sorted⟩
  obtain ⟨taken, takenTimers, contextTimers, firedTimers⟩ := exists_step expiring
  obtain ⟨callbacks, between, run, there, pending, called, fired⟩ :=
    after_callbacks taken expired (by rw [contextTimers])
  have batching : between.context.step (.advance .executePending) =
      some (between.context.executePending .poll) := by
    rw [IoContext.step, IoContext.advance, there]
  obtain ⟨batched, takenBatch, contextBatch, firedBatch⟩ := exists_step batching
  have inBatch : batched.context.place = some (.poll, .batch between.context.pending) := by
    rw [contextBatch]
    rfl
  obtain ⟨calls, final, runCalls, calledAll, firedAll⟩ :=
    after_calls batched between.context.pending inBatch
  have unchanged : taken.context.pending = start.context.pending ∧
      taken.context.called = start.context.called := by
    rw [contextTimers, contextPoll, contextEnter]
    exact ⟨rfl, rfl⟩
  have unfired : taken.fired = start.fired := by
    rw [firedTimers, firedPoll, firedEnter]
    simp [ContextAction.fired]
  refine ⟨.enter .poll :: .advance .poll :: .advance (.processTimers now expired) ::
    (callbacks ++ .advance .executePending :: calls), final, expired, ?_, ?_, ?_, perm⟩
  · refine after_cons.mpr ⟨entered, takenEnter, after_cons.mpr ⟨polled, takenPoll,
      after_cons.mpr ⟨taken, takenTimers, after_append.mpr ⟨between, run, ?_⟩⟩⟩⟩
    exact after_cons.mpr ⟨batched, takenBatch, runCalls⟩
  · rw [calledAll, contextBatch]
    show between.context.called ++ between.context.pending = _
    rw [called, pending, unchanged.1, unchanged.2]
  · rw [firedAll, firedBatch, fired, unfired]
    exact List.append_nil _

/-! ### What is lost -/

omit [DecidableEq Handler] in
/-- An exception leaves the queue and the timers of the context as they are. -/
theorem throws_eq_some (thrown : recorded.throws = some next) :
    next.context.place = none ∧ next.context.pending = recorded.context.pending ∧
      next.context.timers = recorded.context.timers := by
  unfold throws at thrown
  split at thrown
  · cases thrown
    exact ⟨rfl, rfl, rfl⟩
  · cases thrown
    exact ⟨rfl, rfl, rfl⟩
  · cases thrown

theorem StillExecuted.of_last (thrown : recorded.throws = some next)
    (noBatch : recorded.context.batch = []) (noHeld : recorded.context.held.tail = []) :
    StillExecuted recorded.otherHandlers recorded.otherTimers next := by
  obtain ⟨outside, pending, timers⟩ := throws_eq_some thrown
  have handlers : recorded.otherHandlers = next.context.pending := by
    rw [otherHandlers, noBatch, pending]
    rfl
  have others : recorded.otherTimers = next.context.timers := by
    rw [otherTimers, noHeld, timers]
    rfl
  rw [handlers, others]
  exact ⟨fun actions final run => executes_after outside run,
    fun now due => exists_poll outside now due⟩

/-- What is left of a batch is not executed. -/
theorem StillExecuted.last (thrown : recorded.throws = some next)
    (executed : StillExecuted recorded.otherHandlers recorded.otherTimers next) :
    recorded.context.batch = [] ∧ recorded.context.held.tail = [] := by
  obtain ⟨outside, pending, timers⟩ := throws_eq_some thrown
  have noBatch : next.context.batch = [] := by rw [IoContext.batch, outside]
  have noHeld : next.context.held = [] := by rw [IoContext.held, outside]
  have now := executed.kept [] next rfl
  constructor
  · obtain ⟨ran, posts, called, posted, inOrder⟩ := now.handlers
    have noneRan : ran = [] := List.append_right_eq_self.mp called.symm
    have nonePosted : posts = [] := List.append_right_eq_self.mp posted.symm
    rw [noneRan, nonePosted, noBatch, pending, List.append_nil, List.append_nil] at inOrder
    have others : recorded.context.batch ++ recorded.context.pending = recorded.context.pending :=
      inOrder.symm
    exact List.append_left_eq_self.mp others
  · obtain ⟨ran, posts, fired, timed, kept, -⟩ := now.timers
    have noneRan : ran = [] := List.append_right_eq_self.mp fired.symm
    have nonePosted : posts = [] := List.append_right_eq_self.mp timed.symm
    rw [noneRan, nonePosted, noHeld, timers, List.append_nil] at kept
    have length := kept.length_eq
    rw [otherTimers] at length
    simp only [List.length_append, List.length_nil] at length
    exact List.eq_nil_of_length_eq_zero (by omega)

/-- What was queued beside a handler or a callback that throws is executed by later calls if and
only if it is the last one of its batch. -/
theorem stillExecuted_iff (thrown : recorded.throws = some next) :
    StillExecuted recorded.otherHandlers recorded.otherTimers next ↔
      recorded.context.batch = [] ∧ recorded.context.held.tail = [] := by
  constructor
  · exact fun executed => executed.last thrown
  · rintro ⟨noBatch, noHeld⟩
    exact .of_last thrown noBatch noHeld

/-- Of two handlers, the second was posted when the first had been taken. -/
theorem stillExecuted_iff_posted : StillExecuted [2] []
    { context := { pending := [2], posted := [1, 2], called := [1] } } := by
  have thrown : Recorded.throws
      { context :=
        { pending := [2], place := some (.runOne, .calling 1 []), posted := [1, 2]
          called := [1] } } =
      some { context := { pending := [2], posted := [1, 2], called := [1] } } := rfl
  exact (stillExecuted_iff thrown).mpr ⟨rfl, rfl⟩

/-- Two handlers are posted, and `run_one` comes to the call of the first. -/
def twoHandlers : List (ContextAction Nat) :=
  [.post 1, .post 2, .enter .runOne, .advance .test, .advance .poll,
    .advance (.processTimers 0 []), .advance .callback, .advance .executePending, .advance .call]

/-- The first of two handlers throws: the second one is lost. -/
theorem not_stillExecuted_twoHandlers :
    ∃ recorded next, after step { context := {} } twoHandlers = some recorded ∧
      recorded.throws = some next ∧
      ¬ StillExecuted recorded.otherHandlers recorded.otherTimers next := by
  refine ⟨{ context :=
      { place := some (.runOne, .calling 1 [2]), posted := [1, 2], called := [1] } }, _,
    rfl, rfl, fun executed => ?_⟩
  have last := (executed.last rfl).1
  cases last

end Recorded

end AsyncNet.Io
