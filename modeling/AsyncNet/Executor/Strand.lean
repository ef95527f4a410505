/-
This file models `basic_strand` of `executor/strand.hpp` and proves that it serialises its
handlers. Every section under the mutex is one step, and between the steps any thread may take
its own. The inner executor is any that runs each job it is given once, on any thread.

What carries the proof is that there is one `run` at most, which goes through five phases: there
is none; a call of `post_impl` is about to hand it over; the executor holds it; it is between two
handlers; it calls a handler. The flag `running_` is what keeps a second one from being made.
-/

import AsyncNet.Library.Schedules

namespace AsyncNet.Executor

open Library

variable {Thread Handler : Type}

/-! ### The strand -/

/-- What a thread is in the middle of. -/
inductive Frame (Handler : Type) where
  /-- `post_impl` after its section, where it has found that it has to dispatch. -/
  | dispatching
  /-- `run` before its section. -/
  | looping
  /-- `run` in the call of a handler. -/
  | handling (fn : Handler)
  deriving DecidableEq

/-- `basic_strand`, the jobs of it that the inner executor holds and the frames of the threads, the
latest first. The last two fields record which handlers have been queued and which have returned. -/
structure Strand (Thread Handler : Type) where
  queue : List Handler := []
  running : Bool := false
  jobs : Nat := 0
  frames : List (Thread × Frame Handler) := []
  posted : List Handler := []
  finished : List Handler := []
  deriving DecidableEq

/-- The steps of the threads. -/
inductive Action (Thread Handler : Type) where
  /-- The section of `post_impl`. -/
  | post (thread : Thread) (fn : Handler)
  /-- The call of `inner_->post` by `post_impl`. -/
  | dispatch (thread : Thread)
  /-- The inner executor starts a job on a thread. -/
  | start (thread : Thread)
  /-- The section of `run`. -/
  | take (thread : Thread)
  /-- A handler returns to `run`. -/
  | finish (thread : Thread)

namespace Strand

variable [DecidableEq Thread]

/-- What a thread is doing now. -/
def top (strand : Strand Thread Handler) (thread : Thread) : Option (Frame Handler) :=
  (strand.frames.find? (·.1 = thread)).map (·.2)

def push (strand : Strand Thread Handler) (thread : Thread) (frame : Frame Handler) :
    Strand Thread Handler :=
  { strand with frames := (thread, frame) :: strand.frames }

def pop (strand : Strand Thread Handler) (thread : Thread) : Strand Thread Handler :=
  { strand with frames := strand.frames.eraseP (·.1 = thread) }

/-- A thread runs code of its own: it is outside of the strand or in a handler. -/
def isOutside (strand : Strand Thread Handler) (thread : Thread) : Bool :=
  match strand.top thread with
  | none => true
  | some (.handling _) => true
  | some _ => false

/-- `post_impl`, up to the end of its section. -/
def postImpl (strand : Strand Thread Handler) (thread : Thread) (fn : Handler) :
    Strand Thread Handler :=
  let shouldDispatch := !strand.running
  let strand :=
    { strand with
      queue := strand.queue ++ [fn], running := true, posted := strand.posted ++ [fn] }
  if shouldDispatch then strand.push thread .dispatching else strand

/-- The section of `run`, with the call of the handler it takes or the return. -/
def run (strand : Strand Thread Handler) (thread : Thread) : Strand Thread Handler :=
  match strand.queue with
  | [] => { strand with running := false }.pop thread
  | fn :: queue => { strand with queue := queue }.push thread (.handling fn)

/-- A step of a thread, if it can take it. -/
def step (strand : Strand Thread Handler) :
    Action Thread Handler → Option (Strand Thread Handler)
  | .post thread fn => if strand.isOutside thread then some (strand.postImpl thread fn) else none
  | .dispatch thread =>
      match strand.top thread with
      | some .dispatching => some { strand.pop thread with jobs := strand.jobs + 1 }
      | _ => none
  | .start thread =>
      if strand.isOutside thread ∧ strand.jobs ≠ 0 then
        some { strand.push thread .looping with jobs := strand.jobs - 1 }
      else none
  | .take thread =>
      match strand.top thread with
      | some .looping => some (strand.run thread)
      | _ => none
  | .finish thread =>
      match strand.top thread with
      | some (.handling fn) =>
          some { strand.pop thread with finished := strand.finished ++ [fn] }
      | _ => none

/-! ### What a strand guarantees -/

/-- The calls of `run` that are decided and have not started: a thread is about to hand them to the
inner executor, or it holds them. -/
def pendingRuns (strand : Strand Thread Handler) : Nat :=
  strand.frames.countP (fun frame => frame.2 matches .dispatching) + strand.jobs

/-- The calls of `run` that have started and not returned. -/
def activeRuns (strand : Strand Thread Handler) : Nat :=
  strand.frames.countP fun frame => frame.2 matches .looping

/-- The handlers that are being called. -/
def handling (strand : Strand Thread Handler) : List Handler :=
  strand.frames.filterMap fun frame =>
    match frame.2 with
    | .handling fn => some fn
    | _ => none

/-- There is one `run` at most and one handler at most, the handlers are called in the order in
which they were queued and each once, a handler that waits has a `run` to take it, and without a
`run` every handler has been called. -/
structure Serialised (strand : Strand Thread Handler) : Prop where
  single : strand.pendingRuns + strand.activeRuns ≤ 1
  apart : strand.handling.length ≤ 1
  ordered : strand.finished ++ strand.handling ++ strand.queue = strand.posted
  served : strand.queue ≠ [] → strand.pendingRuns + strand.activeRuns = 1
  settled : strand.pendingRuns + strand.activeRuns = 0 → strand.finished = strand.posted

end Strand

/-! ### Phases -/

/-- Where the one `run` of a strand is. -/
inductive Phase (Thread Handler : Type) where
  | idle
  | dispatching (thread : Thread)
  | pending
  | looping (thread : Thread)
  | handling (thread : Thread) (fn : Handler)

namespace Phase

def frames : Phase Thread Handler → List (Thread × Frame Handler)
  | .idle => []
  | .dispatching thread => [(thread, .dispatching)]
  | .pending => []
  | .looping thread => [(thread, .looping)]
  | .handling thread fn => [(thread, .handling fn), (thread, .looping)]

def jobs : Phase Thread Handler → Nat
  | .pending => 1
  | _ => 0

/-- The handler that is being called. -/
def current : Phase Thread Handler → List Handler
  | .handling _ fn => [fn]
  | _ => []

def isIdle : Phase Thread Handler → Bool
  | .idle => true
  | _ => false

end Phase

/-- The phase of a strand, from what a thread is doing. -/
def Frame.phase (thread : Thread) : Frame Handler → Phase Thread Handler
  | .dispatching => .dispatching thread
  | .looping => .looping thread
  | .handling fn => .handling thread fn

namespace Strand

/-- A strand is in a phase. -/
structure In (strand : Strand Thread Handler) (phase : Phase Thread Handler) : Prop where
  frames : strand.frames = phase.frames
  jobs : strand.jobs = phase.jobs
  running : strand.running = !phase.isIdle
  empty : phase.isIdle → strand.queue = []
  ordered : strand.finished ++ phase.current ++ strand.queue = strand.posted

theorem in_idle : ({} : Strand Thread Handler).In .idle :=
  ⟨rfl, rfl, rfl, fun _ => rfl, rfl⟩

variable {strand : Strand Thread Handler} {phase : Phase Thread Handler}

theorem In.isSerialised (within : strand.In phase) : strand.Serialised := by
  have pending : strand.pendingRuns =
      phase.frames.countP (fun frame => frame.2 matches .dispatching) + phase.jobs := by
    rw [pendingRuns, within.frames, within.jobs]
  have active : strand.activeRuns =
      phase.frames.countP fun frame => frame.2 matches .looping := by
    rw [activeRuns, within.frames]
  have current : strand.handling = phase.current := by
    rw [handling, within.frames]
    cases phase <;> rfl
  have runs : strand.pendingRuns + strand.activeRuns = if phase.isIdle then 0 else 1 := by
    rw [pending, active]
    cases phase <;> rfl
  refine ⟨?_, ?_, ?_, fun waiting => ?_, fun none => ?_⟩
  · rw [runs]
    split <;> decide
  · rw [current]
    cases phase <;> simp [Phase.current]
  · rw [current]
    exact within.ordered
  · rw [runs, if_neg fun idle => waiting (within.empty idle)]
  · have idle : phase.isIdle = true := by
      by_contra busy
      rw [runs, if_neg busy] at none
      cases none
    have ordered := within.ordered
    rw [within.empty idle, List.append_nil] at ordered
    cases phase with
    | idle => rwa [show (Phase.idle : Phase Thread Handler).current = [] from rfl,
        List.append_nil] at ordered
    | _ => cases idle

/-! ### Steps -/

/-- The section of `post_impl` queues the handler, and makes a `run` if there is none. -/
theorem In.postImpl (within : strand.In phase) (thread : Thread) (fn : Handler) :
    ∃ phase, (strand.postImpl thread fn).In phase := by
  have ordered : strand.finished ++ phase.current ++ (strand.queue ++ [fn]) =
      strand.posted ++ [fn] := by
    rw [← List.append_assoc, within.ordered]
  cases idle : phase.isIdle with
  | true =>
    cases phase with
    | idle =>
      refine ⟨.dispatching thread, ?_⟩
      have stopped : strand.running = false := within.running
      rw [Strand.postImpl, stopped]
      exact ⟨congrArg (List.cons _) within.frames, within.jobs, rfl, nofun, ordered⟩
    | _ => cases idle
  | false =>
    refine ⟨phase, ?_⟩
    have runs : strand.running = true := by
      rw [within.running, idle]
      rfl
    rw [Strand.postImpl, runs]
    refine ⟨within.frames, within.jobs, ?_, fun isIdle => ?_, ordered⟩
    · rw [idle]
      rfl
    · rw [idle] at isIdle
      cases isIdle

variable [DecidableEq Thread] {thread : Thread} {next : Strand Thread Handler}

/-- What a thread is doing tells the phase. -/
theorem In.of_top (within : strand.In phase) {frame : Frame Handler}
    (doing : strand.top thread = some frame) : phase = frame.phase thread := by
  obtain ⟨found, first, rfl⟩ := Option.map_eq_some_iff.mp doing
  rw [within.frames] at first
  cases phase with
  | idle | pending => cases first
  | dispatching other | looping other | handling other fn =>
    -- The first frame belongs to the thread of the phase, and so it is the one that is found.
    by_cases same : other = thread
    · subst same
      simp only [Phase.frames, decide_true, List.find?_cons_of_pos, Option.some.injEq] at first
      subst first
      rfl
    · simp [Phase.frames, same] at first

theorem In.pop_frames (within : strand.In phase) (thread : Thread) :
    (strand.pop thread).frames = phase.frames.eraseP (·.1 = thread) := by
  rw [pop, within.frames]

/-- The section of `run` takes the first handler, or returns and leaves no `run`. -/
theorem In.run (within : strand.In (.looping thread)) : ∃ phase, (strand.run thread).In phase := by
  have ordered := within.ordered
  rw [Strand.run]
  cases waiting : strand.queue with
  | nil =>
    rw [waiting] at ordered
    refine ⟨.idle, ?_, within.jobs, rfl, fun _ => rfl, ordered⟩
    show strand.frames.eraseP _ = []
    rw [within.frames]
    simp [Phase.frames]
  | cons fn queue =>
    rw [waiting] at ordered
    refine ⟨.handling thread fn, congrArg (List.cons _) within.frames, within.jobs, within.running,
      nofun, ?_⟩
    show strand.finished ++ [fn] ++ queue = strand.posted
    rw [← ordered, List.append_assoc, List.append_assoc]
    rfl

/-- Every step leads from a phase to a phase. -/
theorem In.step (within : strand.In phase) {action : Action Thread Handler}
    (taken : strand.step action = some next) : ∃ phase, next.In phase := by
  cases action with
  | post thread fn =>
    rw [Strand.step] at taken
    split at taken
    · cases taken
      exact within.postImpl thread fn
    · cases taken
  | dispatch thread =>
    rw [Strand.step] at taken
    split at taken
    · rename_i doing
      cases taken
      obtain rfl := within.of_top doing
      refine ⟨.pending, ?_, congrArg (· + 1) within.jobs, within.running, nofun, within.ordered⟩
      rw [within.pop_frames]
      simp [Phase.frames, Frame.phase]
    · cases taken
  | start thread =>
    rw [Strand.step] at taken
    split at taken
    · rename_i enabled
      cases taken
      have held := within.jobs
      cases phase with
      | pending =>
        refine ⟨.looping thread, congrArg (List.cons _) within.frames, ?_, within.running, nofun,
          within.ordered⟩
        show strand.jobs - 1 = 0
        rw [held]
        rfl
      | idle | dispatching _ | looping _ | handling _ _ => exact absurd held enabled.2
    · cases taken
  | take thread =>
    rw [Strand.step] at taken
    split at taken
    · rename_i doing
      cases taken
      obtain rfl := within.of_top doing
      exact within.run
    · cases taken
  | finish thread =>
    rw [Strand.step] at taken
    split at taken
    · rename_i fn doing
      cases taken
      obtain rfl := within.of_top doing
      refine ⟨.looping thread, ?_, within.jobs, within.running, nofun, ?_⟩
      · rw [within.pop_frames]
        simp [Phase.frames, Frame.phase]
      · show strand.finished ++ [fn] ++ [] ++ strand.queue = strand.posted
        rw [List.append_nil]
        exact within.ordered
    · cases taken

end Strand

end AsyncNet.Executor
