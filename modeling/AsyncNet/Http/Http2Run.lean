/-
This file is about runs of a session frame by frame: the owner makes calls and the
peer's frames are received while the session is alive. Whatever a session that is fed
bytes comes to, such a run comes to.
-/

import AsyncNet.Http.Http2Segmentation

namespace AsyncNet.Http

open Library H2

namespace Session

/-! ### Runs -/

/-- The owner acts on a session or a frame arrives. -/
inductive Action where
  | receive (f : Frame)
  | op (op : Op)

/-- A dead session ignores frames. -/
def act (session : Session) : Action → Except Fault Session
  | .receive f => if session.connection.alive then session.process f else .ok session
  | .op op => .ok (session.op op)

/-- The two sessions differ at most in their readers and in the flag of the preface. -/
def SameState (left right : Session) : Prop :=
  left.config = right.config ∧ left.connection = right.connection

theorem process_sameState (left right next : Session) (f : Frame) (same : SameState left right)
    (processed : left.process f = .ok next) :
    ∃ next', right.process f = .ok next' ∧ SameState next next' := by
  obtain ⟨connection, run, rfl⟩ := map_ok processed
  rw [same.1, same.2] at run
  refine ⟨{ right with connection }, ?_, same.1, rfl⟩
  rw [process, run]
  rfl

theorem op_sameState (left right : Session) (op : Op) (same : SameState left right) :
    SameState (left.op op) (right.op op) := by
  obtain ⟨config, connection⟩ := same
  cases op <;> simp [SameState, Session.op, config, connection]

/-- The frames that are received are as short as the length in a frame header can say. -/
def Short (actions : List Action) : Prop :=
  ∀ f, .receive f ∈ actions → f.payload.length < 2 ^ 24

theorem short_append {actions more : List Action} (left : Short actions) (right : Short more) :
    Short (actions ++ more) :=
  fun f member => (List.mem_append.mp member).elim (left f) (right f)

/-- A byte that is fed completes a frame or leaves all but the reader alone. -/
theorem feedByte_acts (session twin next : Session) (byte : UInt8) (same : SameState session twin)
    (drained : session.Drained) (short : session.reader.Short)
    (fed : session.feedByte byte = .ok next) :
    ∃ (actions : List Action) (next' : Session), actions.foldlM act twin = .ok next' ∧
      Short actions ∧ SameState next next' ∧ next.reader.Short := by
  unfold feedByte at fed
  split at fed
  · cases fed
    exact ⟨[], twin, rfl, nofun, same, short⟩
  · rename_i alive
    have pushed := session.reader.short_push byte
      (drained (Bool.eq_true_of_not_eq_false alive)) short
    by_cases frame : (session.reader.push byte).hasFrame = true
    · rw [drain_of_hasFrame { session with reader := session.reader.push byte } frame] at fed
      have taken : SameState
          { session with reader := (session.reader.push byte).takeFrame.2 } twin := same
      obtain ⟨next', processed, same'⟩ := process_sameState _ twin next _ taken fed
      refine ⟨[.receive (session.reader.push byte).takeFrame.1], next', ?_, ?_, same', ?_⟩
      · have twinAlive : twin.connection.alive = true := by
          rw [← same.2]
          exact Bool.eq_true_of_not_eq_false alive
        rw [List.foldlM_cons, act, if_pos twinAlive, processed]
        rfl
      · intro f member
        cases List.mem_singleton.mp member
        exact pushed.1
      · rw [process_reader _ next _ fed]
        exact FrameReader.short_takeFrame _
    · rw [drain, if_neg frame] at fed
      cases fed
      exact ⟨[], twin, rfl, nofun, same, pushed⟩

theorem foldlM_feedByte_acts (data : Bytes) (session twin next : Session)
    (same : SameState session twin) (drained : session.Drained) (short : session.reader.Short)
    (fed : data.foldlM feedByte session = .ok next) :
    ∃ (actions : List Action) (next' : Session), actions.foldlM act twin = .ok next' ∧
      Short actions ∧ SameState next next' ∧ next.reader.Short := by
  induction data generalizing session twin with
  | nil =>
    cases fed
    exact ⟨[], twin, rfl, nofun, same, short⟩
  | cons byte data inductionHypothesis =>
    rw [List.foldlM_cons] at fed
    obtain ⟨middle, first, later⟩ := bind_ok fed
    obtain ⟨actions, middle', run, frames, same', short'⟩ :=
      feedByte_acts session twin middle byte same drained short first
    obtain ⟨actions', next', run', frames', same'', short''⟩ :=
      inductionHypothesis middle middle' same' (feedByte_drained session middle byte drained first)
        short' later
    refine ⟨actions ++ actions', next', ?_, short_append frames frames', same'', short''⟩
    rw [List.foldlM_append, run]
    exact run'

/-- Every reachable session is what a run frame by frame comes to, and its frames are short. -/
theorem reachable_acts (session : Session) (reachable : Reachable session) :
    ∃ (mode : Mode) (actions : List Action) (final : Session),
      actions.foldlM act (create mode) = .ok final ∧ Short actions ∧ SameState session final ∧
        session.reader.Short := by
  induction reachable with
  | create mode =>
    exact ⟨mode, [], create mode, rfl, nofun, ⟨rfl, rfl⟩, Nat.two_pow_pos 24, nofun⟩
  | @op session before op inductionHypothesis =>
    obtain ⟨mode, actions, final, run, frames, same, short⟩ := inductionHypothesis
    refine ⟨mode, actions ++ [.op op], final.op op, ?_, ?_, op_sameState session final op same, ?_⟩
    · rw [List.foldlM_append, run]
      rfl
    · refine short_append frames fun f member => ?_
      cases List.mem_singleton.mp member
    · rw [op_reader]
      exact short
  | @feed session next before data fed inductionHypothesis =>
    obtain ⟨mode, actions, final, run, frames, same, short⟩ := inductionHypothesis
    have drained := reachable_drained session before
    rw [feed_eq_foldlM session data drained] at fed
    split at fed
    · cases fed
      exact ⟨mode, actions, final, run, frames, same, short⟩
    · obtain ⟨actions', final', run', frames', same', short'⟩ :=
        foldlM_feedByte_acts data session.sawPreface final next same drained short fed
      refine ⟨mode, actions ++ actions', final', ?_, short_append frames frames', same', short'⟩
      rw [List.foldlM_append, run]
      exact run'

/-! ### What an action leaves alone -/

/-- What the owner does leaves alone what frames build up. -/
structure Undisturbed (before after : Session) : Prop where
  mode : after.config.mode = before.config.mode
  events : after.connection.events = before.connection.events
  continuationStream :
    after.connection.continuationStream = before.connection.continuationStream
  core : ∀ sid, (after.connection.stream sid).core = (before.connection.stream sid).core
  present : ∀ sid, (before.connection.streams sid).isSome = true →
    (after.connection.streams sid).isSome = true

theorem op_undisturbed (session : Session) (op : Op) : Undisturbed session (session.op op) := by
  cases op with
  | call command =>
    have quiet := Connection.quiet_command session.connection command
    exact ⟨rfl, quiet.events, quiet.continuationStream, quiet.core, quiet.present⟩
  | _ => exact ⟨rfl, rfl, rfl, fun _ => rfl, fun _ present => present⟩

theorem process_mode (session next : Session) (f : Frame)
    (processed : session.process f = .ok next) :
    next.config.mode = session.config.mode := by
  obtain ⟨connection, _, rfl⟩ := map_ok processed
  rfl

theorem act_mode (session next : Session) (action : Action)
    (acted : session.act action = .ok next) :
    next.config.mode = session.config.mode := by
  cases action with
  | receive f =>
    rw [act] at acted
    split at acted
    · exact process_mode session next f acted
    · cases acted
      rfl
  | op op =>
    cases acted
    exact (op_undisturbed session op).mode

end Session

end AsyncNet.Http
