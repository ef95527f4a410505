/-
This file puts together what a frame can do to a connection: it is handled at once, it
begins a header block that waits for more, it is refused because a header block is
awaited, it adds to that block or it completes it. Invariants of a session are derived
from these five cases. The first of them is that no stream keeps a header block but the
one that CONTINUATION frames are expected for.
-/

import AsyncNet.Http.Http2Handlers
import AsyncNet.Http.Http2Run

namespace AsyncNet.Http

open Library H2

namespace Connection

/-! ### The five cases -/

/-- Whether a frame can have the request of its stream dispatched: it ends the stream and no
streaming handler has taken it. -/
def endsRequest (connection : Connection) (f : Frame) : Bool :=
  match f.hdr.type with
  | .data =>
      f.hdr.hasFlag Flag.endStream &&
        (connection.streams f.hdr.streamId).any fun state => !state.streamingHandled
  | .headers =>
      f.hdr.hasFlag Flag.endStream &&
        !connection.streamingTrailers f.hdr.streamId (f.hdr.hasFlag Flag.endStream)
  | _ => false

/-- What a frame can do to a connection. -/
inductive FrameStep (config : Config) (connection : Connection) (f : Frame) (next : Connection) :
    Prop
  | handled (blocks : List Bytes) (dispatched : List Nat)
      (idle : connection.continuationStream = 0)
      (may : config.mode = .server →
        MayDispatch f.hdr.streamId (connection.endsRequest f) dispatched)
      (advances : Advances blocks dispatched (endedBy f) (connection.record (.frame f)) next)
  | begins (block : Bytes) (idle : connection.continuationStream = 0)
      (type : f.hdr.type = .headers) (nonzero : f.hdr.streamId ≠ 0)
      (incomplete : f.hdr.hasFlag Flag.endHeaders = false)
      (notTrailers : config.mode = .server →
        connection.streamingTrailers f.hdr.streamId (f.hdr.hasFlag Flag.endStream) = false)
      (pends : Pends block f.hdr.streamId (endedBy f) (connection.record (.frame f)) next)
  | refused (waiting : connection.continuationStream ≠ 0)
      (advances : Advances [] [] (fun _ => False) (connection.record (.frame f)) next)
  | continues (block : Bytes) (waiting : connection.continuationStream ≠ 0)
      (pends : Pends block connection.continuationStream (fun _ => False)
        (connection.record (.frame f)) next)
  | completes (blocks : List Bytes) (dispatched : List Nat)
      (waiting : connection.continuationStream ≠ 0)
      (may : MayDispatch connection.continuationStream
        (connection.stream connection.continuationStream).endStream dispatched)
      (advances : Advances blocks dispatched
        (fun sid => sid = connection.continuationStream ∧ (connection.stream sid).endStream = true)
        ((connection.record (.frame f)).blockTaken connection.continuationStream) next)

section Step

variable (config : Config) (connection : Connection) (f : Frame) (next : Connection)

theorem step_waiting (waiting : connection.continuationStream ≠ 0)
    (processed : connection.processFrame config f = .ok next) :
    FrameStep config connection f next := by
  rw [processFrame, if_pos (by exact waiting)] at processed
  split at processed
  · cases processed
    exact .refused waiting (advances_goaway _ _ _ _)
  · rename_i expected
    have sid := not_not.mp (not_or.mp expected).2
    change f.hdr.streamId = connection.continuationStream at sid
    cases found : connection.streams f.hdr.streamId with
    | none =>
      unfold handleContinuation at processed
      dsimp only at processed
      rw [streams_record, found] at processed
      cases processed
      exact .refused waiting (advances_goaway _ _ _ _)
    | some state =>
      have stream := stream_of_some connection f.hdr.streamId found
      obtain ⟨_, dispatched, may, advances⟩ | ⟨_, pends⟩ :=
        handleContinuation_cases config (connection.record (.frame f)) f next state found sid.symm
          processed
      · rw [sid] at stream may advances
        subst stream
        refine .completes _ dispatched waiting may { advances with ended := ?_ }
        intro other ended
        exact (advances.ended other ended).imp_right fun ⟨same, isEnd⟩ => ⟨same, same ▸ isEnd⟩
      · rw [sid] at pends
        exact .continues _ waiting pends

/-- HEADERS that arrive while no header block is awaited. -/
theorem step_headers (idle : connection.continuationStream = 0) (type : f.hdr.type = .headers)
    (handled : (connection.record (.frame f)).handleHeaders config f = .ok next) :
    FrameStep config connection f next := by
  have ended : f.hdr.hasFlag Flag.endStream = true → endedBy f f.hdr.streamId :=
    fun isEnd => ⟨rfl, isEnd⟩
  rw [handleHeaders] at handled
  split at handled
  · cases handled
    exact .handled [] [] idle (fun _ => Or.inl rfl) (advances_goaway _ _ _ _)
  · rename_i nonzero
    split at handled
    · cases handled
      exact .handled [] [] idle (fun _ => Or.inl rfl) (advances_goaway _ _ _ _)
    · rename_i block _
      split at handled
      · obtain ⟨_, advances⟩ | ⟨notTrailers, _, dispatched, may, advances⟩ |
            ⟨notTrailers, incomplete, pends⟩ :=
          handleRequestHeaders_cases config _ (endedBy f) _ block _ _ next ended handled
        · exact .handled [] [] idle (fun _ => Or.inl rfl) advances
        · refine .handled [block] dispatched idle (fun _ => may.imp_right fun ⟨isEnd, same⟩ => ?_)
            advances
          change connection.streamingTrailers _ _ = false at notTrailers
          refine ⟨?_, same⟩
          rw [endsRequest, type]
          dsimp only
          rw [notTrailers, isEnd]
          rfl
        · exact .begins block idle type nonzero incomplete (fun _ => notTrailers) pends
      · rename_i client
        have notServer : config.mode ≠ .server := by
          rw [client]
          decide
        obtain ⟨_, advances⟩ | ⟨_, _, _, advances⟩ | ⟨_, _, incomplete, pends⟩ :=
          handleResponseHeaders_cases _ (endedBy f) _ block _ _ next ended handled
        · exact .handled [] [] idle (fun _ => Or.inl rfl) advances
        · exact .handled [block] [] idle (fun _ => Or.inl rfl) advances
        · exact .begins block idle type nonzero incomplete (absurd · notServer) pends

/-- A frame does one of the five. -/
theorem processFrame_step (processed : connection.processFrame config f = .ok next) :
    FrameStep config connection f next := by
  by_cases idle : connection.continuationStream = 0
  · have silent {connection' : Connection}
        (advances : Advances [] [] (endedBy f) (connection.record (.frame f)) connection') :
        FrameStep config connection f connection' :=
      .handled [] [] idle (fun _ => Or.inl rfl) advances
    have unchanged := (Quiet.refl (connection.record (.frame f))).advances (endedBy f)
    rw [processFrame, if_neg (by exact not_not.mpr idle)] at processed
    split at processed
    case h_1 type =>
      cases processed
      obtain ⟨dispatched, may, advances⟩ :=
        handleData_advances config (connection.record (.frame f)) f
      refine .handled [] dispatched idle (fun _ => ?_) advances
      rw [endsRequest, type]
      exact may
    case h_2 type => exact step_headers config connection f next idle type processed
    case h_6 =>
      obtain ⟨_, advances⟩ | ⟨_, advances⟩ :=
        handlePushPromise_cases config _ (endedBy f) f next processed
      · exact silent advances
      · exact .handled _ [] idle (fun _ => Or.inl rfl) advances
    all_goals cases processed
    case h_3 => exact silent unchanged
    case h_4 => exact silent (handleRstStream_advances _ _ f)
    case h_5 => exact silent (handleSettings_advances _ _ f)
    case h_7 => exact silent (handlePing_advances _ _ f)
    case h_8 => exact silent (handleGoaway_advances _ _)
    case h_9 => exact silent (handleWindowUpdate_advances _ _ f)
    case h_10 => exact silent (advances_goaway _ _ _ _)
    case h_11 => exact silent unchanged
  · exact step_waiting config connection f next idle processed

/-- A frame that is processed is logged, and no other. -/
theorem framesOf_processFrame (processed : connection.processFrame config f = .ok next) :
    framesOf next.events = framesOf connection.events ++ [f] := by
  have logged : framesOf (connection.record (.frame f)).events =
      framesOf connection.events ++ [f] := by
    rewrite [framesOf_record]
    rfl
  cases processFrame_step config connection f next processed with
  | handled blocks dispatched idle may advances => exact advances.frames.trans logged
  | begins block idle type nonzero incomplete notTrailers pends => exact pends.frames.trans logged
  | refused waiting advances => exact advances.frames.trans logged
  | continues block waiting pends => exact pends.frames.trans logged
  | completes blocks dispatched waiting may advances => exact advances.frames.trans logged

end Step

/-! ### Header blocks that wait -/

/-- No stream keeps a header block but the one that CONTINUATION frames are expected for. -/
def Settled (connection : Connection) : Prop :=
  ∀ sid, (connection.stream sid).pendingHeaderBlock ≠ [] →
    sid = connection.continuationStream ∧ connection.continuationStream ≠ 0

theorem settled_advances {blocks : List Bytes} {dispatched : List Nat} {ends : Nat → Prop}
    {before after : Connection} (settled : before.Settled)
    (advances : Advances blocks dispatched ends before after) : after.Settled := by
  intro sid pending
  rw [advances.continuationStream]
  rcases advances.pending sid with same | empty
  · exact settled sid (same ▸ pending)
  · exact absurd empty pending

/-- The connection keeps one block at most, so a block that waits on another stream is empty. -/
theorem settled_pends {block : Bytes} {sid : Nat} {ends : Nat → Prop} {before after : Connection}
    (nonzero : sid ≠ 0) (others : ∀ other, other ≠ sid →
      (before.stream other).pendingHeaderBlock = [])
    (pends : Pends block sid ends before after) : after.Settled := by
  intro other pending
  rw [pends.continuationStream]
  by_cases same : other = sid
  · exact ⟨same, nonzero⟩
  · refine absurd ?_ pending
    rcases pends.others other same with unchanged | empty
    · rw [unchanged, others other same]
    · exact empty

theorem settled_blockTaken (settled : Settled connection) :
    (connection.blockTaken connection.continuationStream).Settled := by
  intro sid pending
  refine absurd ?_ pending
  by_cases same : sid = connection.continuationStream
  · subst same
    show StreamState.pendingHeaderBlock
      (((connection.modifyStream connection.continuationStream _).streams _).getD {}) = []
    rw [streams_modifyStream]
    cases connection.streams connection.continuationStream <;> rfl
  · have kept : (connection.blockTaken connection.continuationStream).stream sid =
        connection.stream sid := stream_modifyStream_of_ne connection _ _ sid same
    rw [kept]
    by_contra nonempty
    exact same (settled sid nonempty).1

theorem settled_step (config : Config) (connection : Connection) (f : Frame) (next : Connection)
    (settled : connection.Settled) (step : FrameStep config connection f next) : next.Settled := by
  have recorded : (connection.record (.frame f)).Settled := settled
  have empty (sid : Nat) (different : sid ≠ connection.continuationStream ∨
      connection.continuationStream = 0) :
      ((connection.record (.frame f)).stream sid).pendingHeaderBlock = [] := by
    by_contra nonempty
    obtain ⟨same, nonzero⟩ := settled sid nonempty
    exact different.elim (· same) nonzero
  cases step with
  | handled blocks dispatched idle may advances => exact settled_advances recorded advances
  | begins block idle type nonzero incomplete notTrailers pends =>
    exact settled_pends nonzero (fun other _ => empty other (Or.inr idle)) pends
  | refused waiting advances => exact settled_advances recorded advances
  | continues block waiting pends =>
    exact settled_pends waiting (fun other different => empty other (Or.inl different)) pends
  | completes blocks dispatched waiting may advances =>
    exact settled_advances (settled_blockTaken recorded) advances

end Connection

namespace Session

theorem act_settled (session next : Session) (action : Action)
    (settled : session.connection.Settled) (acted : session.act action = .ok next) :
    next.connection.Settled := by
  cases action with
  | op op =>
    cases acted
    have same := op_undisturbed session op
    intro sid pending
    rw [same.continuationStream]
    refine settled sid fun empty => pending ?_
    exact (congrArg StreamCore.pendingHeaderBlock (same.core sid)).trans empty
  | receive f =>
    rw [act] at acted
    split at acted
    · obtain ⟨connection, processed, rfl⟩ := map_ok acted
      exact Connection.settled_step session.config session.connection f connection settled
        (Connection.processFrame_step _ _ _ _ processed)
    · cases acted
      exact settled

/-- Every reachable session is settled. -/
theorem reachable_settled (session : Session) (reachable : Reachable session) :
    session.connection.Settled := by
  obtain ⟨mode, actions, final, ran, _, same, _⟩ := reachable_acts session reachable
  have start : (create mode).connection.Settled := fun _ pending => absurd rfl pending
  rw [same.2]
  exact foldlM_invariant (fun before action after => act_settled before after action) actions
    (create mode) final start ran

end Session

end AsyncNet.Http
