/-
This file is about how often a server dispatches the request of a stream. A stream
stays in the map after its request was dispatched, and nothing marks it as served: a
second frame that ends the stream, or a header block that CONTINUATION frames complete
on the ended stream, dispatches it again. Over the runs in which no dispatched stream
receives such a frame, every stream is dispatched once at most.
-/

import AsyncNet.Http.Http2Steps

namespace AsyncNet.Http

open Library H2

namespace Connection

/-- The frame does not end a stream whose request was dispatched before, nor does it begin a
header block that waits for more on such a stream once it has ended. -/
def SparesDispatched (connection : Connection) (f : Frame) : Prop :=
  connection.alive = true → connection.continuationStream = 0 →
    f.hdr.streamId ∈ dispatchesOf connection.events →
      connection.endsRequest f = false ∧
        (f.hdr.type = .headers → f.hdr.hasFlag Flag.endHeaders = false →
          f.hdr.hasFlag Flag.endStream = false →
            (connection.stream f.hdr.streamId).endStream = false)

/-- No stream was dispatched twice, and the header block that is awaited does not belong to one
that was dispatched and would be again. -/
structure DispatchedOnce (connection : Connection) : Prop where
  nodup : (dispatchesOf connection.events).Nodup
  awaited : connection.continuationStream ≠ 0 →
    (connection.stream connection.continuationStream).endStream = true →
      connection.continuationStream ∉ dispatchesOf connection.events

theorem nodup_mayDispatch {sid : Nat} {endStream : Bool} {dispatched before : List Nat}
    (nodup : before.Nodup) (may : MayDispatch sid endStream dispatched)
    (fresh : endStream = true → sid ∉ before) : (before ++ dispatched).Nodup := by
  rcases may with rfl | ⟨isEnd, rfl⟩
  · rw [List.append_nil]
    exact nodup
  · rw [List.nodup_append]
    refine ⟨nodup, List.pairwise_singleton _ sid, fun one member other last same => ?_⟩
    rw [List.mem_singleton.mp last] at same
    exact fresh isEnd (same ▸ member)

/-- A frame that spares the dispatched streams dispatches none of them. -/
theorem dispatchedOnce_step (config : Config) (connection : Connection) (f : Frame)
    (next : Connection) (server : config.mode = .server) (alive : connection.alive = true)
    (once : connection.DispatchedOnce) (spares : connection.SparesDispatched f)
    (step : FrameStep config connection f next) : next.DispatchedOnce := by
  have recorded := (dispatchesOf_record connection (.frame f)).trans (List.append_nil _)
  cases step with
  | handled blocks dispatched idle may advances =>
    refine ⟨?_, fun waiting => absurd (advances.continuationStream.trans idle) waiting⟩
    rw [advances.dispatches, recorded]
    refine nodup_mayDispatch once.nodup (may server) fun isEnd member => ?_
    rw [(spares alive idle member).1] at isEnd
    cases isEnd
  | begins block idle type nonzero incomplete notTrailers pends =>
    refine ⟨by rw [pends.dispatches, recorded]; exact once.nodup, fun _ ended member => ?_⟩
    rw [pends.continuationStream, pends.dispatches, recorded] at member
    rw [pends.continuationStream] at ended
    obtain ⟨notEnds, notEnded⟩ := spares alive idle member
    rw [endsRequest, type] at notEnds
    dsimp only at notEnds
    rw [notTrailers server, Bool.not_false, Bool.and_true] at notEnds
    rcases pends.ended f.hdr.streamId ended with before | ⟨_, isEnd⟩
    · exact absurd ((notEnded type incomplete notEnds).symm.trans before) (by decide)
    · exact absurd (notEnds.symm.trans isEnd) (by decide)
  | refused waiting advances =>
    refine ⟨?_, fun _ ended => ?_⟩
    · rw [advances.dispatches, recorded, List.append_nil]
      exact once.nodup
    · rw [advances.continuationStream] at ended ⊢
      rw [advances.dispatches, recorded, List.append_nil]
      exact once.awaited waiting ((advances.ended _ ended).elim id False.elim)
  | continues block waiting pends =>
    refine ⟨?_, fun _ ended => ?_⟩
    · rw [pends.dispatches, recorded]
      exact once.nodup
    · rw [pends.continuationStream] at ended ⊢
      rw [pends.dispatches, recorded]
      exact once.awaited waiting ((pends.ended _ ended).elim id False.elim)
  | completes blocks dispatched waiting may advances =>
    refine ⟨?_, fun stillWaiting => absurd advances.continuationStream stillWaiting⟩
    have same : dispatchesOf
        ((connection.record (.frame f)).blockTaken connection.continuationStream).events =
          dispatchesOf connection.events := recorded
    rw [advances.dispatches, same]
    exact nodup_mayDispatch once.nodup may fun isEnd => once.awaited waiting isEnd

end Connection

namespace Session

/-- The frames of a run that spare the dispatched streams. -/
def SparesDispatched (session : Session) : Action → Prop
  | .receive f => session.connection.SparesDispatched f
  | .op _ => True

theorem act_dispatchedOnce (session next : Session) (action : Action)
    (before : session.config.mode = .server ∧ session.connection.DispatchedOnce)
    (spares : session.SparesDispatched action) (acted : session.act action = .ok next) :
    next.config.mode = .server ∧ next.connection.DispatchedOnce := by
  refine ⟨(act_mode session next action acted).trans before.1, ?_⟩
  cases action with
  | op op =>
    cases acted
    have same := op_undisturbed session op
    refine ⟨by rw [same.events]; exact before.2.nodup, fun waiting ended => ?_⟩
    rw [same.continuationStream] at waiting ended ⊢
    rw [same.events]
    have core := congrArg StreamCore.endStream (same.core session.connection.continuationStream)
    exact before.2.awaited waiting (core.symm.trans ended)
  | receive f =>
    rw [act] at acted
    split at acted
    · rename_i alive
      obtain ⟨connection, processed, rfl⟩ := map_ok acted
      exact Connection.dispatchedOnce_step session.config session.connection f connection before.1
        alive before.2 spares (Connection.processFrame_step _ _ _ _ processed)
    · cases acted
      exact before.2

/-- Along every run of a server in which no dispatched stream receives a frame that ends it again,
or the beginning of a header block after its end, each stream is dispatched once at most. -/
theorem dispatchesOf_nodup (actions : List Action) (final : Session)
    (spares : Along act SparesDispatched (create .server) actions)
    (ran : actions.foldlM act (create .server) = .ok final) :
    (dispatchesOf final.connection.events).Nodup := by
  have start : (create .server).config.mode = .server ∧
      (create .server).connection.DispatchedOnce :=
    ⟨rfl, List.nodup_nil, fun waiting => absurd rfl waiting⟩
  exact (foldlM_along (fun session action next => act_dispatchedOnce session next action) actions
    (create .server) final start spares ran).2.nodup

/-- Two requests, of which DATA ends the first and HEADERS the second. -/
theorem dispatchesOf_nodup_two :
    ∃ final, [Action.receive (.ofPayload .headers Flag.endHeaders 1 [0x82]),
        .receive (.ofPayload .headers (Flag.endHeaders ||| Flag.endStream) 3 [0x82]),
        .receive (.ofPayload .data Flag.endStream 1 [0x41])].foldlM act (create .server) =
          .ok final ∧
      (dispatchesOf final.connection.events).Nodup ∧
      dispatchesOf final.connection.events = [3, 1] := by
  have spares : Along act SparesDispatched (create .server)
      [.receive (.ofPayload .headers Flag.endHeaders 1 [0x82]),
        .receive (.ofPayload .headers (Flag.endHeaders ||| Flag.endStream) 3 [0x82]),
        .receive (.ofPayload .data Flag.endStream 1 [0x41])] := by
    refine ⟨fun _ _ member => absurd member (List.not_mem_nil), fun opened first => ?_⟩
    cases first
    refine ⟨fun _ _ member => absurd member (by decide +kernel), fun answered second => ?_⟩
    cases second
    exact ⟨fun _ _ member => absurd member (by decide +kernel), fun _ _ => trivial⟩
  exact ⟨_, rfl, dispatchesOf_nodup _ _ spares rfl, by decide +kernel⟩

/-- HEADERS and DATA that both end a stream. -/
theorem dispatchesOf_not_nodup :
    ∃ final, [Action.receive (.ofPayload .headers (Flag.endHeaders ||| Flag.endStream) 1 [0x82]),
        .receive (.ofPayload .data Flag.endStream 1 [])].foldlM act (create .server) = .ok final ∧
      dispatchesOf final.connection.events = [1, 1] :=
  ⟨_, rfl, by decide +kernel⟩

end Session

end AsyncNet.Http
