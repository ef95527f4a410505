/-
This file compares the header blocks that a session passes to its decoder with the
header blocks that its peer sends. The peer's blocks are put together from the frames
alone: a HEADERS or PUSH_PROMISE fragment and the CONTINUATION fragments up to
END_HEADERS. Three paths of the session lose a block or cut it short: trailers of a
stream that a streaming handler has taken, headers of a stream that a client does not
know, and blocks of streaming responses or pushes that padding or CONTINUATION frames
belong to. Over the runs that avoid these paths the two lists are the same.
-/

import AsyncNet.Http.Http2Handlers
import AsyncNet.Http.Http2Run

namespace AsyncNet.Http

open Library H2

/-! ### The header blocks of a sequence of frames -/

/-- The header block fragment of a PUSH_PROMISE frame: neither padding nor identifier. -/
def promiseFragment (f : Frame) : Except ErrorCode Bytes :=
  (Connection.stripPadding f).map fun payload => payload.drop 4

/-- A header block that begins: it is complete, or the stream waits for the rest of it. -/
def beginBlock (f : Frame) : Except ErrorCode Bytes → Option (Nat × Bytes) × List Bytes
  | .error _ => (none, [])
  | .ok block =>
      if f.hdr.hasFlag Flag.endHeaders then (none, [block]) else (some (f.hdr.streamId, block), [])

/-- What a frame does to the block that is being put together, and the block it completes. Frames
that are answered with a GOAWAY complete none. -/
def assemble (mode : Mode) (pending : Option (Nat × Bytes)) (f : Frame) :
    Option (Nat × Bytes) × List Bytes :=
  match pending with
  | some (sid, block) =>
      if f.hdr.type = .continuation ∧ f.hdr.streamId = sid then
        if f.hdr.hasFlag Flag.endHeaders then (none, [block ++ f.payload])
        else (some (sid, block ++ f.payload), [])
      else (some (sid, block), [])
  | none =>
      match f.hdr.type with
      | .headers =>
          if f.hdr.streamId = 0 then (none, []) else beginBlock f (Connection.headerFragment f)
      | .pushPromise =>
          match mode with
          | .server => (none, [])
          | .client => beginBlock f (promiseFragment f)
      | _ => (none, [])

/-- The block that is being put together after some frames, and the blocks completed by then. -/
def assembleAll (mode : Mode) (frames : List Frame) : Option (Nat × Bytes) × List Bytes :=
  frames.foldl (fun state f =>
    ((assemble mode state.1 f).1, state.2 ++ (assemble mode state.1 f).2)) (none, [])

/-- The complete header blocks of a sequence of frames, in the order of their arrival. -/
def headerBlocks (mode : Mode) (frames : List Frame) : List Bytes := (assembleAll mode frames).2

theorem assembleAll_append (mode : Mode) (frames : List Frame) (f : Frame) :
    assembleAll mode (frames ++ [f]) =
      ((assemble mode (assembleAll mode frames).1 f).1,
        (assembleAll mode frames).2 ++ (assemble mode (assembleAll mode frames).1 f).2) := by
  rw [assembleAll, List.foldl_append]
  rfl

namespace Session

/-! ### A session that is in step with its peer -/

/-- The stream that the connection waits for has the block that is being put together. -/
def Holds (connection : Connection) : Option (Nat × Bytes) → Prop
  | none => connection.continuationStream = 0
  | some (sid, block) =>
      sid ≠ 0 ∧ connection.continuationStream = sid ∧
        ∃ state, connection.streams sid = some state ∧ state.pendingHeaderBlock = block

/-- The blocks passed to the decoder are those that the frames contain. -/
structure InStep (session : Session) : Prop where
  decodes : decodesOf session.connection.events =
    (assembleAll session.config.mode (framesOf session.connection.events)).2
  holds : Holds session.connection
    (assembleAll session.config.mode (framesOf session.connection.events)).1

/-- A frame that begins a header block takes no path on which the block is lost or cut short. -/
def TakesBlock (session : Session) : Action → Prop
  | .op _ => True
  | .receive f =>
      session.connection.alive = true → session.connection.continuationStream = 0 →
        (f.hdr.type = .headers → f.hdr.streamId ≠ 0 →
          (∃ block, Connection.headerFragment f = .ok block) →
            match session.config.mode with
            | .server =>
                session.connection.streamingTrailers f.hdr.streamId
                  (f.hdr.hasFlag Flag.endStream) = false
            | .client =>
                ∃ state, session.connection.streams f.hdr.streamId = some state ∧
                  (state.headersComplete = true ∧ state.dataCb.isSome = true ∧
                    f.hdr.hasFlag Flag.endStream = true →
                      f.hdr.hasFlag Flag.endHeaders = true)) ∧
        (f.hdr.type = .pushPromise → session.config.mode = .client →
          f.hdr.hasFlag Flag.padded = false ∧ f.hdr.hasFlag Flag.endHeaders = true)

theorem op_inStep (session : Session) (op : Op) (inStep : session.InStep) :
    (session.op op).InStep := by
  have same := op_undisturbed session op
  refine ⟨?_, ?_⟩
  · rw [same.mode, same.events]
    exact inStep.decodes
  · rw [same.mode, same.events]
    have holds := inStep.holds
    cases pending : (assembleAll session.config.mode (framesOf session.connection.events)).1 with
    | none =>
      rw [pending] at holds
      exact same.continuationStream.trans holds
    | some block =>
      rw [pending] at holds
      obtain ⟨nonzero, continues, state, found, block'⟩ := holds
      obtain ⟨state', found'⟩ :=
        Option.isSome_iff_exists.mp (same.present block.1 (by rw [found]; rfl))
      refine ⟨nonzero, same.continuationStream.trans continues, state', found', ?_⟩
      have core := congrArg StreamCore.pendingHeaderBlock (same.core block.1)
      rw [Connection.stream_of_some _ _ found, Connection.stream_of_some _ _ found'] at core
      exact core.trans block'

section Receive

variable (session : Session) (f : Frame) (next : Connection)

/-- The block that is being put together by a session's frames. -/
def pending (session : Session) : Option (Nat × Bytes) :=
  (assembleAll session.config.mode (framesOf session.connection.events)).1

theorem pending_of_idle (inStep : session.InStep)
    (idle : session.connection.continuationStream = 0) : session.pending = none := by
  have holds := inStep.holds
  rw [pending]
  cases found : (assembleAll session.config.mode (framesOf session.connection.events)).1 with
  | none => rfl
  | some block =>
    rw [found] at holds
    exact absurd (holds.2.1.symm.trans idle) holds.1

theorem pending_of_waiting (inStep : session.InStep)
    (waiting : session.connection.continuationStream ≠ 0) :
    ∃ state, session.connection.streams session.connection.continuationStream = some state ∧
      session.pending = some (session.connection.continuationStream, state.pendingHeaderBlock) := by
  have holds := inStep.holds
  rw [pending]
  cases found : (assembleAll session.config.mode (framesOf session.connection.events)).1 with
  | none =>
    rw [found] at holds
    exact absurd holds waiting
  | some block =>
    rw [found] at holds
    obtain ⟨sid, bytes⟩ := block
    obtain ⟨_, continues, state, present, rfl⟩ := holds
    subst continues
    exact ⟨state, present, rfl⟩

/-- A session stays in step if what it decodes, and the block it holds then, is what the frame
contributes. -/
theorem inStep_next (inStep : session.InStep)
    (frames : framesOf next.events = framesOf session.connection.events ++ [f])
    (decodes : decodesOf next.events = decodesOf session.connection.events ++
      (assemble session.config.mode session.pending f).2)
    (holds : Holds next (assemble session.config.mode session.pending f).1) :
    InStep { session with connection := next } := by
  refine ⟨?_, ?_⟩
  · show decodesOf next.events = (assembleAll session.config.mode (framesOf next.events)).2
    rw [frames, assembleAll_append, decodes, inStep.decodes]
    rfl
  · show Holds next (assembleAll session.config.mode (framesOf next.events)).1
    rw [frames, assembleAll_append]
    exact holds

theorem inStep_of_advances {dispatched : List Nat} {ends : Nat → Prop} (inStep : session.InStep)
    (idle : session.connection.continuationStream = 0)
    (contributes : (assemble session.config.mode none f).1 = none)
    (advances : Connection.Advances (assemble session.config.mode none f).2 dispatched ends
      (session.connection.record (.frame f)) next) :
    InStep { session with connection := next } := by
  refine inStep_next session f next inStep ?_ ?_ ?_
  · rewrite [advances.frames, Connection.framesOf_record]
    rfl
  · rewrite [advances.decodes, Connection.decodesOf_record, pending_of_idle session inStep idle]
    exact congrArg (· ++ _) (List.append_nil _)
  · rw [pending_of_idle session inStep idle, contributes]
    exact advances.continuationStream.trans idle

theorem inStep_of_pends {block : Bytes} {sid : Nat} {ends : Nat → Prop} (inStep : session.InStep)
    (nonzero : sid ≠ 0)
    (contributes : assemble session.config.mode session.pending f = (some (sid, block), []))
    (pends : Connection.Pends block sid ends (session.connection.record (.frame f)) next) :
    InStep { session with connection := next } := by
  refine inStep_next session f next inStep ?_ ?_ ?_
  · rewrite [pends.frames, Connection.framesOf_record]
    rfl
  · rewrite [pends.decodes, Connection.decodesOf_record, contributes]
    rfl
  · rw [contributes]
    exact ⟨nonzero, pends.continuationStream, pends.pending⟩

/-- A frame that arrives while a header block is pending. -/
theorem receive_waiting (inStep : session.InStep)
    (waiting : session.connection.continuationStream ≠ 0)
    (processed : session.connection.processFrame session.config f = .ok next) :
    InStep { session with connection := next } := by
  obtain ⟨state, present, pendingEq⟩ := pending_of_waiting session inStep waiting
  rw [Connection.processFrame, if_pos (by exact waiting)] at processed
  split at processed
  · rename_i other
    cases processed
    have contributes : assemble session.config.mode session.pending f = (session.pending, []) := by
      rw [pendingEq, assemble, if_neg fun expected =>
        other.elim (fun type => type expected.1) fun sid => sid expected.2]
    refine inStep_next session f _ inStep (Connection.framesOf_record _ _) ?_ ?_
    · rw [contributes]
      exact Connection.decodesOf_record _ _
    · rw [contributes, pendingEq]
      exact ⟨waiting, rfl, state, present, rfl⟩
  · rename_i expected
    obtain ⟨type, sid⟩ := not_or.mp expected
    rw [not_not] at type sid
    change f.hdr.streamId = session.connection.continuationStream at sid
    have contributes : assemble session.config.mode session.pending f =
        if f.hdr.hasFlag Flag.endHeaders then (none, [state.pendingHeaderBlock ++ f.payload])
        else (some (f.hdr.streamId, state.pendingHeaderBlock ++ f.payload), []) := by
      rw [pendingEq, assemble, if_pos ⟨type, sid⟩, ← sid]
    obtain ⟨complete, dispatched, _, advances⟩ | ⟨incomplete, pends⟩ :=
      Connection.handleContinuation_cases session.config (session.connection.record (.frame f)) f
        next state (by rw [sid]; exact present) sid.symm processed
    · rw [if_pos complete] at contributes
      refine inStep_next session f next inStep ?_ ?_ ?_
      · rw [advances.frames]
        exact Connection.framesOf_record _ _
      · rw [advances.decodes, contributes]
        exact congrArg (· ++ _)
          ((Connection.decodesOf_record _ (.frame f)).trans (List.append_nil _))
      · rw [contributes]
        exact advances.continuationStream
    · rw [incomplete, if_neg (by decide)] at contributes
      exact inStep_of_pends session f next inStep (sid ▸ waiting) contributes pends

theorem assemble_of_other (mode : Mode) (headers : f.hdr.type ≠ .headers)
    (pushPromise : f.hdr.type ≠ .pushPromise) : assemble mode none f = (none, []) := by
  unfold assemble
  dsimp only
  split
  · rename_i type
    exact absurd type headers
  · rename_i type
    exact absurd type pushPromise
  · rfl

theorem assemble_headers (mode : Mode) (type : f.hdr.type = .headers)
    (nonzero : f.hdr.streamId ≠ 0) :
    assemble mode none f = beginBlock f (Connection.headerFragment f) := by
  unfold assemble
  rw [type]
  exact if_neg nonzero

/-- HEADERS that arrive while no header block is pending. -/
theorem receive_headers (inStep : session.InStep) (alive : session.connection.alive = true)
    (idle : session.connection.continuationStream = 0) (type : f.hdr.type = .headers)
    (takes : session.TakesBlock (.receive f))
    (handled : (session.connection.record (.frame f)).handleHeaders session.config f = .ok next) :
    InStep { session with connection := next } := by
  have ignored (connection : Connection)
      (nothing : assemble session.config.mode none f = (none, []))
      (advances : Connection.Advances [] [] (fun _ => False) (session.connection.record (.frame f))
        connection) : InStep { session with connection := connection } :=
    inStep_of_advances session f connection inStep idle (by rw [nothing])
      (by rw [nothing]; exact advances)
  rw [Connection.handleHeaders] at handled
  split at handled
  · rename_i zero
    cases handled
    refine ignored _ ?_ (Connection.advances_goaway _ _ _ _)
    unfold assemble
    rw [type]
    exact if_pos zero
  · rename_i nonzero
    have begins := assemble_headers f session.config.mode type nonzero
    split at handled
    · rename_i error fragment
      cases handled
      refine ignored _ ?_ (Connection.advances_goaway _ _ _ _)
      rw [begins, fragment]
      rfl
    · rename_i block fragment
      have path := (takes alive idle).1 type nonzero ⟨block, fragment⟩
      rw [fragment] at begins
      set ends : Nat → Prop := fun _ => True
      have complete (endHeaders : f.hdr.hasFlag Flag.endHeaders = true) {dispatched : List Nat}
          (advances : Connection.Advances [block] dispatched ends
            (session.connection.record (.frame f)) next) :
          InStep { session with connection := next } := by
        have contributes : assemble session.config.mode none f = (none, [block]) := by
          rw [begins, beginBlock, if_pos endHeaders]
        exact inStep_of_advances session f next inStep idle (by rw [contributes])
          (by rw [contributes]; exact advances)
      have incomplete (notEnd : f.hdr.hasFlag Flag.endHeaders = false)
          (pends : Connection.Pends block f.hdr.streamId ends
            (session.connection.record (.frame f)) next) :
          InStep { session with connection := next } := by
        refine inStep_of_pends session f next inStep nonzero ?_ pends
        rw [pending_of_idle session inStep idle, begins, beginBlock, if_neg
          (by rw [notEnd]; decide)]
      split at handled
      · rename_i server
        rw [server] at path
        obtain ⟨trailers, _⟩ | ⟨_, endHeaders, dispatched, _, advances⟩ | ⟨_, notEnd, pends⟩ :=
          Connection.handleRequestHeaders_cases session.config _ ends _ block _ _ next
            (fun _ => trivial) handled
        · exact absurd (path.symm.trans trailers) (by decide)
        · exact complete endHeaders advances
        · exact incomplete notEnd pends
      · rename_i client
        rw [client] at path
        obtain ⟨state, found, streaming⟩ := path
        obtain ⟨unknown, _⟩ | ⟨state', found', endHeaders, advances⟩ | ⟨_, _, notEnd, pends⟩ :=
          Connection.handleResponseHeaders_cases _ ends _ block _ _ next (fun _ => trivial) handled
        · exact absurd (unknown.symm.trans found) (by simp)
        · have same := Option.some.inj (found.symm.trans found')
          refine complete (endHeaders.elim id fun trailers => streaming ?_) advances
          rw [same]
          exact trailers
        · exact incomplete notEnd pends

/-- A PUSH_PROMISE that arrives while no header block is pending. -/
theorem receive_pushPromise (inStep : session.InStep) (alive : session.connection.alive = true)
    (idle : session.connection.continuationStream = 0) (type : f.hdr.type = .pushPromise)
    (takes : session.TakesBlock (.receive f))
    (handled : (session.connection.record (.frame f)).handlePushPromise session.config f =
      .ok next) :
    InStep { session with connection := next } := by
  obtain ⟨server, advances⟩ | ⟨client, advances⟩ :=
    Connection.handlePushPromise_cases session.config _ (fun _ => False) f next handled
  · have nothing : assemble session.config.mode none f = (none, []) := by
      unfold assemble
      rw [type, server]
    exact inStep_of_advances session f next inStep idle (by rw [nothing])
      (by rw [nothing]; exact advances)
  · obtain ⟨unpadded, endHeaders⟩ := (takes alive idle).2 type client
    have fragment : promiseFragment f = .ok (parsePushPromise f.payload).2 := by
      rw [promiseFragment, Connection.stripPadding, unpadded, if_neg (by decide), parsePushPromise]
      split
      · rename_i short
        show Except.ok (f.payload.drop 4) = Except.ok []
        rw [List.drop_of_length_le (by omega)]
      · rfl
    have contributes : assemble session.config.mode none f =
        (none, [(parsePushPromise f.payload).2]) := by
      unfold assemble
      rw [type, client]
      dsimp only
      rw [fragment, beginBlock, if_pos endHeaders]
    exact inStep_of_advances session f next inStep idle (by rw [contributes])
      (by rw [contributes]; exact advances)

/-- A frame that arrives while no header block is pending. -/
theorem receive_idle (inStep : session.InStep) (alive : session.connection.alive = true)
    (idle : session.connection.continuationStream = 0) (takes : session.TakesBlock (.receive f))
    (processed : session.connection.processFrame session.config f = .ok next) :
    InStep { session with connection := next } := by
  have other (connection : Connection) (headers : f.hdr.type ≠ .headers)
      (pushPromise : f.hdr.type ≠ .pushPromise) {dispatched : List Nat} {ends : Nat → Prop}
      (advances : Connection.Advances [] dispatched ends (session.connection.record (.frame f))
        connection) : InStep { session with connection := connection } := by
    have nothing := assemble_of_other f session.config.mode headers pushPromise
    exact inStep_of_advances session f connection inStep idle (by rw [nothing])
      (by rw [nothing]; exact advances)
  have unchanged := (Connection.Quiet.refl (session.connection.record (.frame f))).advances
    fun _ => False
  rw [Connection.processFrame, if_neg (by exact not_not.mpr idle)] at processed
  split at processed
  case h_1 type =>
    cases processed
    obtain ⟨dispatched, _, advances⟩ := Connection.handleData_advances session.config
      (session.connection.record (.frame f)) f
    exact other _ (by rw [type]; decide) (by rw [type]; decide) advances
  case h_2 type => exact receive_headers session f next inStep alive idle type takes processed
  case h_3 type =>
    cases processed
    exact other _ (by rw [type]; decide) (by rw [type]; decide) unchanged
  case h_4 type =>
    cases processed
    exact other _ (by rw [type]; decide) (by rw [type]; decide)
      (Connection.handleRstStream_advances _ (fun _ => False) f)
  case h_5 type =>
    cases processed
    exact other _ (by rw [type]; decide) (by rw [type]; decide)
      (Connection.handleSettings_advances _ (fun _ => False) f)
  case h_6 type =>
    exact receive_pushPromise session f next inStep alive idle type takes processed
  case h_7 type =>
    cases processed
    exact other _ (by rw [type]; decide) (by rw [type]; decide)
      (Connection.handlePing_advances _ (fun _ => False) f)
  case h_8 type =>
    cases processed
    exact other _ (by rw [type]; decide) (by rw [type]; decide)
      (Connection.handleGoaway_advances _ fun _ => False)
  case h_9 type =>
    cases processed
    exact other _ (by rw [type]; decide) (by rw [type]; decide)
      (Connection.handleWindowUpdate_advances _ (fun _ => False) f)
  case h_10 type =>
    cases processed
    exact other _ (by rw [type]; decide) (by rw [type]; decide)
      (Connection.advances_goaway _ (fun _ => False) _ _)
  case h_11 code type =>
    cases processed
    exact other _ (by rw [type]; nofun) (by rw [type]; nofun) unchanged

end Receive

/-- An action that takes its block leaves a session in step. -/
theorem act_inStep (session next : Session) (action : Action) (inStep : session.InStep)
    (takes : session.TakesBlock action) (acted : session.act action = .ok next) : next.InStep := by
  cases action with
  | op op =>
    cases acted
    exact op_inStep session op inStep
  | receive f =>
    rw [act] at acted
    split at acted
    · rename_i alive
      obtain ⟨connection, processed, rfl⟩ := map_ok acted
      by_cases idle : session.connection.continuationStream = 0
      · exact receive_idle session f connection inStep alive idle takes processed
      · exact receive_waiting session f connection inStep idle processed
    · cases acted
      exact inStep

theorem run_mode (actions : List Action) (session final : Session)
    (ran : actions.foldlM act session = .ok final) : final.config.mode = session.config.mode :=
  foldlM_invariant
    (fun before action next same acted => (act_mode before next action acted).trans same)
    actions session final rfl ran

/-- Along every run whose frames take no path that loses a header block, the blocks passed to the
decoder are the complete header blocks of the frames received, in the order of their arrival. -/
theorem decodesOf_eq_headerBlocks (mode : Mode) (actions : List Action) (final : Session)
    (takes : Along act TakesBlock (create mode) actions)
    (ran : actions.foldlM act (create mode) = .ok final) :
    decodesOf final.connection.events =
      headerBlocks mode (framesOf final.connection.events) := by
  have start : (create mode).InStep := ⟨rfl, rfl⟩
  have inStep := foldlM_along (fun session action next => act_inStep session next action) actions
    (create mode) final start takes ran
  rw [inStep.decodes, run_mode actions (create mode) final ran]
  rfl

/-- A block of two bytes in HEADERS and CONTINUATION. -/
theorem decodesOf_eq_headerBlocks_continuation :
    ∃ final, [Action.receive (.ofPayload .headers 0 1 [0x82]),
        .receive (.ofPayload .continuation Flag.endHeaders 1 [0x84])].foldlM act (create .server) =
          .ok final ∧
      decodesOf final.connection.events = headerBlocks .server (framesOf final.connection.events) ∧
      decodesOf final.connection.events = [[0x82, 0x84]] := by
  have takes : Along act TakesBlock (create .server)
      [.receive (.ofPayload .headers 0 1 [0x82]),
        .receive (.ofPayload .continuation Flag.endHeaders 1 [0x84])] := by
    refine ⟨fun _ _ => ⟨fun _ _ _ => rfl, nofun⟩, fun next _ => ?_⟩
    exact ⟨fun _ _ => ⟨nofun, nofun⟩, fun _ _ => trivial⟩
  exact ⟨_, rfl, decodesOf_eq_headerBlocks .server _ _ takes rfl, by decide +kernel⟩

/-- The trailers of a stream that a streaming handler has taken are not decoded. -/
theorem decodesOf_ne_headerBlocks :
    ∃ final, [Action.op (.setRequestStartHandler (some fun _ _ _ => (true, []))),
        .receive (.ofPayload .headers Flag.endHeaders 1 [0x82]),
        .receive (.ofPayload .headers (Flag.endHeaders ||| Flag.endStream) 1 [0x84])].foldlM act
          (create .server) = .ok final ∧
      final.connection.alive = true ∧
      headerBlocks .server (framesOf final.connection.events) = [[0x82], [0x84]] ∧
      decodesOf final.connection.events = [[0x82]] := by
  refine ⟨_, rfl, ?_, ?_, ?_⟩
  all_goals decide +kernel

end Session

end AsyncNet.Http
