/-
This file says what a session does with the frames of a peer that keeps to the
protocol: the frames of the connection, which it acknowledges or takes credit from,
and the frames of a message, each of which takes the stream of the message a step on.
The last frame of a request calls the handler and sends its response, the last frame of
a response completes the promise of the request.
-/

import AsyncNet.Http.Http2BadBlocks
import AsyncNet.Http.Http2FlowControl

namespace AsyncNet.Http

open H2

/-- The request start handler of a session. -/
abbrev StartHandler := Nat → Request → Bool → Bool × List Command

namespace Connection

/-! ### What a frame leaves alone -/

/-- No handler was called, no promise was touched and no header block was begun or ended. -/
structure Keeps (before after : Connection) : Prop where
  promises : after.promises = before.promises
  calls : handlerCalls after.events = handlerCalls before.events
  continuationStream : after.continuationStream = before.continuationStream

theorem keeps_record (connection : Connection) (event : Event)
    (other : event.isHandlerCall = false) :
    Keeps connection (connection.record event) := by
  refine ⟨rfl, ?_, rfl⟩
  have calls := calls_record connection event
  rw [other] at calls
  exact Eq.trans calls (List.append_nil _)

/-- A session that is alive and whose peer has the default settings. -/
structure Steady (connection : Connection) : Prop where
  alive : connection.alive = true
  peerMaxFrameSize : connection.peerMaxFrameSize = 16384
  peerInitialWindowSize : connection.peerInitialWindowSize = 65535
  maxTableSize : connection.encoder.maxTableSize < 2 ^ 64
  bounded : Bounded connection

/-- A frame was received and answered: the books of flow control are kept. -/
structure Receipt (f : Frame) (replies : List Frame) (before after : Connection) : Prop where
  steady : Steady after
  nextStreamId : after.nextStreamId = before.nextStreamId
  outputBuf : after.outputBuf = before.outputBuf ++ replies.flatMap Frame.wire
  proper : ∀ reply ∈ replies, reply.Proper
  sendWindow : ∀ scope, after.sendWindowOf scope ≤
    before.sendWindowOf scope + (f.credit scope : Int)
  recvWindow : ∀ scope, after.recvWindowOf scope + (f.load scope : Int) =
    before.recvWindowOf scope + (credits scope replies : Int)

theorem Moves.steady {sid taken : Nat} {sent : List Frame} {before after : Connection}
    (moves : Moves sid taken sent before after) (steady : Steady before) (bounded : Bounded after) :
    Steady after where
  alive := moves.alive.trans steady.alive
  peerMaxFrameSize := moves.peerMaxFrameSize.trans steady.peerMaxFrameSize
  peerInitialWindowSize := moves.peerInitialWindowSize.trans steady.peerInitialWindowSize
  maxTableSize := moves.maxTableSize ▸ steady.maxTableSize
  bounded := bounded

theorem Moves.receipt {sid taken : Nat} {replies : List Frame} {f : Frame}
    {before after : Connection} (moves : Moves sid taken replies before after)
    (steady : Steady before) (bounded : Bounded after) (proper : ∀ reply ∈ replies, reply.Proper)
    (load : ∀ scope, f.load scope = if scope = 0 ∨ scope = sid then taken else 0) :
    Receipt f replies before after where
  steady := moves.steady steady bounded
  nextStreamId := moves.nextStreamId
  outputBuf := moves.outputBuf
  proper := proper
  sendWindow := fun scope => by
    rw [moves.sendWindow scope]
    omega
  recvWindow := fun scope => by
    rw [load scope]
    exact moves.recvWindow scope

/-! ### Frames of the connection -/

theorem proper_of_isControl {f : Frame} (control : IsControl f) : f.Proper := by
  cases control with
  | settings => exact ⟨rfl, by decide, by decide, rfl⟩
  | ack => exact ⟨rfl, by decide, by decide, rfl⟩
  | windowUpdate identifier positive small =>
    exact ⟨rfl, show 4 < 2 ^ 24 by decide, identifier, rfl⟩

section Control

variable (config : Config) (connection : Connection)

/-- What a session does with the settings that its peer sends first. -/
theorem handleSettings_initial (initial : connection.peerInitialWindowSize = 65535) :
    connection.handleSettings settingsFrame =
      ({ connection with peerEnablePush := true } : Connection).enqueue settingsAck.wire := by
  have parsed : parseSettings settingsFrame.payload = initialSettings := by decide
  have streams : (fun sid => (connection.streams sid).map fun state =>
      { state with sendWindow := state.sendWindow +
        ((65535 : Int) - connection.peerInitialWindowSize) }) = connection.streams := by
    funext sid
    rw [initial]
    cases connection.streams sid with
    | none => rfl
    | some state =>
      show some { state with sendWindow := state.sendWindow + 0 } = some state
      rw [add_zero]
  rw [handleSettings, if_neg (by decide), if_neg (by decide), if_neg (by decide), parsed]
  show enqueue { connection with
    streams := fun sid => (connection.streams sid).map fun state =>
      { state with sendWindow := state.sendWindow +
        ((65535 : Int) - connection.peerInitialWindowSize) }
    peerInitialWindowSize := 65535
    peerEnablePush := true } _ = _
  rw [streams, ← initial]
  rfl

theorem processFrame_idle (f : Frame) (idle : connection.continuationStream = 0) :
    connection.processFrame config f =
      match f.hdr.type with
      | .data => .ok ((connection.record (.frame f)).handleData config f)
      | .headers => (connection.record (.frame f)).handleHeaders config f
      | .priority => .ok (connection.record (.frame f))
      | .rstStream => .ok ((connection.record (.frame f)).handleRstStream f)
      | .settings => .ok ((connection.record (.frame f)).handleSettings f)
      | .pushPromise => (connection.record (.frame f)).handlePushPromise config f
      | .ping => .ok ((connection.record (.frame f)).handlePing f)
      | .goaway => .ok (connection.record (.frame f)).handleGoaway
      | .windowUpdate => .ok ((connection.record (.frame f)).handleWindowUpdate f)
      | .continuation => .ok ((connection.record (.frame f)).goaway .protocolError
          (ascii "Unexpected CONTINUATION"))
      | .unknown _ => .ok (connection.record (.frame f)) := by
  rewrite [processFrame, if_neg (by exact not_not.mpr idle)]
  rfl

/-- A frame of the connection was received: besides the books, nothing changes. -/
structure Administers (f : Frame) (before after : Connection) : Prop where
  receipt : ∃ replies, (∀ reply ∈ replies, IsControl reply) ∧ efforts replies < f.effort ∧
    Receipt f replies before after
  keeps : Keeps before after
  view : ∀ sid, after.view sid = before.view sid

theorem load_of_isControl {f : Frame} (control : IsControl f) (scope : Nat) : f.load scope = 0 := by
  cases control <;> exact if_neg fun both => FrameType.noConfusion both.1

/-- A frame that changes neither the streams nor the windows, but may be answered. -/
theorem administers_of_same {f : Frame} {before after : Connection} (replies : List Frame)
    (controls : ∀ reply ∈ replies, IsControl reply) (less : efforts replies < f.effort)
    (control : IsControl f) (none : ∀ scope, credits scope replies = 0) (steady : Steady before)
    (moves : Moves 0 0 replies before after) (keeps : Keeps before after)
    (view : ∀ sid, after.view sid = before.view sid) : Administers f before after where
  receipt := ⟨replies, controls, less, moves.receipt steady (moves.bounded none steady.bounded)
    (fun reply member => proper_of_isControl (controls reply member))
    fun scope => by rw [load_of_isControl control, ite_self]⟩
  keeps := keeps
  view := view

theorem receive_settings (steady : Steady connection) (idle : connection.continuationStream = 0) :
    ∃ after, connection.processFrame config settingsFrame = .ok after ∧
      Administers settingsFrame connection after := by
  have handled := handleSettings_initial (connection.record (.frame settingsFrame))
    steady.peerInitialWindowSize
  refine ⟨_, (processFrame_idle config connection settingsFrame idle).trans
    (congrArg Except.ok handled), ?_⟩
  have none : ∀ scope, credits scope [settingsAck] = 0 := fun scope =>
    credits_of_ne scope _ fun f member => by rw [List.mem_singleton.mp member]; decide
  have keeps := keeps_record connection (.frame settingsFrame) rfl
  refine administers_of_same [settingsAck] (fun reply member => ?_)
    (by decide) .settings none steady ?_
    { keeps with } fun _ => rfl
  · rw [List.mem_singleton.mp member]
    exact .ack
  · have sends := moves_enqueue connection 0 [settingsAck] none
    exact { sends with }

theorem receive_ack (steady : Steady connection) (idle : connection.continuationStream = 0) :
    ∃ after, connection.processFrame config settingsAck = .ok after ∧
      Administers settingsAck connection after := by
  refine ⟨_, processFrame_idle config connection settingsAck idle, ?_⟩
  exact administers_of_same [] (fun reply member => absurd member List.not_mem_nil)
    (effort_pos _) .ack (fun _ => rfl) steady (moves_record connection 0 _)
    (keeps_record connection (.frame settingsAck) rfl) fun _ => rfl

/-- A window update that leaves room. -/
theorem handleWindowUpdate_fits (sid increment : Nat) (positive : 0 < increment)
    (small : increment < 2 ^ 31)
    (room : connection.sendWindowOf sid + increment ≤ maxWindowSize) :
    connection.handleWindowUpdate (windowUpdateFrame sid increment) =
      if sid = 0 then { connection with connSendWindow := connection.connSendWindow + increment }
      else connection.modifyStream sid fun state =>
        { state with sendWindow := state.sendWindow + increment } := by
  have length : (windowUpdateFrame sid increment).payload.length = 4 := rfl
  have streamId : (windowUpdateFrame sid increment).hdr.streamId = sid := rfl
  unfold handleWindowUpdate
  rw [length, if_neg (not_not.mpr rfl), parseWindowUpdate_windowUpdateFrame sid increment small,
    streamId]
  dsimp only
  rw [if_neg positive.ne']
  unfold sendWindowOf at room
  by_cases whole : sid = 0
  · rw [if_pos whole] at room
    rw [if_pos whole, if_pos whole, if_neg (not_lt.mpr room)]
  · rw [if_neg whole] at room
    rw [if_neg whole, if_neg whole]
    cases found : connection.streams sid with
    | none =>
      exact (modifyStream_of_fixed connection sid _ fun state here =>
        absurd (found.symm.trans here) (Option.some_ne_none state).symm).symm
    | some state =>
      rw [stream_of_some connection sid found] at room
      exact if_neg (not_lt.mpr room)

theorem receive_windowUpdate (sid increment : Nat) (identifier : sid < 2 ^ 31)
    (positive : 0 < increment) (small : increment < 2 ^ 31) (steady : Steady connection)
    (idle : connection.continuationStream = 0)
    (room : connection.sendWindowOf sid + increment ≤ maxWindowSize) :
    ∃ after, connection.processFrame config (windowUpdateFrame sid increment) = .ok after ∧
      Administers (windowUpdateFrame sid increment) connection after := by
  set before := connection.record (.frame (windowUpdateFrame sid increment)) with beforeEq
  have handled := handleWindowUpdate_fits before sid increment positive small room
  refine ⟨_, (processFrame_idle config connection _ idle).trans (congrArg Except.ok handled), ?_⟩
  have keeps : Keeps connection before := keeps_record connection _ rfl
  have load := load_of_isControl (.windowUpdate identifier positive small)
  have receipt {after : Connection} (steady' : Steady after)
      (nextStreamId : after.nextStreamId = connection.nextStreamId)
      (outputBuf : after.outputBuf = connection.outputBuf)
      (sendWindow : ∀ scope, after.sendWindowOf scope ≤ connection.sendWindowOf scope +
        ((if sid = scope then increment else 0 : Nat) : Int))
      (recvWindow : ∀ scope, after.recvWindowOf scope = connection.recvWindowOf scope) :
      Receipt (windowUpdateFrame sid increment) [] connection after :=
    { steady := steady'
      nextStreamId := nextStreamId
      outputBuf := outputBuf.trans (List.append_nil _).symm
      proper := fun reply member => absurd member List.not_mem_nil
      sendWindow := fun scope => by
        rw [credit_windowUpdateFrame scope sid increment small]
        exact sendWindow scope
      recvWindow := fun scope => by
        rw [load scope, recvWindow scope]
        rfl }
  by_cases whole : sid = 0
  · rw [if_pos whole]
    refine ⟨⟨[], fun reply member => absurd member List.not_mem_nil, effort_pos _,
      receipt { steady with } rfl rfl (fun scope => ?_) fun _ => rfl⟩, { keeps with }, fun _ => rfl⟩
    unfold sendWindowOf
    split
    · rename_i zero
      rw [if_pos (whole.trans zero.symm)]
      exact le_rfl
    · rename_i other
      rw [if_neg fun same => other (same.symm.trans whole)]
      exact (add_zero _).ge
  · rw [if_neg whole]
    set change : StreamState → StreamState := fun state =>
      { state with sendWindow := state.sendWindow + increment } with changeEq
    have recvWindow (scope : Nat) : (before.modifyStream sid change).recvWindowOf scope =
        connection.recvWindowOf scope :=
      recvWindowOf_modifyStream before sid change (fun _ => rfl) scope
    refine ⟨⟨[], fun reply member => absurd member List.not_mem_nil, effort_pos _,
      receipt { steady with bounded := fun scope => ?_ } rfl rfl (fun scope => ?_) recvWindow⟩,
      { keeps with }, fun other => ?_⟩
    · rw [recvWindow scope]
      exact steady.bounded scope
    · by_cases same : scope = sid
      · rw [if_pos same.symm, same, sendWindowOf, sendWindowOf, if_neg whole, if_neg whole, stream,
          streams_modifyStream, stream, beforeEq, streams_record]
        cases connection.streams sid with
        | none => exact le_add_of_nonneg_right (Int.natCast_nonneg increment)
        | some state => exact le_rfl
      · rw [if_neg (Ne.symm same), sendWindowOf, stream_modifyStream_of_ne _ _ _ _ same]
        exact (add_zero _).ge
    · by_cases same : other = sid
      · rw [same, view_modifyStream before sid change fun _ => rfl, view, view, Option.map_map]
        rfl
      · exact view_modifyStream_of_ne before sid change other same

/-- A frame of the connection is processed, if the credit that it grants leaves room. -/
theorem receive_control {f : Frame} (control : IsControl f) (steady : Steady connection)
    (idle : connection.continuationStream = 0)
    (room : ∀ scope, connection.sendWindowOf scope + (f.credit scope : Int) ≤ maxWindowSize) :
    ∃ after, connection.processFrame config f = .ok after ∧ Administers f connection after := by
  cases control with
  | settings => exact receive_settings config connection steady idle
  | ack => exact receive_ack config connection steady idle
  | @windowUpdate sid increment identifier positive small =>
    have credit := room sid
    rw [credit_windowUpdateFrame sid sid increment small, if_pos rfl] at credit
    exact receive_windowUpdate config connection sid increment identifier positive small steady idle
      credit

end Control

/-! ### A stream in the middle of a message -/

/-- What a stream is but for its windows, and the stream whose header block is incomplete. -/
structure Stands (sid waiting : Nat) (state : StreamState) (connection : Connection) : Prop where
  view : connection.view sid = some state
  continuationStream : connection.continuationStream = waiting

/-- Between the two connections only a stream has changed, and nothing was sent. -/
structure Becomes (sid waiting : Nat) (state : StreamState) (before after : Connection) : Prop where
  moves : Moves sid 0 [] before after
  promises : after.promises = before.promises
  calls : handlerCalls after.events = handlerCalls before.events
  stands : Stands sid waiting state after

theorem Becomes.trans {sid waiting waiting' : Nat} {state state' : StreamState}
    {first second third : Connection} (left : Becomes sid waiting state first second)
    (right : Becomes sid waiting' state' second third) :
      Becomes sid waiting' state' first third where
  moves := left.moves.trans right.moves
  promises := right.promises.trans left.promises
  calls := right.calls.trans left.calls
  stands := right.stands

section Becoming

variable {connection : Connection} {sid waiting : Nat} {state : StreamState}

theorem Stands.found (stands : Stands sid waiting state connection) :
    ∃ found, connection.streams sid = some found ∧ found.still = state :=
  Option.map_eq_some_iff.mp stands.view

theorem Stands.still_stream (stands : Stands sid waiting state connection) :
    (connection.stream sid).still = state := by
  obtain ⟨found, lookup, rfl⟩ := stands.found
  rw [stream_of_some connection sid lookup]

theorem becomes_record (stands : Stands sid waiting state connection) (event : Event)
    (other : event.isHandlerCall = false) :
    Becomes sid waiting state connection (connection.record event) where
  moves := moves_record connection sid event
  promises := rfl
  calls := (keeps_record connection event other).calls
  stands := { stands with }

theorem becomes_modifyStream (stands : Stands sid waiting state connection)
    (change : StreamState → StreamState)
    (keepsSend : ∀ state, (change state).sendWindow = state.sendWindow)
    (keepsRecv : ∀ state, (change state).recvWindow = state.recvWindow)
    (still : ∀ state, (change state).still = change state.still) :
    Becomes sid waiting (change state) connection (connection.modifyStream sid change) where
  moves := moves_modifyStream connection sid change keepsSend keepsRecv
  promises := rfl
  calls := rfl
  stands := by
    obtain ⟨found, lookup, rfl⟩ := stands.found
    refine ⟨?_, stands.continuationStream⟩
    rw [view, streams_modifyStream, lookup]
    exact congrArg some (still found)

theorem becomes_awaitContinuation (stands : Stands sid waiting state connection) (block : Bytes)
    (endStream : Bool) :
    Becomes sid sid
      { state with pendingHeaderBlock := block, endStream := state.endStream || endStream }
      connection (connection.awaitContinuation sid block endStream) := by
  have changed := becomes_modifyStream stands (fun state =>
    { state with pendingHeaderBlock := block, endStream := state.endStream || endStream })
    (fun _ => rfl) (fun _ => rfl) fun _ => rfl
  exact ⟨moves_awaitContinuation connection sid block endStream, rfl, rfl, changed.stands.view, rfl⟩

/-- A header block that can be decoded is. -/
theorem decode_eq (connection : Connection) {block : Bytes} {headers : Headers}
    (decodes : Decodes block headers) :
    ∃ decoder, connection.decode block =
      .ok (headers, { connection.record (.decode block) with decoder := decoder }) := by
  obtain ⟨decoder, decoded⟩ := decodes connection.decoder
  refine ⟨decoder, ?_⟩
  rw [decode, decoded]
  rfl

theorem becomes_decode (stands : Stands sid waiting state connection) (block : Bytes)
    (decoder : HpackDecoder) :
    Becomes sid waiting state connection
      { connection.record (.decode block) with decoder := decoder } := by
  have recorded := becomes_record stands (.decode block) rfl
  exact ⟨{ recorded.moves with }, rfl, recorded.calls, { recorded.stands with }⟩

/-- The stream of a message on a server when it has been opened. -/
def opened (sid : Nat) : StreamState :=
  { streamId := sid, state := .opened, sendWindow := 0, recvWindow := 0 }

theorem becomes_openStream (absent : connection.view sid = none)
    (waits : connection.continuationStream = waiting) :
    Becomes sid waiting (opened sid) connection (connection.openStream sid) where
  moves := moves_openStream connection sid
  promises := rfl
  calls := rfl
  stands := by
    refine ⟨?_, waits⟩
    have new : connection.stream sid = {} := by
      rw [stream, (view_eq_none connection sid).mp absent]
      rfl
    have streams : (connection.openStream sid).streams sid =
        some { connection.stream sid with streamId := sid, state := .opened } :=
      streams_setStream connection sid _
    rw [view, streams, new]
    rfl

end Becoming

/-! ### Header blocks -/

section Blocks

variable (config : Config) {connection : Connection} {sid : Nat} {state : StreamState} {f : Frame}
  {headers : Headers}

theorem receive_eq_processFrame (steady : Steady connection) :
    connection.receive config f = connection.processFrame config f := if_pos steady.alive

/-- A CONTINUATION frame that does not end the block. -/
theorem processFrame_more (stands : Stands sid sid state connection) (nonzero : sid ≠ 0)
    (continues : IsContinuation sid false f) :
    ∃ after, connection.processFrame config f = .ok after ∧
      Becomes sid sid { state with pendingHeaderBlock := state.pendingHeaderBlock ++ f.payload }
        connection after := by
  have recorded := becomes_record stands (.frame f) rfl
  obtain ⟨found, lookup, still⟩ := recorded.stands.found
  refine ⟨_, ?_, recorded.trans (becomes_modifyStream recorded.stands (fun state =>
    { state with pendingHeaderBlock := state.pendingHeaderBlock ++ f.payload })
    (fun _ => rfl) (fun _ => rfl) fun _ => rfl)⟩
  have waiting : (connection.record (.frame f)).continuationStream = sid :=
    recorded.stands.continuationStream
  rw [processFrame, waiting, if_pos nonzero, if_neg (by
    rw [continues.type, continues.streamId]
    exact fun wrong => wrong.elim (absurd rfl) (absurd rfl)), handleContinuation,
    continues.streamId, lookup]
  dsimp only
  rw [if_neg (by rw [continues.endHeaders]; decide)]

/-- A CONTINUATION frame that ends the block. -/
theorem processFrame_last (stands : Stands sid sid state connection) (nonzero : sid ≠ 0)
    (continues : IsContinuation sid true f)
    (decodes : Decodes (state.pendingHeaderBlock ++ f.payload) headers) :
    ∃ prepared, connection.processFrame config f =
        .ok (prepared.applyBlock config sid headers state.endStream) ∧
      Becomes sid 0 { state with pendingHeaderBlock := [] } connection prepared := by
  have recorded := becomes_record stands (.frame f) rfl
  have extended := becomes_modifyStream recorded.stands (fun state =>
    { state with pendingHeaderBlock := state.pendingHeaderBlock ++ f.payload })
    (fun _ => rfl) (fun _ => rfl) fun _ => rfl
  set longer := (connection.record (.frame f)).modifyStream sid fun state =>
    { state with pendingHeaderBlock := state.pendingHeaderBlock ++ f.payload }
  have reset : Becomes sid 0 { state with
      pendingHeaderBlock := state.pendingHeaderBlock ++ f.payload } longer
      { longer with continuationStream := 0 } :=
    ⟨{ Moves.refl sid longer with }, rfl, rfl, extended.stands.view, rfl⟩
  obtain ⟨decoder, decoded⟩ := decode_eq { longer with continuationStream := 0 } decodes
  have read := becomes_decode reset.stands (state.pendingHeaderBlock ++ f.payload) decoder
  have cleared := becomes_modifyStream read.stands (fun state =>
    { state with pendingHeaderBlock := [] }) (fun _ => rfl) (fun _ => rfl) fun _ => rfl
  refine ⟨_, ?_, recorded.trans (extended.trans (reset.trans (read.trans cleared)))⟩
  obtain ⟨found, lookup, still⟩ := recorded.stands.found
  have waiting : (connection.record (.frame f)).continuationStream = sid :=
    recorded.stands.continuationStream
  have pending := congrArg StreamState.pendingHeaderBlock reset.stands.still_stream
  have ends := congrArg StreamState.endStream cleared.stands.still_stream
  rw [processFrame, waiting, if_pos nonzero, if_neg (by
    rw [continues.type, continues.streamId]
    exact fun wrong => wrong.elim (absurd rfl) (absurd rfl)), handleContinuation,
    continues.streamId, lookup]
  dsimp only
  rw [if_pos continues.endHeaders]
  rw [show (({ longer with continuationStream := 0 } : Connection).stream sid).pendingHeaderBlock =
    state.pendingHeaderBlock ++ f.payload from pending, decoded]
  set prepared := modifyStream { record { longer with continuationStream := 0 }
    (.decode (state.pendingHeaderBlock ++ f.payload)) with decoder := decoder } sid
    fun state => { state with pendingHeaderBlock := [] }
  unfold applyBlock
  cases config.mode with
  | server =>
    exact congrArg (fun endStream =>
      Except.ok (prepared.applyHeaders config sid headers endStream)) ends
  | client =>
    exact congrArg (fun endStream =>
      Except.ok (prepared.applyResponseHeaders sid headers endStream)) ends

/-- A HEADERS frame on a server that begins the message. -/
theorem processFrame_request {endHeaders endStream : Bool} {fragment : Bytes}
    (steady : Steady connection) (absent : connection.view sid = none)
    (idle : connection.continuationStream = 0) (nonzero : sid ≠ 0) (server : config.mode = .server)
    (begins : BeginsBlock sid endHeaders endStream f fragment) :
    ∃ prepared, Becomes sid 0 (opened sid) connection prepared ∧
      connection.processFrame config f =
        if endHeaders then prepared.finishBlock config sid fragment endStream
        else .ok (prepared.awaitContinuation sid fragment endStream) := by
  have notTrailers : connection.streamingTrailers sid endStream = false := by
    rw [streamingTrailers, (view_eq_none connection sid).mp absent]
  refine ⟨(connection.record (.frame f)).openStream sid, ?_, ?_⟩
  · have keeps := keeps_record connection (.frame f) rfl
    have opens : Becomes sid 0 (opened sid) (connection.record (.frame f)) _ :=
      becomes_openStream absent idle
    exact ⟨(moves_record connection sid _).trans opens.moves, rfl, keeps.calls, opens.stands⟩
  · rw [← receive_eq_processFrame config steady]
    exact receive_request config connection begins steady.alive idle nonzero server notTrailers

/-- A HEADERS frame on a client whose stream has no data callback. -/
theorem processFrame_response {endHeaders endStream : Bool} {fragment : Bytes}
    (steady : Steady connection) (stands : Stands sid 0 state connection) (nonzero : sid ≠ 0)
    (client : config.mode = .client) (unset : state.dataCb = none)
    (begins : BeginsBlock sid endHeaders endStream f fragment) :
    ∃ prepared, Becomes sid 0 state connection prepared ∧
      connection.processFrame config f =
        if endHeaders then prepared.finishBlock config sid fragment endStream
        else .ok (prepared.awaitContinuation sid fragment endStream) := by
  obtain ⟨found, lookup, rfl⟩ := stands.found
  have none : found.dataCb = none := unset
  refine ⟨connection.record (.frame f), becomes_record stands (.frame f) rfl, ?_⟩
  rw [← receive_eq_processFrame config steady]
  refine receive_response config connection begins steady.alive stands.continuationStream nonzero
    client lookup ?_
  rw [none]
  exact fun both => Bool.noConfusion both.2.1

theorem finishBlock_eq {block : Bytes} {waiting : Nat} (endStream : Bool)
    (stands : Stands sid waiting state connection) (decodes : Decodes block headers) :
    ∃ prepared, connection.finishBlock config sid block endStream =
        .ok (prepared.applyBlock config sid headers endStream) ∧
      Becomes sid waiting state connection prepared := by
  obtain ⟨decoder, decoded⟩ := decode_eq connection decodes
  refine ⟨_, ?_, becomes_decode stands block decoder⟩
  rw [finishBlock, decoded]
  rfl

end Blocks

/-! ### Data -/

section Data

variable (config : Config) {connection : Connection} {sid : Nat} {state : StreamState} {f : Frame}

theorem view_updateWindows (taken : Nat) (other : Nat) :
    (connection.updateWindows sid taken).view other = connection.view other := by
  have modified (connection : Connection) (change : StreamState → StreamState)
      (still : ∀ state, (change state).still = state.still) :
      (connection.modifyStream sid change).view other = connection.view other := by
    by_cases same : other = sid
    · rw [same, view, view, streams_modifyStream, Option.map_map]
      exact congrArg (fun change => (connection.streams sid).map change) (funext still)
    · exact view_modifyStream_of_ne connection sid change other same
  have replenished (connection : Connection) :
      (connection.replenishStream sid).view other = connection.view other := by
    unfold replenishStream
    split
    · rfl
    · exact modified (connection.enqueue _) _ fun _ => rfl
  unfold updateWindows
  rw [replenished, view, streams_replenishConnection]
  exact modified _ _ fun _ => rfl

theorem keeps_updateWindows (taken : Nat) :
    Keeps connection (connection.updateWindows sid taken) := by
  unfold updateWindows replenishStream replenishConnection
  dsimp only
  split <;> split <;> exact ⟨rfl, rfl, rfl⟩

/-- A DATA frame on a stream without a data callback: the data is added to the body and the windows
are updated. -/
theorem processFrame_data {endStream : Bool} (steady : Steady connection)
    (stands : Stands sid 0 state connection) (nonzero : sid ≠ 0) (identifier : sid < 2 ^ 31)
    (unset : state.dataCb = none) (isData : IsData sid endStream f) :
    ∃ prepared frames, connection.processFrame config f =
        .ok (if endStream then prepared.endData config sid else prepared) ∧
      (∀ reply ∈ frames, IsControl reply) ∧ efforts frames < f.effort ∧
      Moves sid f.payload.length frames connection prepared ∧ Bounded prepared ∧
      Keeps connection prepared ∧
      Stands sid 0 { state with body := state.body ++ f.payload } prepared := by
  have recorded := becomes_record stands (.frame f) rfl
  have added := becomes_modifyStream recorded.stands (fun state =>
    { state with body := state.body ++ f.payload }) (fun _ => rfl) (fun _ => rfl) fun _ => rfl
  obtain ⟨found, lookup, rfl⟩ := recorded.stands.found
  have none : found.dataCb = none := unset
  have grown := recorded.trans added
  set carried := (connection.record (.frame f)).modifyStream sid fun state =>
    { state with body := state.body ++ f.payload }
  obtain ⟨found', lookup', still'⟩ := added.stands.found
  obtain ⟨frames, controls, few, moves, bounded⟩ := moves_updateWindows carried sid f.payload.length
    nonzero identifier (by rw [lookup']; rfl) (grown.moves.bounded (fun _ => rfl) steady.bounded)
    isData.short
  have keeps := @keeps_updateWindows carried sid f.payload.length
  have effort : f.effort = 3 := if_pos isData.type
  refine ⟨carried.updateWindows sid f.payload.length, frames, ?_, controls, by omega,
    grown.moves.before moves, bounded, ⟨keeps.promises.trans grown.promises,
      keeps.calls.trans grown.calls,
      keeps.continuationStream⟩, ?_, ?_⟩
  · rw [processFrame_idle config connection f stands.continuationStream, isData.type]
    dsimp only
    rw [handleData, isData.streamId, if_neg nonzero, lookup, stripPadding,
      if_neg (by rw [isData.padded]; decide), isData.endStream]
    dsimp only
    rw [deliverData, none]
  · rw [view_updateWindows]
    exact added.stands.view
  · exact keeps.continuationStream.trans added.stands.continuationStream

end Data

/-! ### The end of a message -/

/-- The configuration of a server that has a request handler and, if it is given one, a start
handler. -/
def serverConfig (handler : Request → Response) (start : Option StartHandler) : Config :=
  { mode := .server, requestHandler := some handler, requestStartHandler := start }

def clientConfig : Config := { mode := .client }

section Ends

variable {connection : Connection} {sid : Nat} {state : StreamState}

/-- A request is given to the handler, and the answer is sent. -/
theorem dispatchRequest_eq (handler : Request → Response) (start : Option StartHandler)
    (steady : Steady connection) (stands : Stands sid 0 state connection) :
    ∃ frames encoder, (encoder : HpackEncoder).maxTableSize < 2 ^ 64 ∧
      frames = messageFrames sid 16384
        (responseMessage (handler { state.req with bd := state.body }))
        (connection.encoder.encode (responseHeaders
          (handler { state.req with bd := state.body }))).1
        (encoder.encode (copiedHeaders []
          (handler { state.req with bd := state.body }).trailers)).1 ∧
      Moves sid 0 frames connection
        (connection.dispatchRequest (serverConfig handler start) sid) ∧
      Calls [.requestHandler { state.req with bd := state.body }] connection
        (connection.dispatchRequest (serverConfig handler start) sid) ∧
      (connection.dispatchRequest (serverConfig handler start) sid).continuationStream = 0 := by
  have recorded := becomes_record stands (.dispatch sid) rfl
  have filled := becomes_modifyStream recorded.stands (fun state =>
    { state with req := { state.req with bd := state.body }, body := [] })
    (fun _ => rfl) (fun _ => rfl) fun _ => rfl
  set prepared := (connection.record (.dispatch sid)).modifyStream sid fun state =>
    { state with req := { state.req with bd := state.body }, body := [] }
  have req : (prepared.stream sid).req = { state.req with bd := state.body } :=
    congrArg StreamState.req filled.stands.still_stream
  have shape : connection.dispatchRequest (serverConfig handler start) sid =
      (prepared.record (.requestHandler (prepared.stream sid).req)).doSubmitResponse sid
        (handler (prepared.stream sid).req) := rfl
  rw [shape, req]
  set asked := prepared.record (.requestHandler { state.req with bd := state.body })
  have begins := (recorded.trans filled).moves.trans
    (moves_record prepared sid (.requestHandler { state.req with bd := state.body }))
  have quiet := quiet_doSubmitResponse asked sid (handler { state.req with bd := state.body })
  obtain ⟨encoder, size, sends⟩ :=
    moves_doSubmitResponse asked sid (handler { state.req with bd := state.body })
  rw [show asked.peerMaxFrameSize = 16384 from steady.peerMaxFrameSize] at sends
  have word : encoder.maxTableSize < 2 ^ 64 := size ▸ steady.maxTableSize
  refine ⟨_, encoder, word, rfl, begins.before sends, ?_, ?_⟩
  · refine Calls.andThen ?_ quiet.calls
    have called : Calls [] connection prepared :=
      (recorded.trans filled).calls.trans (List.append_nil _).symm
    exact called.trans (calls_record prepared (.requestHandler { state.req with bd := state.body }))
  · exact quiet.continuationStream.trans filled.stands.continuationStream

/-- The promise of a response is completed. -/
theorem completePromise_eq {ref : PromiseRef} (stands : Stands sid 0 state connection)
    (owned : state.promise = some ref) :
    Moves sid 0 [] connection (connection.completePromise sid) ∧
      (connection.completePromise sid).continuationStream = 0 ∧
      (connection.completePromise sid).promises = fun other =>
        if other = ref then
          { connection.promises ref with
            resp := { state.resp with bd := state.body }
            complete := true }
        else connection.promises other := by
  have filled := becomes_modifyStream stands (fun state =>
    { state with resp := { state.resp with bd := state.body }, body := [] })
    (fun _ => rfl) (fun _ => rfl) fun _ => rfl
  set prepared := connection.modifyStream sid fun state =>
    { state with resp := { state.resp with bd := state.body }, body := [] } with preparedEq
  have resp : (prepared.stream sid).resp = { state.resp with bd := state.body } :=
    congrArg StreamState.resp filled.stands.still_stream
  have promise : (prepared.stream sid).promise = some ref :=
    (congrArg StreamState.promise filled.stands.still_stream).trans owned
  set kept := (prepared.setPromise ref { prepared.promises ref with
    resp := (prepared.stream sid).resp, complete := true }).modifyStream sid
      fun state => { state with resp := movedFrom state.resp }
  have moves : Moves sid 0 [] connection kept := by
    have set : Moves sid 0 [] prepared (prepared.setPromise ref { prepared.promises ref with
        resp := (prepared.stream sid).resp, complete := true }) :=
      { Moves.refl sid prepared with }
    exact (filled.moves.trans set).trans (moves_modifyStream _ sid
      (fun state => { state with resp := movedFrom state.resp }) (fun _ => rfl) fun _ => rfl)
  have shape : connection.completePromise sid =
      if (prepared.promises ref).waiter then
        record { kept with completedPromises := kept.completedPromises ++ [ref] } (.resume ref)
      else { kept with completedPromises := kept.completedPromises ++ [ref] } := by
    rw [completePromise, ← preparedEq]
    dsimp only
    rw [promise]
  rw [shape, ← resp]
  split
  · exact ⟨{ moves with }, stands.continuationStream, rfl⟩
  · exact ⟨{ moves with }, stands.continuationStream, rfl⟩

end Ends

end Connection

end AsyncNet.Http
