/-
This file shows that it does not matter to an HTTP/2 session when its output is taken. Two
connections agree if one is the other after some of its output has left: all that they have
written, gone or waiting, is the same, and so is everything else. Nothing that a session does
looks at its output, so two that agree still do after the same call or the same frame.
-/

import AsyncNet.Http.Http2Segmentation

namespace AsyncNet.Http

open Library H2

namespace Connection

/-- All output has left. -/
def flushed (connection : Connection) : Connection :=
  { connection with sent := connection.sent ++ connection.outputBuf, outputBuf := [] }

/-- The connections differ at most in how much of the output has left. -/
def Agree (left right : Connection) : Prop := left.flushed = right.flushed

theorem agree_flushed (connection : Connection) : Agree connection.flushed connection := by
  show { connection with
    sent := connection.sent ++ connection.outputBuf ++ [], outputBuf := [] } = _
  rw [List.append_nil]
  rfl

section Agree

variable {left right : Connection} (agree : Agree left right)
include agree

/-- What does not depend on the output is the same. -/
theorem Agree.field {Value : Type} (value : Connection → Value)
    (unaffected : ∀ connection, value connection.flushed = value connection) :
    value left = value right := by
  have same : left.flushed = right.flushed := agree
  rw [← unaffected left, same, unaffected]

/-- A change that does not touch the output is made to both. -/
theorem Agree.change (change : Connection → Connection)
    (commutes : ∀ connection, (change connection).flushed = change connection.flushed) :
    Agree (change left) (change right) := by
  have same : left.flushed = right.flushed := agree
  unfold Agree
  rw [commutes, same, commutes]

theorem Agree.streams : left.streams = right.streams := agree.field _ fun _ => rfl

theorem Agree.stream (sid : Nat) : left.stream sid = right.stream sid :=
  agree.field (fun connection => connection.stream sid) fun _ => rfl

theorem Agree.promises : left.promises = right.promises := agree.field _ fun _ => rfl

theorem Agree.alive : left.alive = right.alive := agree.field _ fun _ => rfl

theorem Agree.continuationStream : left.continuationStream = right.continuationStream := agree.field _ fun _ => rfl

theorem Agree.decoder : left.decoder = right.decoder := agree.field _ fun _ => rfl

theorem Agree.output : left.sent ++ left.outputBuf = right.sent ++ right.outputBuf :=
  congrArg sent (show left.flushed = right.flushed from agree)

/-! ### What is sent -/

theorem Agree.enqueue (data : Bytes) : Agree (left.enqueue data) (right.enqueue data) := by
  have written : left.sent ++ (left.outputBuf ++ data) = right.sent ++ (right.outputBuf ++ data) :=
    by rw [← List.append_assoc, agree.output, List.append_assoc]
  have rest : { left.flushed with sent := left.sent ++ (left.outputBuf ++ data) } =
      { right.flushed with sent := right.sent ++ (right.outputBuf ++ data) } := by
    rw [agree, written]
  exact rest

theorem Agree.goaway (error : ErrorCode) (debug : Bytes) :
    Agree (left.goaway error debug) (right.goaway error debug) := by
  have last : left.lastClientStream = right.lastClientStream := agree.field _ fun _ => rfl
  unfold Connection.goaway
  rw [last]
  exact (agree.enqueue _).change (fun connection => { connection with alive := false }) fun _ => rfl

theorem Agree.modifyStream (sid : Nat) (change : StreamState → StreamState) :
    Agree (left.modifyStream sid change) (right.modifyStream sid change) :=
  agree.change (fun connection => connection.modifyStream sid change) fun _ => rfl

theorem Agree.setPromise (ref : PromiseRef) (promise : ResponsePromise) :
    Agree (left.setPromise ref promise) (right.setPromise ref promise) :=
  agree.change (fun connection => connection.setPromise ref promise) fun _ => rfl

theorem Agree.record (event : Event) : Agree (left.record event) (right.record event) :=
  agree.change (fun connection => connection.record event) fun _ => rfl

theorem Agree.sendHeaders (sid : Nat) (flags : UInt8) (headers : Headers) :
    Agree (left.sendHeaders sid flags headers) (right.sendHeaders sid flags headers) := by
  have frames := agree.field (fun connection => (connection.buildHeadersFrame sid flags headers).1)
    fun _ => rfl
  have encoded := agree.change
    (fun connection => { connection with encoder := (connection.encoder.encode headers).2 })
    fun _ => rfl
  have sent := encoded.enqueue (left.buildHeadersFrame sid flags headers).1
  have right' : right.sendHeaders sid flags headers =
      ({ right with encoder := (right.encoder.encode headers).2 } : Connection).enqueue
        (left.buildHeadersFrame sid flags headers).1 := by
    rw [show _ = _ from frames]
    rfl
  rw [right']
  exact sent

theorem Agree.sendBody (sid : Nat) (data : Bytes) (noEndStream : Bool) :
    Agree (left.sendBody sid data noEndStream) (right.sendBody sid data noEndStream) := by
  have size : left.peerMaxFrameSize = right.peerMaxFrameSize := agree.field _ fun _ => rfl
  unfold Connection.sendBody buildDataFrames
  rw [size]
  split
  · exact agree.enqueue _
  · exact agree

theorem Agree.sendTrailers (sid : Nat) (trailers : Headers) :
    Agree (left.sendTrailers sid trailers) (right.sendTrailers sid trailers) := by
  unfold Connection.sendTrailers
  split
  · exact agree.sendHeaders sid _ _
  · exact agree

theorem Agree.doSubmitResponse (sid : Nat) (resp : Response) :
    Agree (left.doSubmitResponse sid resp) (right.doSubmitResponse sid resp) :=
  (((agree.sendHeaders sid _ _).sendBody sid _ _).sendTrailers sid _).modifyStream sid _

theorem Agree.doSubmitResponseHeaders (sid : Nat) (resp : Response) :
    Agree (left.doSubmitResponseHeaders sid resp) (right.doSubmitResponseHeaders sid resp) :=
  agree.sendHeaders sid _ _

theorem Agree.doSubmitData (sid : Nat) (data : Bytes) (endStream : Bool) :
    Agree (left.doSubmitData sid data endStream) (right.doSubmitData sid data endStream) := by
  have size : left.peerMaxFrameSize = right.peerMaxFrameSize := agree.field _ fun _ => rfl
  unfold Connection.doSubmitData
  rw [size]
  dsimp only
  split
  · exact (agree.enqueue _).modifyStream sid _
  · exact agree.enqueue _

theorem Agree.doSubmitTrailers (sid : Nat) (trailers : Headers) :
    Agree (left.doSubmitTrailers sid trailers) (right.doSubmitTrailers sid trailers) :=
  (agree.sendHeaders sid _ _).modifyStream sid _

theorem Agree.doSubmitRequest (req : Request) (promise : Option PromiseRef)
    (noEndStream : Bool) :
    Agree (left.doSubmitRequest req promise noEndStream)
      (right.doSubmitRequest req promise noEndStream) := by
  have next : left.nextStreamId = right.nextStreamId := agree.field _ fun _ => rfl
  have opened := agree.change (fun connection =>
    { connection with nextStreamId := connection.nextStreamId + 2 }.setStream
      connection.nextStreamId { connection.stream connection.nextStreamId with
        streamId := connection.nextStreamId, state := .opened, promise }) fun _ => rfl
  have sent := (opened.sendHeaders left.nextStreamId
    (if req.bd ≠ [] ∨ noEndStream then 0 else Flag.endStream) (requestHeaders req)).sendBody
    left.nextStreamId req.bd false
  unfold Connection.doSubmitRequest
  exact next ▸ sent

theorem Agree.doSubmitPush (parentStreamId : Nat) (promisedReq : Request) (pushResp : Response) :
    Agree (left.doSubmitPush parentStreamId promisedReq pushResp)
      (right.doSubmitPush parentStreamId promisedReq pushResp) := by
  have enabled : left.peerEnablePush = right.peerEnablePush := agree.field _ fun _ => rfl
  have next : left.nextPushStreamId = right.nextPushStreamId := agree.field _ fun _ => rfl
  have encoder : left.encoder = right.encoder := agree.field _ fun _ => rfl
  unfold Connection.doSubmitPush
  by_cases off : right.peerEnablePush = false
  · rw [if_pos off, if_pos (enabled.trans off)]
    exact agree
  · rw [if_neg off, if_neg (enabled ▸ off), next, encoder]
    obtain ⟨block, encoder⟩ := right.encoder.encode (requestHeaders promisedReq)
    have encoded := agree.change (fun connection =>
      { connection with nextPushStreamId := right.nextPushStreamId + 2, encoder }) fun _ => rfl
    have promised := encoded.enqueue (buildPushPromise parentStreamId right.nextPushStreamId block)
    have opened := (promised.change (fun connection =>
      connection.setStream right.nextPushStreamId { connection.stream right.nextPushStreamId with
        streamId := right.nextPushStreamId, state := .halfClosedLocal }) fun _ => rfl)
    exact opened.doSubmitResponse right.nextPushStreamId pushResp

theorem Agree.flush : Agree left.flushed right.flushed :=
  (agree_flushed left).trans (agree.trans (agree_flushed right).symm)

theorem Agree.command (call : Command) : Agree (left.command call) (right.command call) := by
  cases call with
  | setDataCallback sid cb => exact agree.modifyStream sid _
  | clearDataCallback sid => exact agree.modifyStream sid _
  | submitResponse sid resp => exact agree.doSubmitResponse sid resp
  | submitResponseHeaders sid resp => exact agree.doSubmitResponseHeaders sid resp
  | submitData sid data endStream => exact agree.doSubmitData sid data endStream
  | submitTrailers sid trailers => exact agree.doSubmitTrailers sid trailers
  | submitRequest req promise noEndStream => exact agree.doSubmitRequest req promise noEndStream
  | submitPush parentStreamId promisedReq pushResp =>
    exact agree.doSubmitPush parentStreamId promisedReq pushResp
  | getPendingOutput => exact agree.flush
  | takeCompletedPromises =>
    exact agree.change (fun connection => { connection with completedPromises := [] }) fun _ => rfl

end Agree

theorem Agree.commands {left right : Connection} (agree : Agree left right)
    (calls : List Command) : Agree (left.commands calls) (right.commands calls) := by
  induction calls generalizing left right with
  | nil => exact agree
  | cons call calls inductionHypothesis => exact inductionHypothesis (agree.command call)

theorem Agree.foldl_doSubmitPush {left right : Connection} (agree : Agree left right) (sid : Nat)
    (pushes : List (Request × Response)) :
    Agree (pushes.foldl (fun connection push => connection.doSubmitPush sid push.1 push.2) left)
      (pushes.foldl (fun connection push => connection.doSubmitPush sid push.1 push.2) right) := by
  induction pushes generalizing left right with
  | nil => exact agree
  | cons push pushes inductionHypothesis =>
    exact inductionHypothesis (agree.doSubmitPush sid push.1 push.2)

/-! ### What is received -/

/-- Both computations fault, or both succeed and agree. -/
def AgreeOrFault : Except Fault Connection → Except Fault Connection → Prop
  | .ok left, .ok right => Agree left right
  | .error left, .error right => left = right
  | _, _ => False

section Received

variable {left right : Connection} (agree : Agree left right) (config : Config)
include agree

theorem Agree.callDataCallback (cb : DataCallback) (sid : Nat) (data : Bytes) (endStream : Bool) :
    Agree (left.callDataCallback cb sid data endStream)
      (right.callDataCallback cb sid data endStream) :=
  (agree.record _).commands _

theorem Agree.callStreamingRequestHandler (sid : Nat) :
    (left.callStreamingRequestHandler config sid).1 =
        (right.callStreamingRequestHandler config sid).1 ∧
      Agree (left.callStreamingRequestHandler config sid).2
        (right.callStreamingRequestHandler config sid).2 := by
  unfold Connection.callStreamingRequestHandler
  rw [agree.stream sid]
  split
  · exact ⟨rfl, agree⟩
  · exact ⟨rfl, (agree.record _).commands _⟩

theorem Agree.pushAssociated (sid : Nat) :
    Agree (left.pushAssociated config sid) (right.pushAssociated config sid) := by
  have enabled : left.peerEnablePush = right.peerEnablePush := agree.field _ fun _ => rfl
  unfold Connection.pushAssociated
  rw [agree.stream sid, enabled]
  split
  · exact agree
  · split
    · exact (agree.record _).foldl_doSubmitPush sid _
    · exact agree

theorem Agree.answerRequest (sid : Nat) :
    Agree (left.answerRequest config sid) (right.answerRequest config sid) := by
  unfold Connection.answerRequest
  rw [agree.stream sid]
  split
  · exact agree.doSubmitResponse sid _
  · exact ((agree.record _).doSubmitResponse sid _).pushAssociated config sid

theorem Agree.dispatchRequest (sid : Nat) :
    Agree (left.dispatchRequest config sid) (right.dispatchRequest config sid) := by
  have offered := ((agree.record (.dispatch sid)).modifyStream sid fun state =>
    { state with req := { state.req with bd := state.body }, body := [] }
      ).callStreamingRequestHandler config sid
  unfold Connection.dispatchRequest
  dsimp only
  rw [offered.1]
  split
  · exact offered.2
  · exact offered.2.answerRequest config sid

theorem Agree.completePromise (sid : Nat) :
    Agree (left.completePromise sid) (right.completePromise sid) := by
  have filled := agree.modifyStream sid fun state =>
    { state with resp := { state.resp with bd := state.body }, body := [] }
  unfold Connection.completePromise
  dsimp only at filled ⊢
  revert filled
  generalize left.modifyStream sid _ = first
  generalize right.modifyStream sid _ = second
  intro filled
  rw [filled.stream sid, filled.promises]
  cases (second.stream sid).promise with
  | none => exact filled
  | some ref =>
    have completed := ((filled.setPromise ref { second.promises ref with
        resp := (second.stream sid).resp, complete := true }).modifyStream sid fun state =>
      { state with resp := movedFrom state.resp }).change (fun connection =>
        { connection with completedPromises := connection.completedPromises ++ [ref] }) fun _ => rfl
    dsimp only
    split
    · exact completed.record _
    · exact completed

theorem Agree.replenishConnection : Agree left.replenishConnection right.replenishConnection := by
  have window : left.connRecvWindow = right.connRecvWindow := agree.field _ fun _ => rfl
  unfold Connection.replenishConnection
  rw [window]
  split
  · exact agree
  · exact (agree.enqueue _).change (fun connection => { connection with connRecvWindow := _ })
      fun _ => rfl

theorem Agree.replenishStream (sid : Nat) :
    Agree (left.replenishStream sid) (right.replenishStream sid) := by
  unfold Connection.replenishStream
  rw [agree.stream sid]
  split
  · exact agree
  · exact (agree.enqueue _).modifyStream sid _

theorem Agree.updateWindows (sid length : Nat) :
    Agree (left.updateWindows sid length) (right.updateWindows sid length) := by
  have taken := agree.change (fun connection =>
    { connection with connRecvWindow := connection.connRecvWindow - length }) fun _ => rfl
  exact ((taken.modifyStream sid _).replenishConnection).replenishStream sid

theorem Agree.deliverData (sid : Nat) (state : StreamState) (data : Bytes) (endStream : Bool) :
    Agree (left.deliverData sid state data endStream)
      (right.deliverData sid state data endStream) := by
  unfold Connection.deliverData
  split
  · exact agree.callDataCallback _ sid data endStream
  · exact agree.modifyStream sid _

theorem Agree.endData (sid : Nat) : Agree (left.endData config sid) (right.endData config sid) := by
  have ended := agree.modifyStream sid fun state => { state with endStream := true }
  unfold Connection.endData
  dsimp only
  rw [ended.stream sid]
  split
  · split
    · exact ended
    · exact ended.dispatchRequest config sid
  · exact ended.completePromise sid

theorem Agree.handleData (f : Frame) :
    Agree (left.handleData config f) (right.handleData config f) := by
  unfold Connection.handleData
  dsimp only
  rw [agree.streams]
  split
  · exact agree.goaway _ _
  · split
    · exact agree.enqueue _
    · split
      · exact agree.goaway _ _
      · split
        · exact ((agree.deliverData _ _ _ _).updateWindows _ _).endData config _
        · exact (agree.deliverData _ _ _ _).updateWindows _ _

theorem Agree.callRequestStartHandler (handler : Nat → Request → Bool → Bool × List Command)
    (sid : Nat) (endStream : Bool) :
    (left.callRequestStartHandler handler sid endStream).1 =
        (right.callRequestStartHandler handler sid endStream).1 ∧
      Agree (left.callRequestStartHandler handler sid endStream).2
        (right.callRequestStartHandler handler sid endStream).2 := by
  unfold Connection.callRequestStartHandler
  dsimp only
  rw [agree.stream sid]
  have called := (agree.record (.requestStartHandler sid (right.stream sid).req endStream)).commands
    (handler sid (right.stream sid).req endStream).2
  split
  · exact ⟨rfl, called.modifyStream sid _⟩
  · exact ⟨rfl, called⟩

theorem Agree.applyHeaders (sid : Nat) (headers : Headers) (endStream : Bool) :
    Agree (left.applyHeaders config sid headers endStream)
      (right.applyHeaders config sid headers endStream) := by
  have applied := agree.modifyStream sid fun state =>
    { state with
      headersComplete := true
      req := { headers.foldl applyRequestHeader state.req with ver := .http2 } }
  unfold Connection.applyHeaders
  dsimp only
  split
  · have ended := applied.modifyStream sid fun state => { state with endStream := true }
    split
    · exact ended.dispatchRequest config sid
    · rename_i handler _
      have offered := ended.callRequestStartHandler handler sid true
      rw [offered.1]
      split
      · exact offered.2
      · exact offered.2.dispatchRequest config sid
  · split
    · exact applied
    · exact (applied.callRequestStartHandler _ sid false).2

theorem Agree.applyResponseHeaders (sid : Nat) (headers : Headers) (endStream : Bool) :
    Agree (left.applyResponseHeaders sid headers endStream)
      (right.applyResponseHeaders sid headers endStream) := by
  have applied := agree.modifyStream sid fun state =>
    { state with
      headersComplete := true
      resp := { headers.foldl applyResponseHeader state.resp with ver := .http2 } }
  unfold Connection.applyResponseHeaders
  dsimp only
  split
  · exact (applied.modifyStream sid _).completePromise sid
  · exact applied

/-- A block that is decoded first. -/
theorem Agree.decodeThen (block : Bytes) (next : Headers → Connection → Except Fault Connection)
    (nexts : ∀ headers {left right : Connection}, Agree left right →
      AgreeOrFault (next headers left) (next headers right)) :
    AgreeOrFault (left.decode block >>= fun decoded => next decoded.1 decoded.2)
      (right.decode block >>= fun decoded => next decoded.1 decoded.2) := by
  unfold Connection.decode
  rw [agree.decoder]
  cases right.decoder.decode block with
  | error fault => exact rfl
  | ok decoded =>
    exact nexts decoded.1 ((agree.record (.decode block)).change
      (fun connection => { connection with decoder := decoded.2 }) fun _ => rfl)

theorem Agree.awaitContinuation (sid : Nat) (block : Bytes) (endStream : Bool) :
    Agree (left.awaitContinuation sid block endStream)
      (right.awaitContinuation sid block endStream) :=
  (agree.modifyStream sid _).change
    (fun connection => { connection with continuationStream := sid }) fun _ => rfl

theorem Agree.endStreaming (sid : Nat) : Agree (left.endStreaming sid) (right.endStreaming sid) := by
  unfold Connection.endStreaming
  rw [agree.stream sid]
  split
  · exact agree.modifyStream sid _
  · exact (agree.callDataCallback _ sid [] true).modifyStream sid _

theorem Agree.openStream (sid : Nat) : Agree (left.openStream sid) (right.openStream sid) :=
  agree.change (fun connection => connection.openStream sid) fun _ => rfl

theorem Agree.handleRequestHeaders (sid : Nat) (block : Bytes) (endHeaders endStream : Bool) :
    AgreeOrFault (left.handleRequestHeaders config sid block endHeaders endStream)
      (right.handleRequestHeaders config sid block endHeaders endStream) := by
  have trailers : left.streamingTrailers sid endStream = right.streamingTrailers sid endStream :=
    agree.field (fun connection => connection.streamingTrailers sid endStream) fun _ => rfl
  unfold Connection.handleRequestHeaders
  rw [trailers]
  split
  · exact agree.endStreaming sid
  · split
    · exact (agree.openStream sid).decodeThen block
        (fun headers connection => .ok (connection.applyHeaders config sid headers endStream))
        fun headers _ _ agree => agree.applyHeaders config sid headers endStream
    · exact (agree.openStream sid).awaitContinuation sid block endStream

theorem Agree.handleResponseHeaders (sid : Nat) (block : Bytes) (endHeaders endStream : Bool) :
    AgreeOrFault (left.handleResponseHeaders sid block endHeaders endStream)
      (right.handleResponseHeaders sid block endHeaders endStream) := by
  unfold Connection.handleResponseHeaders
  rw [agree.streams]
  have decodes {left right : Connection} (agree : Agree left right) :=
    agree.decodeThen block
      (fun headers connection => .ok (connection.applyResponseHeaders sid headers endStream))
      fun headers _ _ agree => agree.applyResponseHeaders sid headers endStream
  cases right.streams sid with
  | none => exact agree
  | some state =>
    dsimp only
    split
    · exact decodes (agree.callDataCallback _ sid [] true)
    · split
      · exact decodes agree
      · exact agree.awaitContinuation sid block endStream

theorem Agree.handleHeaders (f : Frame) :
    AgreeOrFault (left.handleHeaders config f) (right.handleHeaders config f) := by
  unfold Connection.handleHeaders
  dsimp only
  split
  · exact agree.goaway _ _
  · split
    · exact agree.goaway _ _
    · split
      · exact agree.handleRequestHeaders config _ _ _ _
      · exact agree.handleResponseHeaders _ _ _ _

theorem Agree.handleContinuation (f : Frame) :
    AgreeOrFault (left.handleContinuation config f) (right.handleContinuation config f) := by
  unfold Connection.handleContinuation
  dsimp only
  rw [agree.streams]
  cases right.streams f.hdr.streamId with
  | none => exact agree.goaway _ _
  | some state =>
    have grown := agree.modifyStream f.hdr.streamId fun state =>
      { state with pendingHeaderBlock := state.pendingHeaderBlock ++ f.payload }
    have idle := grown.change (fun connection => { connection with continuationStream := 0 })
      fun _ => rfl
    dsimp only
    split
    · rw [idle.stream f.hdr.streamId]
      cases config.mode with
      | server =>
        refine idle.decodeThen _ (fun headers connection =>
          let connection := connection.modifyStream f.hdr.streamId fun state =>
            { state with pendingHeaderBlock := [] }
          .ok (connection.applyHeaders config f.hdr.streamId headers
            (connection.stream f.hdr.streamId).endStream)) fun headers _ _ agree => ?_
        have cleared := agree.modifyStream f.hdr.streamId fun state =>
          { state with pendingHeaderBlock := [] }
        dsimp only
        rw [cleared.stream f.hdr.streamId]
        exact cleared.applyHeaders config _ headers _
      | client =>
        refine idle.decodeThen _ (fun headers connection =>
          let connection := connection.modifyStream f.hdr.streamId fun state =>
            { state with pendingHeaderBlock := [] }
          .ok (connection.applyResponseHeaders f.hdr.streamId headers
            (connection.stream f.hdr.streamId).endStream)) fun headers _ _ agree => ?_
        have cleared := agree.modifyStream f.hdr.streamId fun state =>
          { state with pendingHeaderBlock := [] }
        dsimp only
        rw [cleared.stream f.hdr.streamId]
        exact cleared.applyResponseHeaders _ headers _
    · exact grown

theorem Agree.handlePing (f : Frame) : Agree (left.handlePing f) (right.handlePing f) := by
  unfold Connection.handlePing
  split
  · exact agree.goaway _ _
  · split
    · exact agree.goaway _ _
    · split
      · exact agree
      · exact agree.enqueue _

theorem Agree.handleWindowUpdate (f : Frame) :
    Agree (left.handleWindowUpdate f) (right.handleWindowUpdate f) := by
  unfold Connection.handleWindowUpdate
  dsimp only
  split
  · exact agree.goaway _ _
  · split
    · split
      · exact agree.goaway _ _
      · exact agree.enqueue _
    · split
      · have opened := agree.change (fun connection => { connection with
          connSendWindow := connection.connSendWindow + parseWindowUpdate f.payload })
          fun _ => rfl
        have window : left.connSendWindow = right.connSendWindow := agree.field _ fun _ => rfl
        rw [window] at opened ⊢
        split
        · exact opened.goaway _ _
        · exact opened
      · rw [agree.streams]
        cases right.streams f.hdr.streamId with
        | none => exact agree
        | some state =>
          have opened := agree.modifyStream f.hdr.streamId fun state =>
            { state with sendWindow := state.sendWindow + parseWindowUpdate f.payload }
          dsimp only
          split
          · exact opened.enqueue _
          · exact opened

theorem Agree.handleRstStream (f : Frame) :
    Agree (left.handleRstStream f) (right.handleRstStream f) := by
  have erased {left right : Connection} (agree : Agree left right) :=
    agree.change (fun connection => connection.eraseStream f.hdr.streamId) fun _ => rfl
  unfold Connection.handleRstStream
  dsimp only
  rw [agree.streams, agree.promises]
  split
  · exact agree.goaway _ _
  · cases right.streams f.hdr.streamId with
    | none => exact agree
    | some state =>
      dsimp only
      cases state.promise with
      | none => exact erased agree
      | some ref =>
        have failed := (agree.setPromise ref { right.promises ref with
          error := true, complete := true }).change (fun connection => { connection with
            completedPromises := connection.completedPromises ++ [ref] }) fun _ => rfl
        dsimp only
        split
        · exact erased (failed.record _)
        · exact erased failed

theorem Agree.handlePushPromise (f : Frame) :
    AgreeOrFault (left.handlePushPromise config f) (right.handlePushPromise config f) := by
  unfold Connection.handlePushPromise
  split
  · exact agree.goaway _ _
  · dsimp only
    refine agree.decodeThen _ (fun headers connection =>
      let info : PushPromiseInfo :=
        { promisedStreamId := (parsePushPromise f.payload).1
          promisedRequest := { headers.foldl applyPromisedHeader {} with ver := .http2 } }
      let connection := connection.promiseStream info
      .ok (if config.pushHandler then connection.record (.pushHandler info) else connection))
      fun headers left right agree => ?_
    have promised := agree.change (fun connection => connection.promiseStream
      { promisedStreamId := (parsePushPromise f.payload).1
        promisedRequest := { headers.foldl applyPromisedHeader {} with ver := .http2 } })
      fun _ => rfl
    dsimp only
    split
    · exact promised.record _
    · exact promised

end Received

theorem Agree.applySettings {left right : Connection} (agree : Agree left right)
    (settings : List SettingEntry) :
    Agree (left.applySettings settings) (right.applySettings settings) := by
  induction settings generalizing left right with
  | nil => exact agree.enqueue _
  | cons setting settings inductionHypothesis =>
    unfold Connection.applySettings
    cases setting.id with
    | headerTableSize =>
      exact inductionHypothesis (agree.change (fun connection => { connection with
        encoder := connection.encoder.setMaxTableSize setting.value }) fun _ => rfl)
    | initialWindowSize =>
      dsimp only
      split
      · exact agree.goaway _ _
      · exact inductionHypothesis (agree.change (fun connection => { connection with
          streams := fun sid => (connection.streams sid).map fun state =>
            { state with
              sendWindow := state.sendWindow +
                ((setting.value : Int) - connection.peerInitialWindowSize) }
          peerInitialWindowSize := setting.value }) fun _ => rfl)
    | maxFrameSize =>
      dsimp only
      split
      · exact agree.goaway _ _
      · exact inductionHypothesis (agree.change (fun connection => { connection with
          peerMaxFrameSize := setting.value }) fun _ => rfl)
    | enablePush =>
      exact inductionHypothesis (agree.change (fun connection => { connection with
        peerEnablePush := decide (setting.value ≠ 0) }) fun _ => rfl)
    | _ => exact inductionHypothesis agree

theorem Agree.handleSettings {left right : Connection} (agree : Agree left right) (f : Frame) :
    Agree (left.handleSettings f) (right.handleSettings f) := by
  unfold Connection.handleSettings
  split
  · exact agree.goaway _ _
  · split
    · exact agree
    · split
      · exact agree.goaway _ _
      · exact agree.applySettings _

/-- A frame leaves connections that agree in agreement. -/
theorem Agree.processFrame {left right : Connection} (agree : Agree left right) (config : Config)
    (f : Frame) : AgreeOrFault (left.processFrame config f) (right.processFrame config f) := by
  have recorded := agree.record (.frame f)
  unfold Connection.processFrame
  dsimp only
  rw [recorded.continuationStream]
  split
  · split
    · exact recorded.goaway _ _
    · exact recorded.handleContinuation config f
  · split
    · exact recorded.handleData config f
    · exact recorded.handleHeaders config f
    · exact recorded
    · exact recorded.handleRstStream f
    · exact recorded.handleSettings f
    · exact recorded.handlePushPromise config f
    · exact recorded.handlePing f
    · exact recorded.change (fun connection => connection.handleGoaway) fun _ => rfl
    · exact recorded.handleWindowUpdate f
    · exact recorded.goaway _ _
    · exact recorded

end Connection

namespace Session

/-- All output of a session has left. -/
def flushed (session : Session) : Session :=
  { session with connection := session.connection.flushed }

theorem flushed_flushed (session : Session) : session.flushed.flushed = session.flushed := by
  show { session.flushed with connection := session.connection.flushed.flushed } = _
  rw [Connection.agree_flushed session.connection]
  rfl

theorem map_flushed_process (session : Session) (f : Frame) :
    (session.flushed.process f).map flushed = (session.process f).map flushed := by
  have same := (Connection.agree_flushed session.connection).processFrame session.config f
  have config : session.flushed.config = session.config := rfl
  unfold process
  rw [config]
  show ((session.connection.flushed.processFrame session.config f).map _).map flushed = _
  revert same
  cases session.connection.flushed.processFrame session.config f with
  | error fault =>
    cases session.connection.processFrame session.config f with
    | error other => exact fun same => congrArg Except.error same
    | ok next => exact fun wrong => wrong.elim
  | ok next =>
    cases session.connection.processFrame session.config f with
    | error fault => exact fun wrong => wrong.elim
    | ok other =>
      intro same
      exact congrArg (fun connection => Except.ok { session with connection }) same

theorem map_flushed_feedByte (session : Session) (byte : UInt8) :
    (session.flushed.feedByte byte).map flushed = (session.feedByte byte).map flushed := by
  unfold feedByte
  show (if session.connection.alive = false then Except.ok session.flushed
    else drain { session.flushed with reader := session.reader.push byte }).map flushed = _
  split
  · exact congrArg Except.ok session.flushed_flushed
  · unfold drain
    show (if (session.reader.push byte).hasFrame then
        process { session.flushed with reader := (session.reader.push byte).takeFrame.2 }
          (session.reader.push byte).takeFrame.1
      else .ok { session.flushed with reader := session.reader.push byte }).map flushed = _
    split
    · exact map_flushed_process { session with reader := (session.reader.push byte).takeFrame.2 } _
    · exact congrArg Except.ok ({ session with reader := session.reader.push byte }).flushed_flushed

theorem map_flushed_foldlM_feedByte (data : Bytes) (session : Session) :
    (data.foldlM feedByte session.flushed).map flushed =
      (data.foldlM feedByte session).map flushed := by
  induction data generalizing session with
  | nil => exact congrArg Except.ok session.flushed_flushed
  | cons byte data inductionHypothesis =>
    have first := map_flushed_feedByte session byte
    rw [List.foldlM_cons, List.foldlM_cons]
    revert first
    cases session.flushed.feedByte byte with
    | error fault =>
      cases session.feedByte byte with
      | error other => exact fun first => congrArg Except.error (Except.error.inj first)
      | ok next => exact fun first => by cases first
    | ok next =>
      cases session.feedByte byte with
      | error fault => exact fun first => by cases first
      | ok other =>
        intro first
        have same : next.flushed = other.flushed := Except.ok.inj first
        show (data.foldlM feedByte next).map flushed = (data.foldlM feedByte other).map flushed
        rw [← inductionHypothesis next, same, inductionHypothesis other]

end Session

end AsyncNet.Http
