/-
This file lists the deeds of a session that receives a frame: for every handler the
calls that the application makes while the frame is handled, the frames that the session
sends on its own account, and what becomes of the windows and of the promises. The
deeds of a handler are read off from the state it starts in, handler by handler as the
session goes through them.
-/

import AsyncNet.Http.Http2Deeds

namespace AsyncNet.Http

open Library H2

namespace Connection

/-! ### Requests and responses that are complete -/

section Dispatch

variable (config : Config) (connection : Connection) (sid : Nat)

def streamingDeeds : List Deed :=
  match config.streamingRequestHandler with
  | none => []
  | some handler => (handler sid (connection.stream sid).req).2.map .call

def pushDeeds : List Deed :=
  match config.pushProvider with
  | none => []
  | some provider =>
      if connection.peerEnablePush then
        (provider (connection.stream sid).req).map fun push => .call (.submitPush sid push.1 push.2)
      else []

def answerDeeds : List Deed :=
  match config.requestHandler with
  | none => [.call (.submitResponse sid responseNotFound)]
  | some handler =>
      .call (.submitResponse sid (handler (connection.stream sid).req)) ::
        pushDeeds config connection sid

/-- The stream of a request that is dispatched: the body is complete. -/
def withBody : Connection :=
  (connection.record (.dispatch sid)).modifyStream sid fun state =>
    { state with req := { state.req with bd := state.body }, body := [] }

def dispatchDeeds : List Deed :=
  streamingDeeds config (connection.withBody sid) sid ++
    let (taken, called) := (connection.withBody sid).callStreamingRequestHandler config sid
    if taken then [] else answerDeeds config called sid

/-- The promise of a stream is completed with the response and the body that have come in. -/
def completeDeeds : List Deed :=
  match (connection.stream sid).promise with
  | none => []
  | some ref =>
      [.complete ref { (connection.stream sid).resp with bd := (connection.stream sid).body }]

theorem does_callStreamingRequestHandler :
    Does (streamingDeeds config connection sid) connection
      (connection.callStreamingRequestHandler config sid).2 := by
  unfold streamingDeeds callStreamingRequestHandler
  cases config.streamingRequestHandler with
  | none => exact Does.refl connection
  | some handler => exact Does.before (does_record connection _ rfl) (does_commands _ _)

theorem does_foldl_doSubmitPush (pushes : List (Request × Response)) :
    Does (pushes.map fun push => .call (.submitPush sid push.1 push.2)) connection
      (pushes.foldl (fun connection push => connection.doSubmitPush sid push.1 push.2)
        connection) := by
  induction pushes generalizing connection with
  | nil => exact Does.refl connection
  | cons push pushes inductionHypothesis =>
    exact (does_command connection (.submitPush sid push.1 push.2)).trans (inductionHypothesis _)

theorem does_pushAssociated :
    Does (pushDeeds config connection sid) connection
      (connection.pushAssociated config sid) := by
  unfold pushDeeds pushAssociated
  cases config.pushProvider with
  | none => exact Does.refl connection
  | some provider =>
    dsimp only
    split
    · exact Does.before (does_record connection _ rfl) (does_foldl_doSubmitPush _ sid _)
    · exact Does.refl connection

/-- A response changes neither what the push provider is asked nor whether it is. -/
theorem pushDeeds_quiet {after : Connection} (quiet : Quiet connection after) :
    pushDeeds config after sid = pushDeeds config connection sid := by
  have req : (after.stream sid).req = (connection.stream sid).req :=
    congrArg StreamCore.req (quiet.core sid)
  unfold pushDeeds
  rw [req, quiet.peerEnablePush]

theorem does_answerRequest :
    Does (answerDeeds config connection sid) connection (connection.answerRequest config sid) := by
  unfold answerDeeds answerRequest
  cases config.requestHandler with
  | none => exact does_command connection (.submitResponse sid responseNotFound)
  | some handler =>
    set recorded := connection.record (.requestHandler (connection.stream sid).req)
    have pushed := does_pushAssociated config
      (recorded.doSubmitResponse sid (handler (connection.stream sid).req)) sid
    rw [pushDeeds_quiet config recorded sid (quiet_doSubmitResponse recorded sid _)] at pushed
    exact Does.before (does_record connection _ rfl)
      ((does_command recorded (.submitResponse sid _)).trans pushed)

theorem does_withBody : Does [] connection (connection.withBody sid) :=
  Does.before (does_record connection _ rfl) (does_modifyStream _ sid _ fun _ => by rfl)

theorem does_dispatchRequest :
    Does (dispatchDeeds config connection sid) connection
      (connection.dispatchRequest config sid) := by
  have called := Does.before (does_withBody connection sid)
    (does_callStreamingRequestHandler config (connection.withBody sid) sid)
  show Does _ connection
    (if ((connection.withBody sid).callStreamingRequestHandler config sid).1 then
      ((connection.withBody sid).callStreamingRequestHandler config sid).2
    else
      ((connection.withBody sid).callStreamingRequestHandler config sid).2.answerRequest config sid)
  unfold dispatchDeeds
  dsimp only
  split
  · exact called.trans (Does.refl _)
  · exact called.trans (does_answerRequest config _ sid)

/-- A promise is settled: it is handed on, and whoever waits for it is resumed. -/
theorem refines_settle {account : Account} (ref : PromiseRef) (promise : ResponsePromise)
    (refines : Refines account connection) :
    Refines (account.settlePromise ref promise)
      (if (connection.promises ref).waiter then
        { connection.setPromise ref promise with
          completedPromises := connection.completedPromises ++ [ref] }.record (.resume ref)
      else
        { connection.setPromise ref promise with
          completedPromises := connection.completedPromises ++ [ref] }) := by
  have promises : (connection.setPromise ref promise).promises =
      (account.setPromise ref promise).promises := by
    unfold setPromise Account.setPromise
    rw [refines.promises]
  have completed : connection.completedPromises ++ [ref] = account.completed ++ [ref] := by
    rw [refines.completed]
  unfold Account.settlePromise
  rw [← refines.promises]
  dsimp only
  split
  · have resumed : resumesOf (connection.events ++ [.resume ref]) = account.resumed ++ [ref] := by
      rw [resumesOf, List.filterMap_append, ← refines.resumed]
      rfl
    exact { refines with promises := promises, completed := completed, resumed := resumed }
  · have resumed : resumesOf connection.events = account.resumed ++ [] := by
      rw [List.append_nil, refines.resumed]
    exact { refines with promises := promises, completed := completed, resumed := resumed }

theorem does_completePromise :
    Does (completeDeeds connection sid) connection (connection.completePromise sid) := by
  set filled := connection.modifyStream sid fun state =>
    { state with resp := { state.resp with bd := state.body }, body := [] }
  have fills : Does [] connection filled := does_modifyStream connection sid _ fun _ => by rfl
  unfold completeDeeds completePromise
  cases found : connection.streams sid with
  | none =>
    have absent : filled.streams sid = none := by
      rw [streams_modifyStream, found]
      rfl
    have empty : connection.stream sid = {} := by rw [stream, found]; rfl
    have empty' : filled.stream sid = {} := by rw [stream, absent]; rfl
    rw [empty]
    dsimp only
    rw [empty']
    exact fills
  | some state =>
    have present : filled.stream sid =
        { state with resp := { state.resp with bd := state.body }, body := [] } := by
      rw [stream, streams_modifyStream, found]
      rfl
    rw [stream_of_some connection sid found]
    dsimp only
    rw [present]
    dsimp only
    cases state.promise with
    | none => exact fills
    | some ref =>
      intro account refines
      have settled := refines_settle filled ref
        { filled.promises ref with resp := { state.resp with bd := state.body }, complete := true }
        (fills { account with finished := account.finished ++ [ref] } { refines with })
      rw [show filled.promises = account.promises from refines.promises] at settled
      set moved : StreamState → StreamState := fun state =>
        { state with resp := movedFrom state.resp }
      dsimp only
      rw [show filled.promises = account.promises from refines.promises]
      by_cases waits : (account.promises ref).waiter = true
      · rw [if_pos waits] at settled ⊢
        exact does_modifyStream _ sid moved (fun _ => rfl) _ settled
      · rw [if_neg waits] at settled ⊢
        exact does_modifyStream _ sid moved (fun _ => rfl) _ settled

end Dispatch

/-! ### DATA -/

section Data

variable (config : Config) (connection : Connection) (sid : Nat)

/-- A connection error: a GOAWAY frame is sent and the session ends. -/
def goawayDeeds (error : ErrorCode) (debug : Bytes) (short : debug.length ≤ 64) : List Deed :=
  [.control (.goaway connection.lastClientStream error debug short), .halt]

theorem does_enqueue_control (control : Control)
    (plain : ∀ stream error, control ≠ .reset stream error) :
    Does [.control control] connection (connection.enqueue control.frame.wire) := by
  intro account refines
  have sends := refines_enqueue connection [control.frame] refines
  rw [List.flatMap_singleton] at sends
  cases control with
  | reset stream error => exact absurd rfl (plain stream error)
  | _ => exact sends

theorem does_enqueue_reset (error : ErrorCode) :
    Does [.control (.reset sid error)] connection
      (connection.enqueue (buildRstStream sid error)) := by
  intro account refines
  have sends := refines_enqueue connection [(Control.reset sid error).frame] refines
  rw [List.flatMap_singleton] at sends
  refine { sends with streams := fun other => ?_ }
  show _ = (((account.enqueue [(Control.reset sid error).frame]).modifyStream sid
    fun state => { state with reset := true }).streams other).map StreamAccount.window
  by_cases same : other = sid
  · rw [same, Account.streams_modifyStream, Option.map_map]
    exact sends.streams sid
  · rw [Account.streams_modifyStream_of_ne _ _ _ _ same]
    exact sends.streams other

theorem does_goaway (error : ErrorCode) (debug : Bytes) (short : debug.length ≤ 64) :
    Does (goawayDeeds connection error debug short) connection (connection.goaway error debug) := by
  intro account refines
  have sends := does_enqueue_control connection
    (.goaway connection.lastClientStream error debug short) (fun _ _ => Control.noConfusion) account
    refines
  exact { sends with alive := rfl }

def deliverDeeds (state : StreamState) (data : Bytes) (endStream : Bool) : List Deed :=
  match state.dataCb with
  | some cb => (cb sid data endStream).map .call
  | none => []

/-- The window updates for the connection and for the stream, when they are due. -/
def updateDeeds (length : Nat) : List Deed :=
  .charge length ::
    (((windowIncrement (connection.connRecvWindow - length)).map Deed.grant).toList ++
      ((windowIncrement ((connection.modifyStream sid fun state =>
        { state with recvWindow := state.recvWindow - length }).stream sid).recvWindow).map
          fun increment => Deed.control (.windowUpdate sid increment)).toList)

def endDataDeeds : List Deed :=
  let connection := connection.modifyStream sid fun state => { state with endStream := true }
  if config.mode = .server then
    if (connection.stream sid).streamingHandled then [] else dispatchDeeds config connection sid
  else completeDeeds connection sid

def handleDataDeeds (f : Frame) : List Deed :=
  let sid := f.hdr.streamId
  if sid = 0 then goawayDeeds connection .protocolError (ascii "DATA on stream 0") (by decide)
  else
    match connection.streams sid with
    | none => [.control (.reset sid .streamClosed)]
    | some state =>
        match stripPadding f with
        | .error error => goawayDeeds connection error [] (by decide)
        | .ok data =>
            let endStream := f.hdr.hasFlag Flag.endStream
            let delivered := connection.deliverData sid state data endStream
            deliverDeeds sid state data endStream ++ updateDeeds delivered sid data.length ++
              if endStream then endDataDeeds config (delivered.updateWindows sid data.length) sid
              else []

theorem does_callDataCallback (cb : DataCallback) (data : Bytes) (endStream : Bool) :
    Does ((cb sid data endStream).map .call) connection
      (connection.callDataCallback cb sid data endStream) :=
  Does.before (does_record connection _ rfl) (does_commands _ _)

theorem does_deliverData (state : StreamState) (data : Bytes) (endStream : Bool) :
    Does (deliverDeeds sid state data endStream) connection
      (connection.deliverData sid state data endStream) := by
  unfold deliverDeeds deliverData
  cases state.dataCb with
  | some cb => exact does_callDataCallback connection sid cb data endStream
  | none => exact does_modifyStream connection sid _ fun _ => by rfl

theorem does_replenishConnection :
    Does ((windowIncrement connection.connRecvWindow).map Deed.grant).toList connection
      connection.replenishConnection := by
  unfold replenishConnection
  cases windowIncrement connection.connRecvWindow with
  | none => exact Does.refl connection
  | some increment =>
    intro account refines
    have sends := refines_enqueue connection [windowUpdateFrame 0 increment] refines
    rw [List.flatMap_singleton] at sends
    have raised : connection.connRecvWindow + (increment : Int) =
        account.recvWindow + increment := by rw [refines.recvWindow]
    exact { sends with recvWindow := raised }

theorem does_replenishStream :
    Does ((windowIncrement (connection.stream sid).recvWindow).map
        fun increment => Deed.control (.windowUpdate sid increment)).toList connection
      (connection.replenishStream sid) := by
  unfold replenishStream
  cases windowIncrement (connection.stream sid).recvWindow with
  | none => exact Does.refl connection
  | some increment =>
    exact (does_enqueue_control connection (.windowUpdate sid increment)
      (fun _ _ => Control.noConfusion)).andThen (does_modifyStream _ sid _ fun _ => by rfl)

theorem does_updateWindows (length : Nat) :
    Does (updateDeeds connection sid length) connection (connection.updateWindows sid length) := by
  set charged : Connection := { connection with
    connRecvWindow := connection.connRecvWindow - length }
  set lowered := charged.modifyStream sid fun state =>
    { state with recvWindow := state.recvWindow - length }
  have charges : Does [.charge length] connection charged := by
    intro account refines
    have less : connection.connRecvWindow - (length : Int) = account.recvWindow - length := by
      rw [refines.recvWindow]
    exact { refines with recvWindow := less }
  have lowers := charges.andThen (does_modifyStream charged sid
    (fun state => { state with recvWindow := state.recvWindow - length }) fun _ => rfl)
  have grants := lowers.trans (does_replenishConnection lowered)
  have streams : lowered.replenishConnection.stream sid = lowered.stream sid := by
    rw [stream, streams_replenishConnection]
    rfl
  have updates := grants.trans (does_replenishStream lowered.replenishConnection sid)
  rw [streams, List.append_assoc] at updates
  exact updates

theorem does_endData :
    Does (endDataDeeds config connection sid) connection (connection.endData config sid) := by
  have ends : Does [] connection (connection.modifyStream sid fun state =>
    { state with endStream := true }) := does_modifyStream connection sid _ fun _ => by rfl
  unfold endDataDeeds endData
  dsimp only
  split
  · split
    · exact ends
    · exact ends.before (does_dispatchRequest config _ sid)
  · exact ends.before (does_completePromise _ sid)

theorem does_handleData (f : Frame) :
    Does (handleDataDeeds config connection f) connection (connection.handleData config f) := by
  unfold handleDataDeeds handleData
  dsimp only
  split
  · exact does_goaway connection _ _ _
  · cases connection.streams f.hdr.streamId with
    | none => exact does_enqueue_reset connection _ _
    | some state =>
      dsimp only
      cases stripPadding f with
      | error error => exact does_goaway connection _ _ _
      | ok data =>
        have updated := (does_deliverData connection f.hdr.streamId state data
          (f.hdr.hasFlag Flag.endStream)).trans (does_updateWindows _ f.hdr.streamId data.length)
        dsimp only
        split
        · exact updated.trans (does_endData config _ _)
        · exact updated.trans (Does.refl _)

end Data

/-! ### HEADERS and CONTINUATION -/

section Headers

variable (config : Config) (connection : Connection) (sid : Nat)

def startDeeds (handler : Nat → Request → Bool → Bool × List Command) (endStream : Bool) :
    List Deed :=
  (handler sid (connection.stream sid).req endStream).2.map .call

/-- The stream of a request whose headers have been taken over. -/
def withRequest (headers : Headers) : Connection :=
  connection.modifyStream sid fun state =>
    { state with
      headersComplete := true
      req := { headers.foldl applyRequestHeader state.req with ver := .http2 } }

/-- The stream of a response whose headers have been taken over. -/
def withResponse (headers : Headers) : Connection :=
  connection.modifyStream sid fun state =>
    { state with
      headersComplete := true
      resp := { headers.foldl applyResponseHeader state.resp with ver := .http2 } }

/-- The stream has ended. -/
def withEnd : Connection := connection.modifyStream sid fun state =>
    { state with endStream := true }

def applyHeadersDeeds (headers : Headers) (endStream : Bool) : List Deed :=
  let connection := connection.withRequest sid headers
  if endStream then
    let connection := connection.withEnd sid
    match config.requestStartHandler with
    | none => dispatchDeeds config connection sid
    | some handler =>
        startDeeds connection sid handler true ++
          let (taken, connection) := connection.callRequestStartHandler handler sid true
          if taken then [] else dispatchDeeds config connection sid
  else
    match config.requestStartHandler with
    | none => []
    | some handler => startDeeds connection sid handler false

def applyResponseDeeds (headers : Headers) (endStream : Bool) : List Deed :=
  if endStream then completeDeeds ((connection.withResponse sid headers).withEnd sid) sid else []

/-- The deeds of a header block that is complete. A block that faults has none. -/
def blockDeeds (block : Bytes) (deeds : Connection → Headers → List Deed) : List Deed :=
  match connection.decode block with
  | .error _ => []
  | .ok (headers, decoded) => deeds decoded headers

def endStreamingDeeds : List Deed :=
  match (connection.stream sid).dataCb with
  | none => []
  | some cb => (cb sid [] true).map .call

def handleRequestHeadersDeeds (block : Bytes) (endHeaders endStream : Bool) : List Deed :=
  if connection.streamingTrailers sid endStream then endStreamingDeeds connection sid
  else
    .enter sid ::
      if endHeaders then
        (connection.openStream sid).blockDeeds block fun decoded headers =>
          applyHeadersDeeds config decoded sid headers endStream
      else []

def handleResponseHeadersDeeds (block : Bytes) (endHeaders endStream : Bool) : List Deed :=
  match connection.streams sid with
  | none => []
  | some state =>
      match state.headersComplete && endStream, state.dataCb with
      | true, some cb =>
          (cb sid [] true).map .call ++
            (connection.callDataCallback cb sid [] true).blockDeeds block fun decoded headers =>
              applyResponseDeeds decoded sid headers endStream
      | _, _ =>
          if endHeaders then
            connection.blockDeeds block fun decoded headers =>
              applyResponseDeeds decoded sid headers endStream
          else []

def handleHeadersDeeds (f : Frame) : List Deed :=
  let sid := f.hdr.streamId
  if sid = 0 then goawayDeeds connection .protocolError (ascii "HEADERS on stream 0") (by decide)
  else
    match headerFragment f with
    | .error error => goawayDeeds connection error [] (by decide)
    | .ok block =>
        let endHeaders := f.hdr.hasFlag Flag.endHeaders
        let endStream := f.hdr.hasFlag Flag.endStream
        match config.mode with
        | .server => handleRequestHeadersDeeds config connection sid block endHeaders endStream
        | .client => handleResponseHeadersDeeds connection sid block endHeaders endStream

/-- The header block of a stream with the fragment of a CONTINUATION frame. -/
def withFragment (fragment : Bytes) : Connection :=
  connection.modifyStream sid fun state =>
    { state with pendingHeaderBlock := state.pendingHeaderBlock ++ fragment }

def handleContinuationDeeds (f : Frame) : List Deed :=
  let sid := f.hdr.streamId
  match connection.streams sid with
  | none =>
      goawayDeeds connection .protocolError (ascii "CONTINUATION for unknown stream") (by decide)
  | some _ =>
      if f.hdr.hasFlag Flag.endHeaders then
        let connection := { connection.withFragment sid f.payload with continuationStream := 0 }
        connection.blockDeeds (connection.stream sid).pendingHeaderBlock fun decoded headers =>
          let decoded := decoded.modifyStream sid fun state =>
            { state with pendingHeaderBlock := [] }
          match config.mode with
          | .server =>
              applyHeadersDeeds config decoded sid headers (decoded.stream sid).endStream
          | .client => applyResponseDeeds decoded sid headers (decoded.stream sid).endStream
      else []

theorem does_callRequestStartHandler
    (handler : Nat → Request → Bool → Bool × List Command) (endStream : Bool) :
    Does (startDeeds connection sid handler endStream) connection
      (connection.callRequestStartHandler handler sid endStream).2 := by
  have called := Does.before (does_record connection
    (.requestStartHandler sid (connection.stream sid).req endStream) rfl)
    (does_commands _ (handler sid (connection.stream sid).req endStream).2)
  unfold startDeeds callRequestStartHandler
  dsimp only
  split
  · exact called.andThen (does_modifyStream _ sid _ fun _ => by rfl)
  · exact called

theorem does_applyHeaders (headers : Headers) (endStream : Bool) :
    Does (applyHeadersDeeds config connection sid headers endStream) connection
      (connection.applyHeaders config sid headers endStream) := by
  have requests : Does [] connection (connection.withRequest sid headers) :=
    does_modifyStream connection sid _ fun _ => by rfl
  have ends : Does [] connection ((connection.withRequest sid headers).withEnd sid) :=
    requests.andThen (does_modifyStream _ sid _ fun _ => by rfl)
  unfold applyHeadersDeeds applyHeaders
  dsimp only
  split
  · cases config.requestStartHandler with
    | none => exact ends.before (does_dispatchRequest config _ sid)
    | some handler =>
      have called := ends.before (does_callRequestStartHandler
        ((connection.withRequest sid headers).withEnd sid) sid handler true)
      show Does _ connection
        (if (((connection.withRequest sid headers).withEnd sid).callRequestStartHandler
            handler sid true).1 then
          (((connection.withRequest sid headers).withEnd sid).callRequestStartHandler
            handler sid true).2
        else (((connection.withRequest sid headers).withEnd sid).callRequestStartHandler
            handler sid true).2.dispatchRequest config sid)
      dsimp only
      split
      · exact called.trans (Does.refl _)
      · exact called.trans (does_dispatchRequest config _ sid)
  · cases config.requestStartHandler with
    | none => exact requests
    | some handler =>
      exact requests.before (does_callRequestStartHandler (connection.withRequest sid headers) sid
        handler false)

theorem does_applyResponseHeaders (headers : Headers) (endStream : Bool) :
    Does (applyResponseDeeds connection sid headers endStream) connection
      (connection.applyResponseHeaders sid headers endStream) := by
  have responds : Does [] connection (connection.withResponse sid headers) :=
    does_modifyStream connection sid _ fun _ => by rfl
  unfold applyResponseDeeds applyResponseHeaders
  dsimp only
  split
  · exact (responds.andThen (does_modifyStream _ sid (fun state => { state with endStream := true })
      fun _ => rfl)).before (does_completePromise _ sid)
  · exact responds

/-- What is made of a header block, once it is decoded. -/
theorem does_block {next : Connection} {block : Bytes}
    {apply : Connection → Headers → Connection} {deeds : Connection → Headers → List Deed}
    (does : ∀ decoded headers, Does (deeds decoded headers) decoded (apply decoded headers))
    (run : (connection.decode block >>= fun read => Except.ok (apply read.2 read.1)) = .ok next) :
    Does (connection.blockDeeds block deeds) connection next := by
  obtain ⟨⟨headers, decoded⟩, decode, applied⟩ := bind_ok run
  cases applied
  unfold blockDeeds
  rw [decode]
  exact (does_decode connection decode).before (does decoded headers)

theorem does_openStream : Does [.enter sid] connection (connection.openStream sid) := by
  intro account refines
  have opens := does_setStream connection sid
    { connection.stream sid with streamId := sid, state := .opened } rfl account refines
  exact { opens with }

theorem does_endStreaming :
    Does (endStreamingDeeds connection sid) connection (connection.endStreaming sid) := by
  unfold endStreamingDeeds endStreaming
  cases (connection.stream sid).dataCb with
  | none => exact does_modifyStream connection sid _ fun _ => by rfl
  | some cb =>
    exact (does_callDataCallback connection sid cb [] true).andThen
      (does_modifyStream _ sid _ fun _ => by rfl)

theorem does_handleRequestHeaders {next : Connection} (block : Bytes) (endHeaders endStream : Bool)
    (run : connection.handleRequestHeaders config sid block endHeaders endStream = .ok next) :
    Does (handleRequestHeadersDeeds config connection sid block endHeaders endStream) connection
      next := by
  unfold handleRequestHeaders at run
  unfold handleRequestHeadersDeeds
  split at run
  · rename_i trailers
    cases run
    rw [if_pos trailers]
    exact does_endStreaming connection sid
  · rename_i plain
    rw [if_neg plain]
    split at run
    · rename_i whole
      rw [if_pos whole]
      exact (does_openStream connection sid).trans (does_block _
        (fun decoded headers => does_applyHeaders config decoded sid headers endStream) run)
    · rename_i split
      cases run
      rw [if_neg split]
      exact (does_openStream connection sid).trans (does_awaitContinuation _ sid block endStream)

theorem does_handleResponseHeaders {next : Connection} (block : Bytes) (endHeaders endStream : Bool)
    (run : connection.handleResponseHeaders sid block endHeaders endStream = .ok next) :
    Does (handleResponseHeadersDeeds connection sid block endHeaders endStream)
      connection next := by
  have plain (run : (if endHeaders = true then
      connection.decode block >>= fun read =>
        Except.ok (read.2.applyResponseHeaders sid read.1 endStream)
      else .ok (connection.awaitContinuation sid block endStream)) = Except.ok next) :
      Does (if endHeaders = true then
        connection.blockDeeds block fun decoded headers =>
          applyResponseDeeds decoded sid headers endStream
        else []) connection next := by
    split at run
    · rename_i whole
      rw [if_pos whole]
      exact does_block connection
        (fun decoded headers => does_applyResponseHeaders decoded sid headers endStream) run
    · rename_i split
      cases run
      rw [if_neg split]
      exact does_awaitContinuation connection sid block endStream
  unfold handleResponseHeaders at run
  unfold handleResponseHeadersDeeds
  cases found : connection.streams sid with
  | none =>
    rw [found] at run
    cases run
    exact Does.refl connection
  | some state =>
    rw [found] at run
    dsimp only at run ⊢
    cases trailers : state.headersComplete && endStream with
    | false =>
      rw [trailers] at run
      exact plain run
    | true =>
      rw [trailers] at run
      cases callback : state.dataCb with
      | none =>
        rw [callback] at run
        exact plain run
      | some cb =>
        rw [callback] at run
        exact (does_callDataCallback connection sid cb [] true).trans (does_block _
          (fun decoded headers => does_applyResponseHeaders decoded sid headers endStream) run)

theorem does_handleHeaders {next : Connection} (f : Frame)
    (run : connection.handleHeaders config f = .ok next) :
    Does (handleHeadersDeeds config connection f) connection next := by
  unfold handleHeaders at run
  unfold handleHeadersDeeds
  dsimp only at run ⊢
  split at run
  · rename_i zero
    cases run
    rw [if_pos zero]
    exact does_goaway connection _ _ _
  · rename_i nonzero
    rw [if_neg nonzero]
    cases fragment : headerFragment f with
    | error error =>
      rw [fragment] at run
      cases run
      exact does_goaway connection _ _ _
    | ok block =>
      rw [fragment] at run
      dsimp only at run ⊢
      cases mode : config.mode with
      | server =>
        rw [mode] at run
        exact does_handleRequestHeaders config connection _ block _ _ run
      | client =>
        rw [mode] at run
        exact does_handleResponseHeaders connection _ block _ _ run

theorem does_handleContinuation {next : Connection} (f : Frame)
    (run : connection.handleContinuation config f = .ok next) :
    Does (handleContinuationDeeds config connection f) connection next := by
  set sid := f.hdr.streamId
  have appends : Does [] connection (connection.withFragment sid f.payload) :=
    does_modifyStream connection sid _ fun _ => by rfl
  set ready : Connection := { connection.withFragment sid f.payload with continuationStream := 0 }
  have readies : Does [] connection ready := fun account refines => { appends account refines with }
  unfold handleContinuation at run
  unfold handleContinuationDeeds
  dsimp only at run ⊢
  cases found : connection.streams sid with
  | none =>
    rw [found] at run
    cases run
    exact does_goaway connection _ _ _
  | some state =>
    rw [found] at run
    dsimp only at run ⊢
    split at run
    · rename_i last
      rw [if_pos last]
      obtain ⟨⟨headers, decoded⟩, decode, applied⟩ := bind_ok run
      have clears : Does [] connection
          (decoded.modifyStream sid fun state => { state with pendingHeaderBlock := [] }) :=
        (readies.andThen (does_decode _ decode)).andThen (does_modifyStream _ sid _ fun _ => by rfl)
      have read : ready.decode (ready.stream sid).pendingHeaderBlock =
        .ok (headers, decoded) := decode
      rw [blockDeeds, read]
      dsimp only at applied ⊢
      cases mode : config.mode with
      | server =>
        rw [mode] at applied
        cases applied
        exact clears.before (does_applyHeaders config _ sid headers _)
      | client =>
        rw [mode] at applied
        cases applied
        exact clears.before (does_applyResponseHeaders _ sid headers _)
    · rename_i more
      cases run
      rw [if_neg more]
      exact appends

end Headers

/-! ### The other frames -/

section Others

variable (config : Config) (connection : Connection)

def applySettingsDeeds : Connection → List SettingEntry → List Deed
  | _, [] => [.control .settingsAck]
  | connection, setting :: settings =>
      match setting.id with
      | .initialWindowSize =>
          if maxWindowSize < setting.value then
            goawayDeeds connection .flowControlError [] (by decide)
          else .setting setting :: applySettingsDeeds connection settings
      | .maxFrameSize =>
          if setting.value < 16384 ∨ 16777215 < setting.value then
            goawayDeeds connection .protocolError (ascii "Invalid MAX_FRAME_SIZE") (by decide)
          else .setting setting :: applySettingsDeeds connection settings
      | _ => .setting setting :: applySettingsDeeds connection settings

def handleSettingsDeeds (f : Frame) : List Deed :=
  if f.hdr.streamId ≠ 0 then
    goawayDeeds connection .protocolError (ascii "SETTINGS on non-zero stream") (by decide)
  else if f.hdr.hasFlag Flag.ack then []
  else if f.payload.length % settingsParamSize ≠ 0 then
    goawayDeeds connection .frameSizeError [] (by decide)
  else applySettingsDeeds connection (parseSettings f.payload)

def handlePingDeeds (f : Frame) : List Deed :=
  if f.hdr.streamId ≠ 0 then
    goawayDeeds connection .protocolError (ascii "PING on non-zero stream") (by decide)
  else if f.payload.length ≠ 8 then goawayDeeds connection .frameSizeError [] (by decide)
  else if f.hdr.hasFlag Flag.ack then []
  else [.control (.ping f.payload)]

def handleWindowUpdateDeeds (f : Frame) : List Deed :=
  let sid := f.hdr.streamId
  if f.payload.length ≠ 4 then goawayDeeds connection .frameSizeError [] (by decide)
  else
    let increment := parseWindowUpdate f.payload
    if increment = 0 then
      if sid = 0 then
        goawayDeeds connection .protocolError (ascii "WINDOW_UPDATE 0 increment") (by decide)
      else [.control (.reset sid .protocolError)]
    else
      .credit sid increment ::
        if sid = 0 then
          if (maxWindowSize : Int) < connection.connSendWindow + increment then
            goawayDeeds connection .flowControlError [] (by decide)
          else []
        else []

def handleRstStreamDeeds (f : Frame) : List Deed :=
  let sid := f.hdr.streamId
  if f.payload.length ≠ 4 then goawayDeeds connection .frameSizeError [] (by decide)
  else
    match connection.streams sid with
    | none => []
    | some state => (state.promise.map Deed.fail).toList ++ [.leave sid]

def handlePushPromiseDeeds (f : Frame) : List Deed :=
  match config.mode with
  | .server => goawayDeeds connection .protocolError (ascii "PUSH_PROMISE on server") (by decide)
  | .client =>
      let (promisedStreamId, block) := parsePushPromise f.payload
      connection.blockDeeds block fun _ headers =>
        [.promise
          { promisedStreamId
            promisedRequest := { headers.foldl applyPromisedHeader {} with ver := .http2 } },
          .enter promisedStreamId]

/-- The deeds of a frame. -/
def frameDeeds (f : Frame) : List Deed :=
  let connection := connection.record (.frame f)
  if connection.continuationStream ≠ 0 then
    if f.hdr.type ≠ .continuation ∨ f.hdr.streamId ≠ connection.continuationStream then
      goawayDeeds connection .protocolError (ascii "Expected CONTINUATION") (by decide)
    else handleContinuationDeeds config connection f
  else
    match f.hdr.type with
    | .data => handleDataDeeds config connection f
    | .headers => handleHeadersDeeds config connection f
    | .rstStream => handleRstStreamDeeds connection f
    | .settings => handleSettingsDeeds connection f
    | .pushPromise => handlePushPromiseDeeds config connection f
    | .ping => handlePingDeeds connection f
    | .goaway => [.halt]
    | .windowUpdate => handleWindowUpdateDeeds connection f
    | .continuation =>
        goawayDeeds connection .protocolError (ascii "Unexpected CONTINUATION") (by decide)
    | _ => []

/-- The deeds of settings do not depend on those that come before. -/
theorem applySettingsDeeds_congr (other : Connection) (settings : List SettingEntry)
    (same : other.lastClientStream = connection.lastClientStream) :
    applySettingsDeeds other settings = applySettingsDeeds connection settings := by
  induction settings with
  | nil => rfl
  | cons setting settings inductionHypothesis =>
    unfold applySettingsDeeds goawayDeeds
    rw [inductionHypothesis, same]

theorem does_applySettings (settings : List SettingEntry) :
    Does (applySettingsDeeds connection settings) connection
      (connection.applySettings settings) := by
  induction settings generalizing connection with
  | nil => exact does_enqueue_control connection .settingsAck fun _ _ => Control.noConfusion
  | cons setting settings inductionHypothesis =>
    have goes (taken : Connection) (takes : Does [.setting setting] connection taken)
        (same : taken.lastClientStream = connection.lastClientStream) :
        Does (.setting setting :: applySettingsDeeds connection settings) connection
          (taken.applySettings settings) := by
      have later := inductionHypothesis taken
      rw [applySettingsDeeds_congr connection taken settings same] at later
      exact takes.trans later
    have ignored (keeps : ∀ account : Account, account.setting setting = account) :
        Does [.setting setting] connection connection := by
      intro account refines
      show Refines (account.setting setting) connection
      rw [keeps account]
      exact refines
    obtain ⟨id, value⟩ := setting
    unfold applySettings applySettingsDeeds
    cases id with
    | headerTableSize =>
      refine goes _ (fun account refines => ?_) rfl
      have resized : connection.encoder.setMaxTableSize value =
          account.encoder.setMaxTableSize value := by rw [refines.encoder]
      exact { refines with encoder := resized }
    | enablePush =>
      exact goes _ (fun account refines => { refines with enablePush := rfl }) rfl
    | maxConcurrentStreams => exact goes connection (ignored fun _ => rfl) rfl
    | initialWindowSize =>
      dsimp only
      split
      · exact does_goaway connection _ _ _
      · rename_i valid
        refine goes _ (fun account refines => ?_) rfl
        show Refines (account.setting ⟨.initialWindowSize, value⟩) _
        unfold Account.setting
        dsimp only
        rw [if_neg valid]
        refine { refines with initialWindow := rfl, streams := fun sid => ?_ }
        have moved := congrArg (Option.map fun window : Int =>
          window + ((value : Int) - account.initialWindow)) (refines.streams sid)
        rw [Option.map_map, Option.map_map] at moved
        show Option.map StreamState.sendWindow ((connection.streams sid).map _) =
          Option.map StreamAccount.window ((account.streams sid).map _)
        rw [Option.map_map, Option.map_map, refines.initialWindow]
        exact moved
    | maxFrameSize =>
      dsimp only
      split
      · exact does_goaway connection _ _ _
      · rename_i valid
        refine goes _ (fun account refines => ?_) rfl
        show Refines (account.setting ⟨.maxFrameSize, value⟩) _
        unfold Account.setting
        dsimp only
        rw [if_neg valid]
        exact { refines with maxFrameSize := rfl }
    | maxHeaderListSize => exact goes connection (ignored fun _ => rfl) rfl
    | unknown code => exact goes connection (ignored fun _ => rfl) rfl

theorem does_handleSettings (f : Frame) :
    Does (handleSettingsDeeds connection f) connection (connection.handleSettings f) := by
  unfold handleSettingsDeeds handleSettings
  split
  · exact does_goaway connection _ _ _
  · split
    · exact Does.refl connection
    · split
      · exact does_goaway connection _ _ _
      · exact does_applySettings connection _

theorem does_handlePing (f : Frame) :
    Does (handlePingDeeds connection f) connection (connection.handlePing f) := by
  unfold handlePingDeeds handlePing
  split
  · exact does_goaway connection _ _ _
  · split
    · exact does_goaway connection _ _ _
    · split
      · exact Does.refl connection
      · exact does_enqueue_control connection (.ping f.payload) fun _ _ => Control.noConfusion

/-- Credit for the connection. -/
theorem does_credit_connection (increment : Nat) :
    Does [.credit 0 increment] connection
      { connection with connSendWindow := connection.connSendWindow + increment } := by
  intro account refines
  have raised : connection.connSendWindow + (increment : Int) = account.sendWindow + increment := by
    rw [refines.sendWindow]
  exact { refines with sendWindow := raised }

/-- Credit for a stream. -/
theorem does_credit_stream (sid increment : Nat) (nonzero : sid ≠ 0) :
    Does [.credit sid increment] connection
      (match connection.streams sid with
      | none => connection
      | some state =>
          let connection := connection.modifyStream sid fun state =>
            { state with sendWindow := state.sendWindow + increment }
          if (maxWindowSize : Int) < state.sendWindow + increment then
            connection.enqueue (buildRstStream sid .flowControlError)
          else connection) := by
  intro account refines
  set credited := account.recordCredit sid increment
  have credits : Refines credited connection := { refines with }
  have window := credits.streams sid
  show Refines (account.addCredit sid increment) _
  rw [Account.addCredit_of_ne account increment nonzero]
  unfold Account.creditStream
  cases found : connection.streams sid with
  | none =>
    rw [found] at window
    rw [Option.map_eq_none_iff.mp window.symm]
    exact credits
  | some state =>
    rw [found] at window
    obtain ⟨entry, is, same⟩ := Option.map_eq_some_iff.mp window.symm
    rw [is]
    dsimp only
    rw [same]
    have raised : Refines (credited.modifyStream sid fun state =>
        { state with window := state.window + increment, credit := state.credit + increment })
        (connection.modifyStream sid fun state =>
          { state with sendWindow := state.sendWindow + increment }) := by
      refine { credits with streams := fun other => ?_ }
      by_cases here : other = sid
      · have moved := congrArg (Option.map fun window : Int => window + increment)
          (refines.streams sid)
        rw [Option.map_map, Option.map_map] at moved
        rw [here, streams_modifyStream, Account.streams_modifyStream, Option.map_map,
          Option.map_map]
        exact moved
      · rw [streams_modifyStream_of_ne _ _ _ _ here,
          Account.streams_modifyStream_of_ne _ _ _ _ here]
        exact refines.streams other
    split
    · exact does_enqueue_reset _ sid .flowControlError _ raised
    · exact raised

theorem does_handleWindowUpdate (f : Frame) :
    Does (handleWindowUpdateDeeds connection f) connection (connection.handleWindowUpdate f) := by
  unfold handleWindowUpdateDeeds handleWindowUpdate
  dsimp only
  split
  · exact does_goaway connection _ _ _
  · split
    · split
      · exact does_goaway connection _ _ _
      · exact does_enqueue_reset connection _ _
    · by_cases zero : f.hdr.streamId = 0
      · have credits := does_credit_connection connection (parseWindowUpdate f.payload)
        rw [if_pos zero, if_pos zero, zero]
        split
        · exact credits.trans (does_goaway _ _ _ _)
        · exact credits
      · have credits := does_credit_stream connection f.hdr.streamId
          (parseWindowUpdate f.payload) zero
        rw [if_neg zero, if_neg zero]
        exact credits

theorem does_eraseStream (sid : Nat) : Does [.leave sid] connection
    (connection.eraseStream sid) := by
  intro account refines
  refine { refines with streams := fun other => ?_ }
  show Option.map _ (if other = sid then none else connection.streams other) =
    Option.map _ (if other = sid then none else account.streams other)
  by_cases same : other = sid
  · rw [if_pos same, if_pos same]
    rfl
  · rw [if_neg same, if_neg same]
    exact refines.streams other

theorem does_handleRstStream (f : Frame) :
    Does (handleRstStreamDeeds connection f) connection (connection.handleRstStream f) := by
  unfold handleRstStreamDeeds handleRstStream
  dsimp only
  split
  · exact does_goaway connection _ _ _
  · cases connection.streams f.hdr.streamId with
    | none => exact Does.refl connection
    | some state =>
      refine Does.trans ?_ (does_eraseStream _ f.hdr.streamId)
      cases state.promise with
      | none => exact Does.refl connection
      | some ref =>
        intro account refines
        have settled := refines_settle connection ref
          { connection.promises ref with error := true, complete := true } refines
        show Refines (account.settlePromise ref
          { account.promises ref with error := true, complete := true }) _
        rw [← refines.promises]
        exact settled

theorem does_promiseStream (info : PushPromiseInfo) :
    Does [.promise info, .enter info.promisedStreamId] connection
      (connection.promiseStream info) := by
  set made : Connection := { connection.setPromise (.push connection.nextPushPromise)
      { isPush := true, pushInfo := info } with
    nextPushPromise := connection.nextPushPromise + 1 }
  have makes : Does [.promise info] connection made := by
    intro account refines
    have promises : made.promises = (account.act (.promise info)).promises := by
      show (fun other => if other = PromiseRef.push connection.nextPushPromise then _ else _) =
        fun other => if other = PromiseRef.push account.nextPushPromise then _ else _
      rw [refines.nextPushPromise, refines.promises]
    have next : connection.nextPushPromise + 1 = account.nextPushPromise + 1 := by
      rw [refines.nextPushPromise]
    exact { refines with promises := promises, nextPushPromise := next }
  exact makes.trans (does_setStream made info.promisedStreamId
    { made.stream info.promisedStreamId with
      streamId := info.promisedStreamId
      state := .opened
      promise := some (.push connection.nextPushPromise) } rfl)

theorem does_handlePushPromise {next : Connection} (f : Frame)
    (run : connection.handlePushPromise config f = .ok next) :
    Does (handlePushPromiseDeeds config connection f) connection next := by
  unfold handlePushPromise at run
  unfold handlePushPromiseDeeds
  cases mode : config.mode with
  | server =>
    rw [mode] at run
    cases run
    exact does_goaway connection _ _ _
  | client =>
    rw [mode] at run
    dsimp only at run ⊢
    obtain ⟨⟨headers, decoded⟩, decode, applied⟩ := bind_ok run
    cases applied
    rw [blockDeeds, decode]
    dsimp only
    split
    · exact ((does_decode connection decode).before (does_promiseStream decoded _)).andThen
        (does_record _ _ rfl)
    · exact (does_decode connection decode).before (does_promiseStream decoded _)

/-- What the handling of a frame comes to, and its deeds. -/
inductive Handled (f : Frame) : List Deed → Connection → Prop
  | refused (debug : Bytes) (short : debug.length ≤ 64) :
      Handled f (goawayDeeds connection .protocolError debug short)
        (connection.goaway .protocolError debug)
  | continuation {next : Connection} (run : connection.handleContinuation config f = .ok next) :
      Handled f (handleContinuationDeeds config connection f) next
  | data : Handled f (handleDataDeeds config connection f) (connection.handleData config f)
  | headers {next : Connection} (run : connection.handleHeaders config f = .ok next) :
      Handled f (handleHeadersDeeds config connection f) next
  | rstStream : Handled f (handleRstStreamDeeds connection f) (connection.handleRstStream f)
  | settings : Handled f (handleSettingsDeeds connection f) (connection.handleSettings f)
  | pushPromise {next : Connection} (run : connection.handlePushPromise config f = .ok next) :
      Handled f (handlePushPromiseDeeds config connection f) next
  | ping : Handled f (handlePingDeeds connection f) (connection.handlePing f)
  | goaway : Handled f [.halt] connection.handleGoaway
  | windowUpdate :
      Handled f (handleWindowUpdateDeeds connection f) (connection.handleWindowUpdate f)
  | ignored : Handled f [] connection

theorem handled_processFrame {next : Connection} (f : Frame)
    (run : connection.processFrame config f = .ok next) :
    Handled config (connection.record (.frame f)) f (frameDeeds config connection f) next := by
  unfold processFrame at run
  unfold frameDeeds
  dsimp only at run ⊢
  split at run
  · rename_i waiting
    rw [if_pos waiting]
    split at run
    · rename_i other
      cases run
      rw [if_pos other]
      exact .refused _ _
    · rename_i expected
      rw [if_neg expected]
      exact .continuation run
  · rename_i idle
    rw [if_neg idle]
    cases type : f.hdr.type with
    | data =>
      rw [type] at run
      cases run
      exact .data
    | headers =>
      rw [type] at run
      exact .headers run
    | priority =>
      rw [type] at run
      cases run
      exact .ignored
    | rstStream =>
      rw [type] at run
      cases run
      exact .rstStream
    | settings =>
      rw [type] at run
      cases run
      exact .settings
    | pushPromise =>
      rw [type] at run
      exact .pushPromise run
    | ping =>
      rw [type] at run
      cases run
      exact .ping
    | goaway =>
      rw [type] at run
      cases run
      exact .goaway
    | windowUpdate =>
      rw [type] at run
      cases run
      exact .windowUpdate
    | continuation =>
      rw [type] at run
      cases run
      exact .refused _ _
    | unknown code =>
      rw [type] at run
      cases run
      exact .ignored

/-- Every frame that is processed has its deeds. -/
theorem does_processFrame {next : Connection} (f : Frame)
    (run : connection.processFrame config f = .ok next) :
    Does (frameDeeds config connection f) connection next := by
  have handled := handled_processFrame config connection f run
  generalize frameDeeds config connection f = deeds at handled ⊢
  refine (does_record connection (.frame f) rfl).before ?_
  cases handled with
  | refused debug short => exact does_goaway _ _ _ _
  | continuation run => exact does_handleContinuation config _ f run
  | data => exact does_handleData config _ f
  | headers run => exact does_handleHeaders config _ f run
  | rstStream => exact does_handleRstStream _ f
  | settings => exact does_handleSettings _ f
  | pushPromise run => exact does_handlePushPromise config _ f run
  | ping => exact does_handlePing _ f
  | goaway => exact fun account refines => { refines with alive := rfl }
  | windowUpdate => exact does_handleWindowUpdate _ f
  | ignored => exact fun account refines => refines

end Others

end Connection

end AsyncNet.Http
