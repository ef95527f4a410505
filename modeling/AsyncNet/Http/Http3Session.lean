/-
This file models `http3_session` of `src/http/http3_session.cpp`: what the callbacks of the
QUIC library do with the data of a stream and with the end of the handshake, and what the
session submits. A session here has its QUIC connection, and no call of the library is made
to it from within a handler.

The library is outside the model. What it answers to the coming calls that open a stream,
each an identifier or a failure, is a part of the state. The data that it is given to write
is recorded, and packets are left to it. Handlers are pure functions. A `response_promise`
that a caller made is shared with the caller: these live in a heap, and streams refer to them.
-/

import AsyncNet.Http.H3Frame
import AsyncNet.Http.Qpack

namespace AsyncNet.Http.H3

open H2

/-! ### State -/

/-- `http3_session::mode`. -/
inductive Mode where
  | server | client
  deriving DecidableEq, Repr

/-- `http3_session::push_promise_info`. -/
structure PushPromiseInfo where
  pushId : Nat := 0
  promisedRequest : Request := {}
  deriving DecidableEq, Repr

/-- `http3_session::response_promise`, with whether a coroutine waits for it. -/
structure ResponsePromise where
  resp : Response := {}
  complete : Bool := false
  error : Bool := false
  isPush : Bool := false
  pushInfo : PushPromiseInfo := {}
  waiter : Bool := false
  deriving DecidableEq, Repr

/-- `stream_state::st`. -/
inductive StreamPhase where
  | idle | opened | closed
  deriving DecidableEq, Repr

/-- `stream_state`, with the address of its promise. -/
structure StreamState where
  streamId : Nat := 0
  state : StreamPhase := .idle
  req : Request := {}
  body : Bytes := []
  headersComplete : Bool := false
  endStream : Bool := false
  reader : FrameReader := {}
  controlStream : Bool := false
  qpackEncoderStream : Bool := false
  qpackDecoderStream : Bool := false
  sendBuf : Bytes := []
  sendOffset : Nat := 0
  resp : Response := {}
  respBody : Bytes := []
  respHeadersComplete : Bool := false
  promise : Option Nat := none
  deriving DecidableEq, Repr

/-- What a session has done: the data it has given to `ngtcp2_conn_writev_stream`, with whether the
stream ends there, the handlers it has called and the coroutines it has resumed. -/
inductive Event where
  | write (streamId : Nat) (data : Bytes) (fin : Bool)
  | requestHandler (req : Request)
  | pushProvider (req : Request)
  | pushHandler (info : PushPromiseInfo)
  | resume (promise : Nat)
  deriving DecidableEq, Repr

/-- `http3_session::impl`, with the answers of the QUIC library, the promises of callers and the
events. -/
structure Session where
  mode : Mode
  handshakeDone : Bool := false
  decoder : QpackDecoder := {}
  streams : Nat → Option StreamState := fun _ => none
  controlStreamId : Option Nat := none
  qpackEncoderStreamId : Option Nat := none
  qpackDecoderStreamId : Option Nat := none
  requestHandler : Option (Request → Response) := none
  pushProvider : Option (Request → List (Request × Response)) := none
  pushHandler : Bool := false
  completedPromises : List ResponsePromise := []
  nextPushId : Nat := 0
  maxPushIdSent : Nat := 0
  pendingRequest : Request := {}
  pendingPromise : Option Nat := none
  hasPendingRequest : Bool := false
  uniStreamBuf : Nat → Bytes := fun _ => []
  promises : Nat → ResponsePromise := fun _ => {}
  bidiOpens : Nat → Option Nat := fun _ => none
  uniOpens : Nat → Option Nat := fun _ => none
  events : List Event := []

namespace Session

def record (session : Session) (event : Event) : Session :=
  { session with events := session.events ++ [event] }

/-- A stream of the map, or a new one. -/
def stream (session : Session) (streamId : Nat) : StreamState :=
  (session.streams streamId).getD {}

def setStream (session : Session) (streamId : Nat) (ss : StreamState) : Session :=
  { session with
    streams := fun other => if other = streamId then some ss else session.streams other }

def modifyStream (session : Session) (streamId : Nat) (change : StreamState → StreamState) :
    Session :=
  session.setStream streamId (change (session.stream streamId))

def setPromise (session : Session) (ref : Nat) (promise : ResponsePromise) : Session :=
  { session with
    promises := fun other => if other = ref then promise else session.promises other }

/-- `ngtcp2_conn_open_bidi_stream`: a new stream or an error. -/
def openBidiStream (session : Session) : Option Nat × Session :=
  (session.bidiOpens 0, { session with bidiOpens := fun call => session.bidiOpens (call + 1) })

/-- `ngtcp2_conn_open_uni_stream`: a new stream or an error. -/
def openUniStream (session : Session) : Option Nat × Session :=
  (session.uniOpens 0, { session with uniOpens := fun call => session.uniOpens (call + 1) })

/-! ### Responses and pushes -/

/-- The header list of a response. -/
def responseHeaders (resp : Response) : Headers :=
  (ascii ":status", toString resp.status.code) :: resp.hdrs

/-- The frames of a message: its headers and, if there is one, its body. -/
def messageFrames (headers : Headers) (bd : Bytes) : Bytes :=
  buildHeadersFrame (encodeStatic headers) ++ if bd = [] then [] else buildDataFrame bd

/-- `submit_response`. One packet is written at a time. -/
def submitResponse (session : Session) (streamId : Nat) (resp : Response) : Session :=
  let ss := session.stream streamId
  let ss := { ss with sendBuf := ss.sendBuf ++ messageFrames (responseHeaders resp) resp.bd }
  let session := session.setStream streamId ss
  if ss.sendOffset < ss.sendBuf.length then
    session.record (.write streamId (ss.sendBuf.drop ss.sendOffset) true)
  else session

/-- The header list of a promised request. -/
def promisedHeaders (req : Request) : Headers :=
  [(ascii ":method", req.method.toBytes),
    (ascii ":path", if req.path = [] then ascii "/" else req.path),
    (ascii ":scheme", ascii "https"),
    (ascii ":authority", (req.hdrs.get (ascii "Host")).getD (ascii "localhost"))] ++
    (req.hdrs.map fun header => (toLower header.1, header.2)).filter fun header =>
      header.1 ≠ ascii "host" ∧ header.1 ≠ ascii "connection"

/-- The first step of `do_submit_push`. A control stream that is not open has the identifier `-1`,
to which nothing is written. -/
def sendMaxPushId (session : Session) (pushId : Nat) : Session :=
  if session.maxPushIdSent ≤ pushId then
    let session := { session with maxPushIdSent := pushId + 10 }
    match session.controlStreamId with
    | none => session
    | some control => session.record (.write control (buildMaxPushIdFrame (pushId + 10)) false)
  else session

/-- `do_submit_push`. -/
def doSubmitPush (session : Session) (promisedReq : Request) (pushResp : Response)
    (associatedStreamId : Nat) : Session :=
  match session.mode with
  | .client => session
  | .server =>
      let pushId := session.nextPushId
      let session := { session with nextPushId := pushId + 1 }.sendMaxPushId pushId
      let promise := buildPushPromiseFrame pushId (encodeStatic (promisedHeaders promisedReq))
      let session := session.record (.write associatedStreamId promise false)
      match session.openUniStream with
      | (none, session) => session
      | (some pushStreamId, session) =>
          session.record (.write pushStreamId
            (encodeVarint StreamType.push.code ++ encodeVarint pushId ++
              messageFrames (responseHeaders pushResp) pushResp.bd) true)

/-! ### Request streams -/

/-- `dispatch_request`. -/
def dispatchRequest (session : Session) (streamId : Nat) : Session :=
  match session.requestHandler with
  | none => session
  | some handler =>
      let ss := session.stream streamId
      let req := { ss.req with bd := ss.body }
      let session := (session.setStream streamId { ss with req }).record (.requestHandler req)
      let session := session.submitResponse streamId (handler req)
      match session.pushProvider with
      | none => session
      | some provider =>
          (provider req).foldl (fun session push => session.doSubmitPush push.1 push.2 streamId)
            (session.record (.pushProvider req))

/-- The loop body of `handle_request_headers` and of `handle_push_promise`. -/
def applyRequestHeader (req : Request) (header : Header) : Request :=
  let (name, value) := header
  if name = ascii ":method" then
    match parseMethod value with
    | none => req
    | some method => { req with method }
  else if name = ascii ":path" then { req with path := value }
  else if name = ascii ":authority" then
    { req with hdrs := Headers.append req.hdrs (ascii "Host") value }
  else if name = ascii ":scheme" then req
  else if name.getD 0 0 ≠ 58 then { req with hdrs := Headers.append req.hdrs name value }
  else req

/-- `std::atoi`: white space, a sign and digits. -/
def atoi (text : Bytes) : Int :=
  let text := text.dropWhile fun byte => byte = 32 ∨ 9 ≤ byte ∧ byte ≤ 13
  let negative := text.head? = some 45
  let digits := (if negative ∨ text.head? = some 43 then text.tail else text).takeWhile isDigit
  let value := digitsValue digits
  wrapInt32 (if negative then -(min value (2 ^ 63) : Nat) else (min value (2 ^ 63 - 1) : Nat))

/-- The loop body of `handle_response_headers`. -/
def applyResponseHeader (resp : Response) (header : Header) : Response :=
  let (name, value) := header
  if name = ascii ":status" then
    { resp with status := ⟨if 0 < atoi value then atoi value else 500⟩ }
  else if name.getD 0 0 ≠ 58 then { resp with hdrs := Headers.set resp.hdrs name value }
  else resp

/-- The response of a stream goes to its promise. -/
def completePromise (session : Session) (streamId : Nat) : Session :=
  let ss := session.stream streamId
  match ss.promise with
  | none => session
  | some ref =>
      let promise := session.promises ref
      if promise.complete then session
      else
        let resp := { ss.resp with bd := ss.respBody, ver := .http3 }
        let session := session.setPromise ref { promise with resp, complete := true }
        let session := session.setStream streamId
          { ss with resp := { ss.resp with hdrs := [], bd := [], trailers := [] } }
        if promise.waiter then session.record (.resume ref) else session

/-- `handle_response_headers`. -/
def handleResponseHeaders (session : Session) (streamId : Nat) (payload : Bytes) :
    Except Fault Session := do
  let headers ← session.decoder.decode payload
  let ss := session.stream streamId
  let resp := { headers.foldl applyResponseHeader ss.resp with ver := .http3 }
  let session := session.setStream streamId { ss with respHeadersComplete := true, resp }
  return if ss.endStream then session.completePromise streamId else session

/-- `handle_response_data`. -/
def handleResponseData (session : Session) (streamId : Nat) (payload : Bytes) : Session :=
  let ss := session.stream streamId
  let session := session.setStream streamId { ss with respBody := ss.respBody ++ payload }
  if ss.endStream && ss.respHeadersComplete then session.completePromise streamId else session

/-- `handle_request_headers`. -/
def handleRequestHeaders (session : Session) (streamId : Nat) (payload : Bytes) :
    Except Fault Session :=
  match session.mode with
  | .client => session.handleResponseHeaders streamId payload
  | .server => do
      let headers ← session.decoder.decode payload
      let ss := session.stream streamId
      let req := { headers.foldl applyRequestHeader ss.req with ver := .http3 }
      let session := session.setStream streamId { ss with headersComplete := true, req }
      return if ss.endStream then session.dispatchRequest streamId else session

/-- `handle_request_data`. -/
def handleRequestData (session : Session) (streamId : Nat) (payload : Bytes) : Session :=
  match session.mode with
  | .client => session.handleResponseData streamId payload
  | .server =>
      let ss := session.stream streamId
      let ss := { ss with body := ss.body ++ payload }
      let session := session.setStream streamId ss
      if ss.endStream then
        let session := session.setStream streamId { ss with req := { ss.req with bd := ss.body } }
        if ss.headersComplete then session.dispatchRequest streamId else session
      else session

/-- What is done with a frame of a request stream. -/
def handleRequestFrame (streamId : Nat) (session : Session) (f : Frame) : Except Fault Session :=
  match f.type with
  | .headers => session.handleRequestHeaders streamId f.payload
  | .data => .ok (session.handleRequestData streamId f.payload)
  | _ => .ok session

/-- A bidirectional stream that data comes on is open. -/
def receiving (streamId : Nat) (ss : StreamState) : StreamState :=
  { ss with streamId, state := if ss.state = StreamPhase.idle then .opened else ss.state }

/-- What `cb_recv_stream_data` does at the end of a bidirectional stream. -/
def finishStream (session : Session) (streamId : Nat) : Session :=
  let session := session.modifyStream streamId fun ss => { ss with endStream := true }
  let ss := session.stream streamId
  match session.mode with
  | .server => if ss.headersComplete then session.dispatchRequest streamId else session
  | .client => if ss.respHeadersComplete then session.completePromise streamId else session

/-- The part of `cb_recv_stream_data` for bidirectional streams. The reader of the stream is kept
apart while its frames are handled, which do not use it. -/
def recvBidiStreamData (session : Session) (streamId : Nat) (data : Bytes) (fin : Bool) :
    Except Fault Session := do
  let session := session.modifyStream streamId (receiving streamId)
  let (reader, session) ←
    (session.stream streamId).reader.read (handleRequestFrame streamId) data session
  let session := session.modifyStream streamId fun ss => { ss with reader }
  return if fin then session.finishStream streamId else session

/-! ### Unidirectional streams -/

/-- `handle_push_promise`. -/
def handlePushPromise (session : Session) (payload : Bytes) : Except Fault Session :=
  match session.mode with
  | .server => .ok session
  | .client => do
      let (pushId, headerBlock) := parsePushPromise payload
      let headers ← session.decoder.decode headerBlock
      let promisedRequest := { headers.foldl applyRequestHeader {} with ver := .http3 }
      return if session.pushHandler then session.record (.pushHandler { pushId, promisedRequest })
        else session

/-- What is done with a frame of the control stream; `handle_settings` does not keep what it
parses. -/
def handleControlFrame (session : Session) (f : Frame) : Except Fault Session :=
  match f.type with
  | .pushPromise => session.handlePushPromise f.payload
  | _ => .ok session

/-- The loop body over the headers of a pushed response. -/
def applyPushHeader (resp : Response) (header : Header) : Response :=
  let (name, value) := header
  if name = ascii ":status" then { resp with status := ⟨fromChars value⟩ }
  else if name.getD 0 0 ≠ 58 then { resp with hdrs := Headers.append resp.hdrs name value }
  else resp

/-- The frame of a push stream, if its reader has one. A frame that has been taken is not followed
by another, since the loop does not feed the reader. -/
def handlePushFrame (decoder : QpackDecoder) (ss : StreamState) : Except Fault StreamState :=
  if ss.reader.hasFrame then
    let (reader, f) := ss.reader.takeFrame
    let ss := { ss with reader }
    match f.type with
    | .headers => do
        let headers ← decoder.decode f.payload
        return { ss with
          resp := { headers.foldl applyPushHeader ss.resp with ver := .http3 }
          headersComplete := true }
    | .data => .ok { ss with respBody := ss.respBody ++ f.payload }
    | _ => .ok ss
  else .ok ss

/-- The beginning of `handle_push_stream`, which takes the push ID as long as there are no headers;
nothing if the ID is not complete. What the reader does not consume is dropped. -/
def feedPushStream (ss : StreamState) (data : Bytes) : Option StreamState :=
  if ss.headersComplete = false ∧ ss.body = [] then
    (decodeVarint data).map fun (pushId, n) =>
      { ss with sendOffset := pushId, reader := (ss.reader.feed (data.drop n)).1 }
  else some { ss with reader := (ss.reader.feed data).1 }

/-- `handle_push_stream`. -/
def handlePushStream (session : Session) (streamId : Nat) (data : Bytes) (fin : Bool) :
    Except Fault Session :=
  match session.mode with
  | .server => .ok session
  | .client => do
      let ss := { session.stream streamId with streamId }
      match feedPushStream ss data with
      | none => return session.setStream streamId ss
      | some ss =>
          let ss ← handlePushFrame session.decoder ss
          if fin && ss.headersComplete then
            let promise : ResponsePromise :=
              { isPush := true
                pushInfo := { pushId := ss.sendOffset }
                resp := { ss.resp with bd := ss.respBody }
                complete := true }
            let ss := { ss with
              resp := { ss.resp with hdrs := [], bd := [], trailers := [] }, respBody := [] }
            return { session.setStream streamId ss with
              completedPromises := session.completedPromises ++ [promise] }
          else return session.setStream streamId ss

/-- What `cb_recv_stream_data` does with a unidirectional stream whose type is known: all that has
come of it is processed again. -/
def processUniStream (session : Session) (streamId : Nat) (type : Option StreamType)
    (payload : Bytes) (fin : Bool) : Except Fault Session :=
  let ss := session.stream streamId
  match type with
  | some .control =>
      let session := session.setStream streamId { ss with controlStream := true }
      (FrameReader.read handleControlFrame {} payload session).map (·.2)
  | some .push => session.handlePushStream streamId payload fin
  | some .qpackEncoder => do
      let session := session.setStream streamId { ss with qpackEncoderStream := true }
      let decoder ← session.decoder.processEncoderInstructions payload
      return { session with decoder }
  | some .qpackDecoder => .ok (session.setStream streamId { ss with qpackDecoderStream := true })
  | none => .ok session

/-- The part of `cb_recv_stream_data` for unidirectional streams. -/
def recvUniStreamData (session : Session) (streamId : Nat) (data : Bytes) (fin : Bool) :
    Except Fault Session :=
  let session := session.setStream streamId { session.stream streamId with streamId }
  let buf := session.uniStreamBuf streamId ++ data
  let session := { session with
    uniStreamBuf := fun other => if other = streamId then buf else session.uniStreamBuf other }
  match decodeVarint buf with
  | none => .ok session
  | some (streamType, consumed) =>
      session.processUniStream streamId (StreamType.ofCode streamType) (buf.drop consumed) fin

/-- `cb_recv_stream_data`. -/
def recvStreamData (session : Session) (streamId : Nat) (data : Bytes) (fin : Bool) :
    Except Fault Session :=
  if streamId &&& 0x02 ≠ 0 then session.recvUniStreamData streamId data fin
  else session.recvBidiStreamData streamId data fin

/-! ### Requests -/

/-- A unidirectional stream is opened and its first data written. -/
def openTypedStream (session : Session) (data : Bytes) : Option Nat × Session :=
  match session.openUniStream with
  | (none, session) => (none, session)
  | (some streamId, session) => (some streamId, session.record (.write streamId data false))

/-- `open_control_streams`. -/
def openControlStreams (session : Session) : Session :=
  if session.controlStreamId.isSome then session
  else
    let (control, session) := session.openTypedStream
      (encodeVarint StreamType.control.code ++ buildSettingsFrame [(0x06, 8192)])
    if control.isNone then session
    else
      let session := { session with controlStreamId := control }
      let (encoder, session) := session.openTypedStream (encodeVarint StreamType.qpackEncoder.code)
      let session :=
        { session with qpackEncoderStreamId := encoder.or session.qpackEncoderStreamId }
      let (decoder, session) := session.openTypedStream (encodeVarint StreamType.qpackDecoder.code)
      { session with qpackDecoderStreamId := decoder.or session.qpackDecoderStreamId }

/-- The value of the last header that names the authority. -/
def authority (hdrs : Headers) : Bytes :=
  hdrs.foldl (fun authority header =>
    if header.1 = ascii ":authority" ∨ header.1 = ascii "Host" ∨ header.1 = ascii "host" then
      header.2
    else authority) []

/-- The header list of a request. -/
def requestHeaders (req : Request) : Headers :=
  [(ascii ":method", req.method.toBytes),
    (ascii ":path", if req.path = [] then ascii "/" else req.path),
    (ascii ":scheme", ascii "https")] ++
    (if authority req.hdrs = [] then [] else [(ascii ":authority", authority req.hdrs)]) ++
    req.hdrs.filter fun header => header.1.getD 0 0 ≠ 58

/-- The frames of a request. -/
def requestFrames (req : Request) : Bytes := messageFrames (requestHeaders req) req.bd

/-- A request is put on a new stream. -/
def openRequest (session : Session) (streamId : Nat) (req : Request) (promise : Option Nat) :
    Session :=
  let frames := requestFrames req
  (session.setStream streamId { session.stream streamId with
    streamId, state := .opened, sendBuf := frames, promise }).record (.write streamId frames true)

/-- `submit_request`: what it returns and the session. -/
def submitRequest (session : Session) (req : Request) (promise : Option Nat) : Int × Session :=
  if session.handshakeDone then
    match session.openBidiStream with
    | (none, session) => (-3, session)
    | (some streamId, session) =>
        (wrapInt32 streamId, session.openRequest streamId req promise)
  else
    (0, { session with
      pendingRequest := req, pendingPromise := promise, hasPendingRequest := true })

/-- `submit_queued_request`. -/
def submitQueuedRequest (session : Session) : Session :=
  if session.hasPendingRequest then
    let session := { session with hasPendingRequest := false }
    match session.openBidiStream with
    | (none, session) =>
        match session.pendingPromise with
        | none => session
        | some ref =>
            session.setPromise ref { session.promises ref with error := true, complete := true }
    | (some streamId, session) =>
        session.openRequest streamId session.pendingRequest session.pendingPromise
  else session

/-- `cb_handshake_completed`. -/
def handshakeCompleted (session : Session) : Session :=
  let session := { session with handshakeDone := true }.openControlStreams
  match session.mode with
  | .server => session
  | .client => if session.hasPendingRequest then session.submitQueuedRequest else session

end Session

end AsyncNet.Http.H3
