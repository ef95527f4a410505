/-
This file models what `http2_session` of `src/http/http2_session.cpp` does with what it
receives: the handlers of the frames, the loop that feeds it bytes, and the runs of a
session in the hands of its owner. Decoding a header block can fault, and the session
then ends with the fault.
-/

import AsyncNet.Http.Http2State

namespace AsyncNet.Http

open H2

namespace Connection

/-! ### Requests and responses that are complete -/

/-- A call of the streaming request handler, if there is one, with what it decides. -/
def callStreamingRequestHandler (config : Config) (connection : Connection) (streamId : Nat) :
    Bool × Connection :=
  match config.streamingRequestHandler with
  | none => (false, connection)
  | some handler =>
      let req := (connection.stream streamId).req
      let (taken, calls) := handler streamId req
      (taken, (connection.record (.streamingRequestHandler streamId req)).commands calls)

/-- The pushes of the push provider, if there is one and the peer accepts them. -/
def pushAssociated (config : Config) (connection : Connection) (streamId : Nat) : Connection :=
  match config.pushProvider with
  | none => connection
  | some provider =>
      if connection.peerEnablePush then
        let req := (connection.stream streamId).req
        (provider req).foldl (fun connection push => connection.doSubmitPush streamId push.1 push.2)
          (connection.record (.pushProvider req))
      else connection

/-- The answer of the request handler, or of the session itself if there is none. -/
def answerRequest (config : Config) (connection : Connection) (streamId : Nat) : Connection :=
  match config.requestHandler with
  | none => connection.doSubmitResponse streamId responseNotFound
  | some handler =>
      let req := (connection.stream streamId).req
      let connection := connection.record (.requestHandler req)
      pushAssociated config (connection.doSubmitResponse streamId (handler req)) streamId

/-- `dispatch_request`. -/
def dispatchRequest (config : Config) (connection : Connection) (streamId : Nat) : Connection :=
  let connection := connection.record (.dispatch streamId)
  let connection := connection.modifyStream streamId fun state =>
    { state with req := { state.req with bd := state.body }, body := [] }
  let (taken, connection) := connection.callStreamingRequestHandler config streamId
  if taken then connection else connection.answerRequest config streamId

/-- What a move leaves of a response: the containers are empty. -/
def movedFrom (resp : Response) : Response := { resp with hdrs := [], bd := [], trailers := [] }

/-- `complete_promise`. -/
def completePromise (connection : Connection) (streamId : Nat) : Connection :=
  let connection := connection.modifyStream streamId fun state =>
    { state with resp := { state.resp with bd := state.body }, body := [] }
  let state := connection.stream streamId
  match state.promise with
  | none => connection
  | some ref =>
      let promise := connection.promises ref
      let connection := connection.setPromise ref
        { promise with resp := state.resp, complete := true }
      let connection := connection.modifyStream streamId fun state =>
        { state with resp := movedFrom state.resp }
      let connection := { connection with
        completedPromises := connection.completedPromises ++ [ref] }
      if promise.waiter then connection.record (.resume ref) else connection

/-! ### Frames received -/

/-- The payload of a DATA or HEADERS frame without its padding, or the error it is answered
with. -/
def stripPadding (f : Frame) : Except ErrorCode Bytes :=
  if f.hdr.hasFlag Flag.padded then
    if f.payload.length < 1 then .error .frameSizeError
    else
      let padLen := (f.payload.getD 0 0).toNat
      if f.payload.length < 1 + padLen then .error .protocolError
      else .ok ((f.payload.drop 1).take (f.payload.length - (1 + padLen)))
  else .ok f.payload

/-- The header block fragment of a HEADERS frame: neither padding nor priority. -/
def headerFragment (f : Frame) : Except ErrorCode Bytes := do
  let payload ← stripPadding f
  if f.hdr.hasFlag Flag.priority then
    if payload.length < 5 then .error .frameSizeError else .ok (payload.drop 5)
  else .ok payload

/-- The window update that a receive window asks for once it is below half of the default. -/
def windowIncrement (window : Int) : Option Nat :=
  if window < 65535 / 2 then some ((65535 - window) % 2 ^ 32).toNat else none

/-- The connection's window update, when it is due. -/
def replenishConnection (connection : Connection) : Connection :=
  match windowIncrement connection.connRecvWindow with
  | none => connection
  | some increment =>
      { connection.enqueue (buildWindowUpdate 0 increment) with
        connRecvWindow := connection.connRecvWindow + increment }

/-- A stream's window update, when it is due. -/
def replenishStream (connection : Connection) (streamId : Nat) : Connection :=
  match windowIncrement (connection.stream streamId).recvWindow with
  | none => connection
  | some increment =>
      (connection.enqueue (buildWindowUpdate streamId increment)).modifyStream streamId fun state =>
        { state with recvWindow := state.recvWindow + increment }

/-- The flow control of `handle_data`, for the connection and for the stream. -/
def updateWindows (connection : Connection) (streamId length : Nat) : Connection :=
  let connection := { connection with connRecvWindow := connection.connRecvWindow - length }
  let connection := connection.modifyStream streamId fun state =>
    { state with recvWindow := state.recvWindow - length }
  connection.replenishConnection.replenishStream streamId

/-- Data goes to the callback of its stream, or to the body. -/
def deliverData (connection : Connection) (streamId : Nat) (state : StreamState) (data : Bytes)
    (endStream : Bool) : Connection :=
  match state.dataCb with
  | some cb => connection.callDataCallback cb streamId data endStream
  | none => connection.modifyStream streamId fun state => { state with body := state.body ++ data }

/-- The end of `handle_data` for a stream that ends. -/
def endData (config : Config) (connection : Connection) (streamId : Nat) : Connection :=
  let connection := connection.modifyStream streamId fun state => { state with endStream := true }
  if config.mode = .server then
    if (connection.stream streamId).streamingHandled then connection
    else connection.dispatchRequest config streamId
  else connection.completePromise streamId

/-- `handle_data`. -/
def handleData (config : Config) (connection : Connection) (f : Frame) : Connection :=
  let sid := f.hdr.streamId
  if sid = 0 then connection.goaway .protocolError (ascii "DATA on stream 0")
  else
    match connection.streams sid with
    | none => connection.enqueue (buildRstStream sid .streamClosed)
    | some state =>
        match stripPadding f with
        | .error error => connection.goaway error []
        | .ok data =>
            let endStream := f.hdr.hasFlag Flag.endStream
            let connection := connection.deliverData sid state data endStream
            let connection := connection.updateWindows sid data.length
            if endStream then connection.endData config sid else connection

/-- The path and the query of a `:path`. -/
def splitPath (value : Bytes) : Bytes × Option Bytes :=
  match value.findIdx? (· = 63) with
  | none => (value, none)
  | some position => (value.take position, some (value.drop (position + 1)))

/-- The loop body of `apply_headers`. -/
def applyRequestHeader (req : Request) (header : Header) : Request :=
  let (name, value) := header
  if name = ascii ":method" then
    match parseMethod value with
    | none => req
    | some method => { req with method }
  else if name = ascii ":path" then
    let (path, query) := splitPath value
    { req with path := if path = [] then ascii "/" else path, query := query.getD req.query }
  else if name = ascii ":scheme" ∨ name = ascii ":authority" then
    if name = ascii ":authority" then
      { req with hdrs := Headers.append req.hdrs (ascii "Host") value }
    else req
  else if name.getD 0 0 ≠ 58 then { req with hdrs := Headers.append req.hdrs name value }
  else req

/-- A call of the request start handler, with what it decides about the stream. -/
def callRequestStartHandler (connection : Connection)
    (handler : Nat → Request → Bool → Bool × List Command) (streamId : Nat) (endStream : Bool) :
    Bool × Connection :=
  let req := (connection.stream streamId).req
  let (taken, calls) := handler streamId req endStream
  let connection := (connection.record (.requestStartHandler streamId req endStream)).commands calls
  (taken,
    if taken then connection.modifyStream streamId fun state =>
      { state with streamingHandled := true }
    else connection)

/-- `apply_headers`. -/
def applyHeaders (config : Config) (connection : Connection) (streamId : Nat) (headers : Headers)
    (endStream : Bool) : Connection :=
  let connection := connection.modifyStream streamId fun state =>
    { state with
      headersComplete := true
      req := { headers.foldl applyRequestHeader state.req with ver := .http2 } }
  if endStream then
    let connection := connection.modifyStream streamId fun state => { state with endStream := true }
    match config.requestStartHandler with
    | none => connection.dispatchRequest config streamId
    | some handler =>
        let (taken, connection) := connection.callRequestStartHandler handler streamId true
        if taken then connection else connection.dispatchRequest config streamId
  else
    match config.requestStartHandler with
    | none => connection
    | some handler => (connection.callRequestStartHandler handler streamId false).2

/-- The loop body of `apply_response_headers`. -/
def applyResponseHeader (resp : Response) (header : Header) : Response :=
  let (name, value) := header
  if name = ascii ":status" then { resp with status := ⟨fromChars value⟩ }
  else if name.getD 0 0 ≠ 58 then { resp with hdrs := Headers.append resp.hdrs name value }
  else resp

/-- `apply_response_headers`. -/
def applyResponseHeaders (connection : Connection) (streamId : Nat) (headers : Headers)
    (endStream : Bool) : Connection :=
  let connection := connection.modifyStream streamId fun state =>
    { state with
      headersComplete := true
      resp := { headers.foldl applyResponseHeader state.resp with ver := .http2 } }
  if endStream then
    (connection.modifyStream streamId fun state => { state with endStream := true }).completePromise
      streamId
  else connection

/-- A call of `decoder_.decode`. -/
def decode (connection : Connection) (block : Bytes) : Except Fault (Headers × Connection) := do
  let (headers, decoder) ← connection.decoder.decode block
  return (headers, { connection.record (.decode block) with decoder })

/-- A header block that waits for its CONTINUATION frames. -/
def awaitContinuation (connection : Connection) (streamId : Nat) (block : Bytes)
    (endStream : Bool) :
    Connection :=
  let connection := connection.modifyStream streamId fun state =>
    { state with pendingHeaderBlock := block, endStream := state.endStream || endStream }
  { connection with continuationStream := streamId }

/-- Whether HEADERS are the trailers of a stream that a streaming handler has taken. -/
def streamingTrailers (connection : Connection) (streamId : Nat) (endStream : Bool) : Bool :=
  match connection.streams streamId with
  | none => false
  | some state => state.streamingHandled && endStream

/-- The end of such a stream: its callback is told. -/
def endStreaming (connection : Connection) (streamId : Nat) : Connection :=
  let connection :=
    match (connection.stream streamId).dataCb with
    | none => connection
    | some cb => connection.callDataCallback cb streamId [] true
  connection.modifyStream streamId fun state => { state with endStream := true }

/-- A server creates or finds the stream of HEADERS. -/
def openStream (connection : Connection) (streamId : Nat) : Connection :=
  let connection := connection.setStream streamId
    { connection.stream streamId with streamId, state := .opened }
  { connection with lastClientStream := max connection.lastClientStream streamId }

/-- The part of `handle_headers` for a server. -/
def handleRequestHeaders (config : Config) (connection : Connection) (sid : Nat) (block : Bytes)
    (endHeaders endStream : Bool) : Except Fault Connection :=
  if connection.streamingTrailers sid endStream then .ok (connection.endStreaming sid)
  else if endHeaders then do
    let (headers, connection) ← (connection.openStream sid).decode block
    return connection.applyHeaders config sid headers endStream
  else .ok ((connection.openStream sid).awaitContinuation sid block endStream)

/-- The part of `handle_headers` for a client. -/
def handleResponseHeaders (connection : Connection) (sid : Nat) (block : Bytes)
    (endHeaders endStream : Bool) : Except Fault Connection :=
  match connection.streams sid with
  | none => .ok connection
  | some state =>
      match state.headersComplete && endStream, state.dataCb with
      | true, some cb => do
          let connection := connection.callDataCallback cb sid [] true
          let (headers, connection) ← connection.decode block
          return connection.applyResponseHeaders sid headers endStream
      | _, _ =>
          if endHeaders then do
            let (headers, connection) ← connection.decode block
            return connection.applyResponseHeaders sid headers endStream
          else .ok (connection.awaitContinuation sid block endStream)

/-- `handle_headers`. -/
def handleHeaders (config : Config) (connection : Connection) (f : Frame) :
    Except Fault Connection :=
  let sid := f.hdr.streamId
  if sid = 0 then .ok (connection.goaway .protocolError (ascii "HEADERS on stream 0"))
  else
    match headerFragment f with
    | .error error => .ok (connection.goaway error [])
    | .ok block =>
        let endHeaders := f.hdr.hasFlag Flag.endHeaders
        let endStream := f.hdr.hasFlag Flag.endStream
        match config.mode with
        | .server => connection.handleRequestHeaders config sid block endHeaders endStream
        | .client => connection.handleResponseHeaders sid block endHeaders endStream

/-- `handle_continuation`. -/
def handleContinuation (config : Config) (connection : Connection) (f : Frame) :
    Except Fault Connection :=
  let sid := f.hdr.streamId
  match connection.streams sid with
  | none => .ok (connection.goaway .protocolError (ascii "CONTINUATION for unknown stream"))
  | some _ =>
      let connection := connection.modifyStream sid fun state =>
        { state with pendingHeaderBlock := state.pendingHeaderBlock ++ f.payload }
      if f.hdr.hasFlag Flag.endHeaders then do
        let connection := { connection with continuationStream := 0 }
        let (headers, connection) ← connection.decode (connection.stream sid).pendingHeaderBlock
        let connection := connection.modifyStream sid fun state =>
          { state with pendingHeaderBlock := [] }
        let endStream := (connection.stream sid).endStream
        match config.mode with
        | .server => return connection.applyHeaders config sid headers endStream
        | .client => return connection.applyResponseHeaders sid headers endStream
      else .ok connection

/-- The loop of `handle_settings`, and the acknowledgement at its end. -/
def applySettings : Connection → List SettingEntry → Connection
  | connection, [] => connection.enqueue (buildSettingsFrame [] true)
  | connection, setting :: settings =>
      match setting.id with
      | .headerTableSize =>
          applySettings { connection with
            encoder := connection.encoder.setMaxTableSize setting.value }
            settings
      | .initialWindowSize =>
          if maxWindowSize < setting.value then connection.goaway .flowControlError []
          else
            let delta := (setting.value : Int) - connection.peerInitialWindowSize
            applySettings
              { connection with
                streams := fun sid => (connection.streams sid).map fun state =>
                  { state with sendWindow := state.sendWindow + delta }
                peerInitialWindowSize := setting.value }
              settings
      | .maxFrameSize =>
          if setting.value < 16384 ∨ 16777215 < setting.value then
            connection.goaway .protocolError (ascii "Invalid MAX_FRAME_SIZE")
          else applySettings { connection with peerMaxFrameSize := setting.value } settings
      | .enablePush =>
          applySettings { connection with peerEnablePush := setting.value ≠ 0 } settings
      | _ => applySettings connection settings

/-- `handle_settings`. -/
def handleSettings (connection : Connection) (f : Frame) : Connection :=
  if f.hdr.streamId ≠ 0 then
    connection.goaway .protocolError (ascii "SETTINGS on non-zero stream")
  else if f.hdr.hasFlag Flag.ack then connection
  else if f.payload.length % settingsParamSize ≠ 0 then connection.goaway .frameSizeError []
  else connection.applySettings (parseSettings f.payload)

/-- `handle_ping`. -/
def handlePing (connection : Connection) (f : Frame) : Connection :=
  if f.hdr.streamId ≠ 0 then connection.goaway .protocolError (ascii "PING on non-zero stream")
  else if f.payload.length ≠ 8 then connection.goaway .frameSizeError []
  else if f.hdr.hasFlag Flag.ack then connection
  else connection.enqueue (buildPing f.payload true)

/-- `handle_window_update`. -/
def handleWindowUpdate (connection : Connection) (f : Frame) : Connection :=
  let sid := f.hdr.streamId
  if f.payload.length ≠ 4 then connection.goaway .frameSizeError []
  else
    let increment := parseWindowUpdate f.payload
    if increment = 0 then
      if sid = 0 then connection.goaway .protocolError (ascii "WINDOW_UPDATE 0 increment")
      else connection.enqueue (buildRstStream sid .protocolError)
    else if sid = 0 then
      let connection := { connection with connSendWindow := connection.connSendWindow + increment }
      if (maxWindowSize : Int) < connection.connSendWindow then
        connection.goaway .flowControlError []
      else connection
    else
      match connection.streams sid with
      | none => connection
      | some state =>
          let connection := connection.modifyStream sid fun state =>
            { state with sendWindow := state.sendWindow + increment }
          if (maxWindowSize : Int) < state.sendWindow + increment then
            connection.enqueue (buildRstStream sid .flowControlError)
          else connection

/-- `handle_goaway`. -/
def handleGoaway (connection : Connection) : Connection := { connection with alive := false }

/-- `handle_rst_stream`. -/
def handleRstStream (connection : Connection) (f : Frame) : Connection :=
  let sid := f.hdr.streamId
  if f.payload.length ≠ 4 then connection.goaway .frameSizeError []
  else
    match connection.streams sid with
    | none => connection
    | some state =>
        let connection :=
          match state.promise with
          | none => connection
          | some ref =>
              let promise := connection.promises ref
              let connection := connection.setPromise ref
                { promise with error := true, complete := true }
              let connection := { connection with
                completedPromises := connection.completedPromises ++ [ref] }
              if promise.waiter then connection.record (.resume ref) else connection
        connection.eraseStream sid

/-- The loop body of `handle_push_promise`. -/
def applyPromisedHeader (req : Request) (header : Header) : Request :=
  let (name, value) := header
  if name = ascii ":method" then
    match parseMethod value with
    | none => req
    | some method => { req with method }
  else if name = ascii ":path" then { req with path := value }
  else if name = ascii ":scheme" ∨ name = ascii ":authority" then
    if name = ascii ":authority" then
      { req with hdrs := Headers.append req.hdrs (ascii "Host") value }
    else req
  else if name.getD 0 0 ≠ 58 then { req with hdrs := Headers.append req.hdrs name value }
  else req

/-- The stream of a pushed response, with a promise of its own. -/
def promiseStream (connection : Connection) (info : PushPromiseInfo) : Connection :=
  let promisedId := info.promisedStreamId
  let ref := PromiseRef.push connection.nextPushPromise
  let connection := { connection with nextPushPromise := connection.nextPushPromise + 1 }
  let connection := connection.setPromise ref { isPush := true, pushInfo := info }
  connection.setStream promisedId
    { connection.stream promisedId with
      streamId := promisedId, state := .opened, promise := some ref }

/-- `handle_push_promise`. -/
def handlePushPromise (config : Config) (connection : Connection) (f : Frame) :
    Except Fault Connection :=
  match config.mode with
  | .server => .ok (connection.goaway .protocolError (ascii "PUSH_PROMISE on server"))
  | .client => do
      let (promisedStreamId, block) := parsePushPromise f.payload
      let (headers, connection) ← connection.decode block
      let promisedRequest := { headers.foldl applyPromisedHeader {} with ver := .http2 }
      let info := { promisedStreamId, promisedRequest }
      let connection := connection.promiseStream info
      return if config.pushHandler then connection.record (.pushHandler info) else connection

/-- `process_frame`. -/
def processFrame (config : Config) (connection : Connection) (f : Frame) :
    Except Fault Connection :=
  let connection := connection.record (.frame f)
  if connection.continuationStream ≠ 0 then
    if f.hdr.type ≠ .continuation ∨ f.hdr.streamId ≠ connection.continuationStream then
      .ok (connection.goaway .protocolError (ascii "Expected CONTINUATION"))
    else connection.handleContinuation config f
  else
    match f.hdr.type with
    | .data => .ok (connection.handleData config f)
    | .headers => connection.handleHeaders config f
    | .priority => .ok connection
    | .rstStream => .ok (connection.handleRstStream f)
    | .settings => .ok (connection.handleSettings f)
    | .pushPromise => connection.handlePushPromise config f
    | .ping => .ok (connection.handlePing f)
    | .goaway => .ok connection.handleGoaway
    | .windowUpdate => .ok (connection.handleWindowUpdate f)
    | .continuation => .ok (connection.goaway .protocolError (ascii "Unexpected CONTINUATION"))
    | .unknown _ => .ok connection

end Connection

/-! ### Feeding bytes -/

/-- `http2_session`. -/
structure Session where
  config : Config
  connection : Connection
  prefaceReceived : Bool := false
  reader : FrameReader := {}

namespace Session

/-- `http2_session::http2_session`. -/
def create (mode : Mode) : Session :=
  { config := { mode }, connection := Connection.create mode }

/-- A frame is processed. -/
def process (session : Session) (f : Frame) : Except Fault Session :=
  (session.connection.processFrame session.config f).map fun connection =>
    { session with connection }

/-- The inner loop of `feed`. Taking a frame resets the reader, so it makes one pass at most. -/
def drain (session : Session) : Except Fault Session :=
  if session.reader.hasFrame then
    let (f, reader) := session.reader.takeFrame
    process { session with reader } f
  else .ok session

/-- The outer loop of `feed`. It goes on only after a pass that took a byte, so the number of bytes
bounds the passes. -/
def feedLoop : Nat → Session → Bytes → Except Fault Session
  | 0, session, _ => .ok session
  | passes + 1, session, data =>
      if data = [] ∨ session.connection.alive = false then .ok session
      else do
        let (reader, rest) := session.reader.feed data
        let session ← drain { session with reader }
        if rest.length = data.length ∧ session.reader.hasFrame = false then return session
        feedLoop passes session rest

/-- `feed`, without the number it returns. -/
def feed (session : Session) (data : Bytes) : Except Fault Session :=
  if session.connection.alive = false then .ok session
  else
    feedLoop data.length
      { session with
        prefaceReceived := session.prefaceReceived || session.config.mode = .server }
      data

/-! ### Runs -/

/-- What the owner of a session can do with it besides feeding it. -/
inductive Op where
  | call (command : Command)
  | setRequestHandler (handler : Option (Request → Response))
  | setStreamingRequestHandler (handler : Option (Nat → Request → Bool × List Command))
  | setRequestStartHandler (handler : Option (Nat → Request → Bool → Bool × List Command))
  | setPushProvider (provider : Option (Request → List (Request × Response)))
  | setPushHandler (given : Bool)
  | await (promise : PromiseRef)

def op (session : Session) : Op → Session
  | .call command => { session with connection := session.connection.command command }
  | .setRequestHandler requestHandler =>
      { session with config := { session.config with requestHandler } }
  | .setStreamingRequestHandler streamingRequestHandler =>
      { session with config := { session.config with streamingRequestHandler } }
  | .setRequestStartHandler requestStartHandler =>
      { session with config := { session.config with requestStartHandler } }
  | .setPushProvider pushProvider =>
      { session with config := { session.config with pushProvider } }
  | .setPushHandler pushHandler =>
      { session with config := { session.config with pushHandler } }
  | .await ref =>
      { session with
        connection := session.connection.setPromise ref
          { session.connection.promises ref with waiter := true } }

/-- The sessions that can be reached by feeding bytes and by calls of the owner. -/
inductive Reachable : Session → Prop
  | create (mode : Mode) : Reachable (create mode)
  | op {session : Session} (before : Reachable session) (op : Op) : Reachable (session.op op)
  | feed {session next : Session} (before : Reachable session) (data : Bytes)
      (fed : session.feed data = .ok next) : Reachable next

end Session

end AsyncNet.Http
