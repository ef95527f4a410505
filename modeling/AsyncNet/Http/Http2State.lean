/-
This file models the state of `http2_session` of `src/http/http2_session.cpp` and what
the session sends. A method that changes the session maps its state to a state; a
stream that the source holds a reference to is read from the stream map again after
every call that may change it. The members of `impl` come in three parts: the
configuration, the frame reader, and the connection that the frames act on.

Handlers and callbacks are pure functions. What a streaming handler or a data
callback does to the session that calls it, it does through the session's own
interface, so it returns the list of calls it makes. A `response_promise` is shared
with its owner: promises live in a heap of their own and streams refer to them.

Three fields are not in the source: the heap, the bytes that have left the output
buffer, and the log of the frames that were processed and of the calls that were made
on the decoder, the handlers and the callbacks.
-/

import AsyncNet.Http.H2Frame
import AsyncNet.Http.Hpack

namespace AsyncNet.Http

open H2

/-! ### State -/

/-- `http2_session::mode`. -/
inductive Mode where
  | server | client
  deriving DecidableEq, Repr

/-- `push_promise_info`. -/
structure PushPromiseInfo where
  promisedStreamId : Nat := 0
  promisedRequest : Request := {}
  deriving DecidableEq, Repr

/-- A `response_promise` in the heap: one that the caller of `submit_request` made, or one that
`handle_push_promise` did. -/
inductive PromiseRef where
  | caller (id : Nat)
  | push (id : Nat)
  deriving DecidableEq, Repr

/-- `response_promise`, with whether a coroutine waits for it. -/
structure ResponsePromise where
  resp : Response := {}
  complete : Bool := false
  error : Bool := false
  isPush : Bool := false
  pushInfo : PushPromiseInfo := {}
  waiter : Bool := false
  deriving DecidableEq, Repr

/-- The calls on a session that a callback of it can make. -/
inductive Command where
  | setDataCallback (streamId : Nat) (cb : Nat → Bytes → Bool → List Command)
  | clearDataCallback (streamId : Nat)
  | submitResponse (streamId : Nat) (resp : Response)
  | submitResponseHeaders (streamId : Nat) (resp : Response)
  | submitData (streamId : Nat) (data : Bytes) (endStream : Bool)
  | submitTrailers (streamId : Nat) (trailers : Headers)
  | submitRequest (req : Request) (promise : Option PromiseRef) (noEndStream : Bool)
  | submitPush (parentStreamId : Nat) (promisedReq : Request) (pushResp : Response)
  | getPendingOutput
  | takeCompletedPromises

/-- `data_callback`: given the stream, the data and whether the stream ends. -/
abbrev DataCallback := Nat → Bytes → Bool → List Command

/-- `stream_state::st`. -/
inductive StreamPhase where
  | idle | opened | halfClosedLocal | halfClosedRemote | closed
  deriving DecidableEq, Repr

/-- `stream_state`. -/
structure StreamState where
  streamId : Nat := 0
  state : StreamPhase := .idle
  req : Request := {}
  resp : Response := {}
  body : Bytes := []
  headersComplete : Bool := false
  endStream : Bool := false
  sendWindow : Int := 65535
  recvWindow : Int := 65535
  promise : Option PromiseRef := none
  dataCb : Option DataCallback := none
  streamingHandled : Bool := false
  pendingHeaderBlock : Bytes := []

/-- What a session did that the log records. -/
inductive Event where
  | frame (frame : Frame)
  | decode (block : Bytes)
  | dispatch (streamId : Nat)
  | requestStartHandler (streamId : Nat) (req : Request) (endStream : Bool)
  | streamingRequestHandler (streamId : Nat) (req : Request)
  | requestHandler (req : Request)
  | pushProvider (req : Request)
  | pushHandler (info : PushPromiseInfo)
  | dataCallback (streamId : Nat) (data : Bytes) (endStream : Bool)
  | resume (promise : PromiseRef)
  deriving DecidableEq, Repr

/-- What the owner of a session configures: the mode and the handlers. The handlers of frames only
read it. -/
structure Config where
  mode : Mode
  requestHandler : Option (Request → Response) := none
  streamingRequestHandler : Option (Nat → Request → Bool × List Command) := none
  requestStartHandler : Option (Nat → Request → Bool → Bool × List Command) := none
  pushProvider : Option (Request → List (Request × Response)) := none
  pushHandler : Bool := false

/-- `http2_session::impl` but for its configuration and its frame reader: what the handlers of
frames change. -/
structure Connection where
  alive : Bool := true
  outputBuf : Bytes := []
  encoder : HpackEncoder := {}
  decoder : HpackDecoder := {}
  streams : Nat → Option StreamState := fun _ => none
  nextStreamId : Nat := 1
  lastClientStream : Nat := 0
  connSendWindow : Int := 65535
  connRecvWindow : Int := 65535
  peerMaxFrameSize : Nat := 16384
  peerInitialWindowSize : Nat := 65535
  completedPromises : List PromiseRef := []
  continuationStream : Nat := 0
  peerEnablePush : Bool := true
  nextPushStreamId : Nat := 2
  promises : PromiseRef → ResponsePromise := fun _ => {}
  nextPushPromise : Nat := 0
  sent : Bytes := []
  events : List Event := []

namespace Connection

/-- `enqueue`. -/
def enqueue (connection : Connection) (data : Bytes) : Connection :=
  { connection with outputBuf := connection.outputBuf ++ data }

def record (connection : Connection) (event : Event) : Connection :=
  { connection with events := connection.events ++ [event] }

/-- A stream of the map, or a new one. -/
def stream (connection : Connection) (streamId : Nat) : StreamState :=
  (connection.streams streamId).getD {}

def setStream (connection : Connection) (streamId : Nat) (state : StreamState) : Connection :=
  { connection with
    streams := fun other => if other = streamId then some state else connection.streams other }

/-- A change to a stream that is in the map. -/
def modifyStream (connection : Connection) (streamId : Nat) (change : StreamState → StreamState) :
    Connection :=
  { connection with
    streams := fun other =>
      if other = streamId then (connection.streams streamId).map change
        else connection.streams other }

/-- `streams_.erase`. -/
def eraseStream (connection : Connection) (streamId : Nat) : Connection :=
  { connection with
    streams := fun other => if other = streamId then none else connection.streams other }

def setPromise (connection : Connection) (ref : PromiseRef) (promise : ResponsePromise) :
    Connection :=
  { connection with
    promises := fun other => if other = ref then promise else connection.promises other }

/-- `impl::impl`: the initial SETTINGS are sent. -/
def create (mode : Mode) : Connection :=
  { nextStreamId := if mode = .server then 2 else 1
    outputBuf := buildSettingsFrame
      [⟨.maxConcurrentStreams, 100⟩, ⟨.initialWindowSize, 65535⟩, ⟨.maxHeaderListSize, 8192⟩,
        ⟨.enablePush, 1⟩] false }

/-- `goaway`. -/
def goaway (connection : Connection) (error : ErrorCode) (debug : Bytes) : Connection :=
  { connection.enqueue (buildGoaway connection.lastClientStream error debug) with alive := false }

/-! ### Frames to send -/

/-- A payload cut into frames of a size: the last one has the given flags, the others none. Each
takes a byte, so the number of bytes bounds them. -/
def splitFrames (type : FrameType) (lastFlags : UInt8) (streamId size : Nat) : Nat → Bytes → Bytes
  | 0, _ => []
  | count + 1, rest =>
      if rest = [] then []
      else
        buildFrame type (if rest.drop size = [] then lastFlags else 0) streamId (rest.take size) ++
          splitFrames type lastFlags streamId size count (rest.drop size)

/-- `build_headers_frame`. -/
def buildHeadersFrame (connection : Connection) (streamId : Nat) (flags : UInt8)
    (headers : Headers) :
    Bytes × Connection :=
  let (block, encoder) := connection.encoder.encode headers
  let size := connection.peerMaxFrameSize
  (if block.length ≤ size then
      buildFrame .headers (flags ||| Flag.endHeaders) streamId block
    else
      buildFrame .headers flags streamId (block.take size) ++
        splitFrames .continuation Flag.endHeaders streamId size block.length (block.drop size),
    { connection with encoder })

/-- `build_data_frames`. -/
def buildDataFrames (connection : Connection) (streamId : Nat) (data : Bytes) (noEndStream : Bool) :
    Bytes :=
  splitFrames .data (if noEndStream then 0 else Flag.endStream) streamId connection.peerMaxFrameSize
      data.length data ++
    if data = [] ∧ noEndStream = false then buildFrame .data Flag.endStream streamId [] else []

/-- `enqueue(build_headers_frame(..))`. -/
def sendHeaders (connection : Connection) (streamId : Nat) (flags : UInt8) (headers : Headers) :
    Connection :=
  let (frames, connection) := connection.buildHeadersFrame streamId flags headers
  connection.enqueue frames

/-- The names the response headers are not copied from. -/
def responseSkips : List Bytes :=
  [ascii "content-type", ascii "content-length", ascii "connection", ascii "transfer-encoding"]

/-- The headers of a response but for the pseudo headers: those that are not skipped, in lower
case. -/
def copiedHeaders (skips : List Bytes) (headers : Headers) : Headers :=
  (headers.map fun header => (toLower header.1, header.2)).filter fun header =>
    header.1 ∉ skips

/-- The status and the content type, which every response starts with. -/
def responseStart (resp : Response) : Headers :=
  (ascii ":status", toString resp.status.code) ::
    match Headers.get resp.hdrs (ascii "Content-Type") with
    | none => []
    | some contentType => [(ascii "content-type", contentType)]

/-- The header list of `do_submit_response`. -/
def responseHeaders (resp : Response) : Headers :=
  responseStart resp ++
    (if resp.bd ≠ [] then [(ascii "content-length", decimal resp.bd.length)] else []) ++
    copiedHeaders responseSkips resp.hdrs

/-- `streams_.find` and `state = closed`. -/
def closeStream (connection : Connection) (streamId : Nat) : Connection :=
  connection.modifyStream streamId fun state => { state with state := .closed }

/-- `if (has_body) enqueue(build_data_frames(..))`. -/
def sendBody (connection : Connection) (streamId : Nat) (data : Bytes) (noEndStream : Bool) :
    Connection :=
  if data ≠ [] then connection.enqueue (connection.buildDataFrames streamId data noEndStream)
  else connection

/-- `if (has_trailers) ..`: the trailers as a HEADERS frame that ends the stream. -/
def sendTrailers (connection : Connection) (streamId : Nat) (trailers : Headers) : Connection :=
  if trailers ≠ [] then
    connection.sendHeaders streamId Flag.endStream (copiedHeaders [] trailers)
  else connection

/-- `do_submit_response`. -/
def doSubmitResponse (connection : Connection) (streamId : Nat) (resp : Response) : Connection :=
  let hasBody := resp.bd ≠ []
  let hasTrailers := resp.trailers ≠ []
  let flags := if hasBody ∨ hasTrailers then 0 else Flag.endStream
  let connection := connection.sendHeaders streamId flags (responseHeaders resp)
  let connection := connection.sendBody streamId resp.bd hasTrailers
  let connection := connection.sendTrailers streamId resp.trailers
  connection.closeStream streamId

/-- `do_submit_response_headers`. -/
def doSubmitResponseHeaders (connection : Connection) (streamId : Nat) (resp : Response) :
    Connection :=
  connection.sendHeaders streamId 0 (responseStart resp ++ copiedHeaders responseSkips resp.hdrs)

/-- `do_submit_data`. -/
def doSubmitData (connection : Connection) (streamId : Nat) (data : Bytes) (endStream : Bool) :
    Connection :=
  let flags := if endStream then Flag.endStream else 0
  let connection :=
    connection.enqueue
      (if data = [] then buildFrame .data flags streamId []
        else splitFrames .data flags streamId connection.peerMaxFrameSize data.length data)
  if endStream then connection.closeStream streamId else connection

/-- `do_submit_trailers`. -/
def doSubmitTrailers (connection : Connection) (streamId : Nat) (trailers : Headers) : Connection :=
  (connection.sendHeaders streamId Flag.endStream (copiedHeaders [] trailers)).closeStream streamId

/-- The header list of `do_submit_request` and of a promised request. -/
def requestHeaders (req : Request) : Headers :=
  [(ascii ":method", req.method.toBytes),
    (ascii ":path", if req.path = [] then ascii "/" else req.path),
    (ascii ":scheme", ascii "https"),
    (ascii ":authority", (Headers.get req.hdrs (ascii "Host")).getD (ascii "localhost"))] ++
    copiedHeaders [ascii "host", ascii "connection"] req.hdrs

/-- `do_submit_request`, without the identifier it returns. -/
def doSubmitRequest (connection : Connection) (req : Request) (promise : Option PromiseRef)
    (noEndStream : Bool) : Connection :=
  let streamId := connection.nextStreamId
  let connection := { connection with nextStreamId := streamId + 2 }
  let connection := connection.setStream streamId
    { connection.stream streamId with streamId, state := .opened, promise }
  let hasBody := req.bd ≠ []
  let flags := if hasBody ∨ noEndStream then 0 else Flag.endStream
  let connection := connection.sendHeaders streamId flags (requestHeaders req)
  connection.sendBody streamId req.bd false

/-- `do_submit_push`, without the identifier it returns. -/
def doSubmitPush (connection : Connection) (parentStreamId : Nat) (promisedReq : Request)
    (pushResp : Response) : Connection :=
  if connection.peerEnablePush = false then connection
  else
    let promisedId := connection.nextPushStreamId
    let (block, encoder) := connection.encoder.encode (requestHeaders promisedReq)
    let connection := { connection with nextPushStreamId := promisedId + 2, encoder }
    let connection := connection.enqueue (buildPushPromise parentStreamId promisedId block)
    let connection := connection.setStream promisedId
      { connection.stream promisedId with streamId := promisedId, state := .halfClosedLocal }
    connection.doSubmitResponse promisedId pushResp

/-! ### Calls of the interface -/

/-- A call that a callback, or the owner of the session, makes. -/
def command (connection : Connection) : Command → Connection
  | .setDataCallback streamId cb =>
      connection.modifyStream streamId fun state => { state with dataCb := some cb }
  | .clearDataCallback streamId =>
      connection.modifyStream streamId fun state => { state with dataCb := none }
  | .submitResponse streamId resp => connection.doSubmitResponse streamId resp
  | .submitResponseHeaders streamId resp => connection.doSubmitResponseHeaders streamId resp
  | .submitData streamId data endStream => connection.doSubmitData streamId data endStream
  | .submitTrailers streamId trailers => connection.doSubmitTrailers streamId trailers
  | .submitRequest req promise noEndStream => connection.doSubmitRequest req promise noEndStream
  | .submitPush parentStreamId promisedReq pushResp =>
      connection.doSubmitPush parentStreamId promisedReq pushResp
  | .getPendingOutput =>
      { connection with sent := connection.sent ++ connection.outputBuf, outputBuf := [] }
  | .takeCompletedPromises => { connection with completedPromises := [] }

def commands (connection : Connection) (calls : List Command) : Connection :=
    calls.foldl command connection

/-- A call of a data callback. -/
def callDataCallback (connection : Connection) (cb : DataCallback) (streamId : Nat) (data : Bytes)
    (endStream : Bool) : Connection :=
  (connection.record (.dataCallback streamId data endStream)).commands (cb streamId data endStream)

end Connection

end AsyncNet.Http
