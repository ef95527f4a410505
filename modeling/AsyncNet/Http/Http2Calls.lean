/-
This file says what the calls of the interface leave alone. A call can send frames,
set a data callback, close a stream and make a new one, and take what has accumulated
for the owner. All that frames build up stays as it is: the decoder, the windows, the
log, and of every stream the request, the response, the body and the flags.
-/

import AsyncNet.Http.Http2Session

namespace AsyncNet.Http

open H2

/-- The part of a stream that only frames change. -/
structure StreamCore where
  req : Request
  resp : Response
  body : Bytes
  headersComplete : Bool
  endStream : Bool
  recvWindow : Int
  streamingHandled : Bool
  pendingHeaderBlock : Bytes

def StreamState.core (state : StreamState) : StreamCore where
  req := state.req
  resp := state.resp
  body := state.body
  headersComplete := state.headersComplete
  endStream := state.endStream
  recvWindow := state.recvWindow
  streamingHandled := state.streamingHandled
  pendingHeaderBlock := state.pendingHeaderBlock

namespace Connection

/-! ### Streams of the map -/

section Streams

variable (connection : Connection) (sid : Nat)

@[simp] theorem streams_enqueue (data : Bytes) :
    (connection.enqueue data).streams = connection.streams := rfl

@[simp] theorem streams_record (event : Event) :
    (connection.record event).streams = connection.streams := rfl

@[simp] theorem streams_setStream (state : StreamState) :
    (connection.setStream sid state).streams sid = some state := if_pos rfl

theorem streams_setStream_of_ne (state : StreamState) (other : Nat) (different : other ≠ sid) :
    (connection.setStream sid state).streams other = connection.streams other := if_neg different

@[simp] theorem stream_setStream (state : StreamState) :
    (connection.setStream sid state).stream sid = state := by
  rw [stream, streams_setStream]
  rfl

@[simp] theorem streams_modifyStream (change : StreamState → StreamState) :
    (connection.modifyStream sid change).streams sid = (connection.streams sid).map change :=
  if_pos rfl

theorem streams_modifyStream_of_ne (change : StreamState → StreamState) (other : Nat)
    (different : other ≠ sid) :
    (connection.modifyStream sid change).streams other = connection.streams other :=
  if_neg different

theorem stream_modifyStream_of_ne (change : StreamState → StreamState) (other : Nat)
    (different : other ≠ sid) :
    (connection.modifyStream sid change).stream other = connection.stream other := by
  rw [stream, stream, streams_modifyStream_of_ne _ _ _ _ different]

/-- A field that a change keeps is the same for every stream. -/
theorem field_modifyStream {α : Type} (change : StreamState → StreamState)
    (field : StreamState → α) (keeps : ∀ state, field (change state) = field state) (other : Nat) :
    field ((connection.modifyStream sid change).stream other) =
      field (connection.stream other) := by
  by_cases same : other = sid
  · rw [same, stream, stream, streams_modifyStream]
    cases connection.streams sid with
    | none => rfl
    | some state => exact keeps state
  · rw [stream_modifyStream_of_ne _ _ _ _ same]

theorem stream_of_some {state : StreamState} (found : connection.streams sid = some state) :
    connection.stream sid = state := by
  rw [stream, found]
  rfl

@[simp] theorem stream_eraseStream : (connection.eraseStream sid).stream sid = {} := by
  rw [stream, eraseStream]
  dsimp only
  rw [if_pos rfl]
  rfl

theorem streams_eraseStream_of_ne (other : Nat) (different : other ≠ sid) :
    (connection.eraseStream sid).streams other = connection.streams other := if_neg different

theorem isSome_modifyStream (change : StreamState → StreamState) (other : Nat) :
    ((connection.modifyStream sid change).streams other).isSome =
      (connection.streams other).isSome := by
  by_cases same : other = sid
  · rw [same, streams_modifyStream, Option.isSome_map]
  · rw [streams_modifyStream_of_ne _ _ _ _ same]

end Streams

/-! ### What a call leaves alone -/

/-- Between the two only calls of the interface were made. -/
structure Quiet (before after : Connection) : Prop where
  alive : after.alive = before.alive
  decoder : after.decoder = before.decoder
  lastClientStream : after.lastClientStream = before.lastClientStream
  connSendWindow : after.connSendWindow = before.connSendWindow
  connRecvWindow : after.connRecvWindow = before.connRecvWindow
  peerMaxFrameSize : after.peerMaxFrameSize = before.peerMaxFrameSize
  peerInitialWindowSize : after.peerInitialWindowSize = before.peerInitialWindowSize
  peerEnablePush : after.peerEnablePush = before.peerEnablePush
  continuationStream : after.continuationStream = before.continuationStream
  promises : after.promises = before.promises
  events : after.events = before.events
  core : ∀ sid, (after.stream sid).core = (before.stream sid).core
  present : ∀ sid, (before.streams sid).isSome = true → (after.streams sid).isSome = true

theorem Quiet.refl (connection : Connection) : Quiet connection connection :=
  ⟨rfl, rfl, rfl, rfl, rfl, rfl, rfl, rfl, rfl, rfl, rfl, fun _ => rfl, fun _ present => present⟩

theorem Quiet.trans {first second third : Connection} (left : Quiet first second)
    (right : Quiet second third) : Quiet first third where
  alive := right.alive.trans left.alive
  decoder := right.decoder.trans left.decoder
  lastClientStream := right.lastClientStream.trans left.lastClientStream
  connSendWindow := right.connSendWindow.trans left.connSendWindow
  connRecvWindow := right.connRecvWindow.trans left.connRecvWindow
  peerMaxFrameSize := right.peerMaxFrameSize.trans left.peerMaxFrameSize
  peerInitialWindowSize := right.peerInitialWindowSize.trans left.peerInitialWindowSize
  peerEnablePush := right.peerEnablePush.trans left.peerEnablePush
  continuationStream := right.continuationStream.trans left.continuationStream
  promises := right.promises.trans left.promises
  events := right.events.trans left.events
  core := fun sid => (right.core sid).trans (left.core sid)
  present := fun sid present => right.present sid (left.present sid present)

variable (connection : Connection)

theorem quiet_enqueue (data : Bytes) : Quiet connection (connection.enqueue data) :=
  { Quiet.refl connection with }

theorem quiet_sendHeaders (sid : Nat) (flags : UInt8) (headers : Headers) :
    Quiet connection (connection.sendHeaders sid flags headers) :=
  { Quiet.refl connection with }

theorem quiet_modifyStream (sid : Nat) (change : StreamState → StreamState)
    (keeps : ∀ state, (change state).core = state.core) :
    Quiet connection (connection.modifyStream sid change) :=
  { Quiet.refl connection with
    core := field_modifyStream connection sid change StreamState.core keeps
    present := fun other present => by rw [isSome_modifyStream]; exact present }

theorem quiet_setStream (sid : Nat) (state : StreamState)
    (keeps : state.core = (connection.stream sid).core) :
    Quiet connection (connection.setStream sid state) :=
  { Quiet.refl connection with
    core := by
      intro other
      by_cases same : other = sid
      · rw [same, stream_setStream, keeps]
      · rw [stream, stream, streams_setStream_of_ne _ _ _ _ same]
    present := by
      intro other present
      by_cases same : other = sid
      · rw [same, streams_setStream]
        rfl
      · rw [streams_setStream_of_ne _ _ _ _ same]
        exact present }

theorem quiet_closeStream (sid : Nat) : Quiet connection (connection.closeStream sid) :=
  quiet_modifyStream connection sid _ fun _ => rfl

theorem quiet_sendBody (sid : Nat) (data : Bytes) (noEndStream : Bool) :
    Quiet connection (connection.sendBody sid data noEndStream) := by
  unfold sendBody
  split
  · exact quiet_enqueue connection _
  · exact Quiet.refl connection

theorem quiet_sendTrailers (sid : Nat) (trailers : Headers) :
    Quiet connection (connection.sendTrailers sid trailers) := by
  unfold sendTrailers
  split
  · exact quiet_sendHeaders connection sid _ _
  · exact Quiet.refl connection

theorem quiet_doSubmitResponse (sid : Nat) (resp : Response) :
    Quiet connection (connection.doSubmitResponse sid resp) := by
  unfold doSubmitResponse
  dsimp only
  refine Quiet.trans ?_ (quiet_closeStream _ sid)
  refine Quiet.trans ?_ (quiet_sendTrailers _ sid _)
  exact Quiet.trans (quiet_sendHeaders connection sid _ _) (quiet_sendBody _ sid _ _)

theorem quiet_doSubmitRequest (req : Request) (promise : Option PromiseRef) (noEndStream : Bool) :
    Quiet connection (connection.doSubmitRequest req promise noEndStream) := by
  unfold doSubmitRequest
  dsimp only
  refine Quiet.trans ?_ (quiet_sendBody _ _ _ _)
  refine Quiet.trans ?_ (quiet_sendHeaders _ _ _ _)
  refine Quiet.trans ?_ (quiet_setStream _ _ _ rfl)
  exact { Quiet.refl connection with }

theorem quiet_doSubmitPush (parent : Nat) (req : Request) (resp : Response) :
    Quiet connection (connection.doSubmitPush parent req resp) := by
  unfold doSubmitPush
  split
  · exact Quiet.refl connection
  · refine Quiet.trans ?_ (quiet_doSubmitResponse _ _ _)
    refine Quiet.trans ?_ (quiet_setStream _ _ _ rfl)
    refine Quiet.trans ?_ (quiet_enqueue _ _)
    exact { Quiet.refl connection with }

theorem quiet_foldl_doSubmitPush (parent : Nat) (pushes : List (Request × Response)) :
    Quiet connection (pushes.foldl
      (fun connection push => connection.doSubmitPush parent push.1 push.2) connection) := by
  induction pushes generalizing connection with
  | nil => exact Quiet.refl connection
  | cons push pushes inductionHypothesis =>
    exact (quiet_doSubmitPush connection parent push.1 push.2).trans (inductionHypothesis _)

/-- A call of the interface leaves alone what frames build up. -/
theorem quiet_command (call : Command) : Quiet connection (connection.command call) := by
  cases call with
  | setDataCallback sid cb => exact quiet_modifyStream connection sid _ fun _ => rfl
  | clearDataCallback sid => exact quiet_modifyStream connection sid _ fun _ => rfl
  | submitResponse sid resp => exact quiet_doSubmitResponse connection sid resp
  | submitResponseHeaders sid resp => exact quiet_sendHeaders connection sid _ _
  | submitData sid data endStream =>
    cases endStream with
    | false => exact quiet_enqueue connection _
    | true => exact (quiet_enqueue connection _).trans (quiet_closeStream _ sid)
  | submitTrailers sid trailers =>
    exact (quiet_sendHeaders connection sid _ _).trans (quiet_closeStream _ sid)
  | submitRequest req promise noEndStream =>
    exact quiet_doSubmitRequest connection req promise noEndStream
  | submitPush parent req resp => exact quiet_doSubmitPush connection parent req resp
  | getPendingOutput => exact { Quiet.refl connection with }
  | takeCompletedPromises => exact { Quiet.refl connection with }

theorem quiet_commands (calls : List Command) : Quiet connection (connection.commands calls) := by
  induction calls generalizing connection with
  | nil => exact Quiet.refl connection
  | cons call calls inductionHypothesis =>
    exact (quiet_command connection call).trans (inductionHypothesis (connection.command call))

end Connection

end AsyncNet.Http
