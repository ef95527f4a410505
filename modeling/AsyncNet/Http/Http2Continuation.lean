/-
This file compares a header block that comes in one HEADERS frame with the same block
cut into HEADERS and CONTINUATION frames. The source has two copies of what follows a
complete block. They agree but for two things: the early returns of `handle_headers`
come before the block is complete, so the CONTINUATION frames then find nobody waiting
for them, and `handle_continuation` takes END_STREAM from the stream, where an earlier
frame may have left it.
-/

import AsyncNet.Http.Http2HandlerCalls
import AsyncNet.Http.Http2Steps

namespace AsyncNet.Http

open Library H2

/-! ### Header blocks in frames -/

/-- A HEADERS frame with a fragment of a header block. -/
structure BeginsBlock (sid : Nat) (endHeaders endStream : Bool) (f : Frame) (fragment : Bytes) :
    Prop where
  type : f.hdr.type = .headers
  streamId : f.hdr.streamId = sid
  endHeaders : f.hdr.hasFlag Flag.endHeaders = endHeaders
  endStream : f.hdr.hasFlag Flag.endStream = endStream
  fragment : Connection.headerFragment f = .ok fragment

/-- CONTINUATION frames, of which the last ends the header block. -/
inductive ContinuesBlock (sid : Nat) : List Frame → Bytes → Prop
  | last (f : Frame) (type : f.hdr.type = .continuation) (streamId : f.hdr.streamId = sid)
      (endHeaders : f.hdr.hasFlag Flag.endHeaders = true) : ContinuesBlock sid [f] f.payload
  | more (f : Frame) (type : f.hdr.type = .continuation) (streamId : f.hdr.streamId = sid)
      (endHeaders : f.hdr.hasFlag Flag.endHeaders = false) {frames : List Frame} {tail : Bytes}
      (next : ContinuesBlock sid frames tail) : ContinuesBlock sid (f :: frames) (f.payload ++ tail)

/-- The flags of a HEADERS frame that is neither padded nor has a priority. -/
def blockFlags (endHeaders endStream : Bool) : UInt8 :=
  (if endHeaders then Flag.endHeaders else 0) ||| if endStream then Flag.endStream else 0

theorem blockFlags_spec : ∀ endHeaders endStream,
    (blockFlags endHeaders endStream &&& Flag.endHeaders != 0) = endHeaders ∧
      (blockFlags endHeaders endStream &&& Flag.endStream != 0) = endStream ∧
      (blockFlags endHeaders endStream &&& Flag.padded != 0) = false ∧
      (blockFlags endHeaders endStream &&& Flag.priority != 0) = false := by
  decide

theorem begins_ofPayload (sid : Nat) (endHeaders endStream : Bool) (payload : Bytes) :
    BeginsBlock sid endHeaders endStream
      (.ofPayload .headers (blockFlags endHeaders endStream) sid payload) payload := by
  obtain ⟨endHeadersEq, endStreamEq, padded, priority⟩ := blockFlags_spec endHeaders endStream
  refine ⟨rfl, rfl, endHeadersEq, endStreamEq, ?_⟩
  rw [Connection.headerFragment, Connection.stripPadding, if_neg (by
    show ¬ (blockFlags endHeaders endStream &&& Flag.padded != 0) = true
    rw [padded]
    decide)]
  show (if (blockFlags endHeaders endStream &&& Flag.priority != 0) = true then _ else _) = _
  rw [priority]
  rfl

theorem continues_ofPayload (sid : Nat) (payload : Bytes) :
    ContinuesBlock sid [.ofPayload .continuation Flag.endHeaders sid payload] payload := by
  refine .last (.ofPayload .continuation Flag.endHeaders sid payload) rfl rfl ?_
  show (Flag.endHeaders &&& Flag.endHeaders != 0) = true
  decide

def Event.isFrame : Event → Bool
  | .frame _ => true
  | _ => false

namespace Connection

/-- A frame that arrives at a connection, which a dead one ignores. -/
def receive (config : Config) (connection : Connection) (f : Frame) : Except Fault Connection :=
  if connection.alive then connection.processFrame config f else .ok connection

theorem foldlM_receive_of_dead (config : Config) (connection : Connection) (frames : List Frame)
    (dead : connection.alive = false) :
    frames.foldlM (receive config) connection = .ok connection := by
  induction frames with
  | nil => rfl
  | cons f frames inductionHypothesis =>
    rw [List.foldlM_cons, receive, if_neg (by rw [dead]; decide)]
    exact inductionHypothesis

/-! ### The log without the frames -/

/-- The connection with the frames left out of the log. -/
def unframed (connection : Connection) : Connection :=
  { connection with events := connection.events.filter fun event => !event.isFrame }

section Unframed

variable (config : Config) (connection : Connection)

theorem unframed_frame (f : Frame) :
    (connection.record (.frame f)).unframed = connection.unframed := by
  show { connection with events := (connection.events ++ [Event.frame f]).filter _ } = _
  rw [List.filter_append]
  show { connection with events := _ ++ [] } = _
  rw [List.append_nil]
  rfl

theorem unframed_record (event : Event) (other : event.isFrame = false) :
    (connection.record event).unframed = connection.unframed.record event := by
  show { connection with events := (connection.events ++ [event]).filter _ } = _
  rw [List.filter_append, List.filter_singleton, other]
  rfl

theorem unframed_doSubmitResponse (sid : Nat) (resp : Response) :
    (connection.doSubmitResponse sid resp).unframed =
      connection.unframed.doSubmitResponse sid resp := by
  unfold doSubmitResponse sendBody sendTrailers
  dsimp only
  split
  · split <;> rfl
  · split <;> rfl

theorem unframed_doSubmitPush (parent : Nat) (req : Request) (resp : Response) :
    (connection.doSubmitPush parent req resp).unframed =
      connection.unframed.doSubmitPush parent req resp := by
  have same : connection.unframed.peerEnablePush = connection.peerEnablePush := rfl
  unfold doSubmitPush
  rw [same]
  split
  · rfl
  · exact unframed_doSubmitResponse _ _ _

theorem unframed_foldl_doSubmitPush (parent : Nat) (pushes : List (Request × Response)) :
    (pushes.foldl (fun connection push => connection.doSubmitPush parent push.1 push.2)
      connection).unframed =
      pushes.foldl (fun connection push => connection.doSubmitPush parent push.1 push.2)
        connection.unframed := by
  induction pushes generalizing connection with
  | nil => rfl
  | cons push pushes inductionHypothesis =>
    rw [List.foldl_cons, List.foldl_cons, inductionHypothesis, unframed_doSubmitPush]

theorem unframed_command (call : Command) :
    (connection.command call).unframed = connection.unframed.command call := by
  cases call with
  | submitResponse sid resp => exact unframed_doSubmitResponse connection sid resp
  | submitPush parent req resp => exact unframed_doSubmitPush connection parent req resp
  | submitData sid data endStream => cases endStream <;> rfl
  | submitRequest req promise noEndStream =>
    show (doSubmitRequest _ _ _ _).unframed = doSubmitRequest _ _ _ _
    unfold doSubmitRequest sendBody
    dsimp only
    split <;> rfl
  | _ => rfl

theorem unframed_commands (calls : List Command) :
    (connection.commands calls).unframed = connection.unframed.commands calls := by
  induction calls generalizing connection with
  | nil => rfl
  | cons call calls inductionHypothesis =>
    show (commands (connection.command call) calls).unframed = commands _ calls
    rw [inductionHypothesis, unframed_command]

theorem unframed_pushAssociated (sid : Nat) :
    (connection.pushAssociated config sid).unframed =
      connection.unframed.pushAssociated config sid := by
  have same : connection.unframed.peerEnablePush = connection.peerEnablePush := rfl
  unfold pushAssociated
  split
  · rfl
  · rw [same]
    split
    · rw [unframed_foldl_doSubmitPush, unframed_record _ _ rfl]
      rfl
    · rfl

theorem unframed_answerRequest (sid : Nat) :
    (connection.answerRequest config sid).unframed =
      connection.unframed.answerRequest config sid := by
  unfold answerRequest
  split
  · exact unframed_doSubmitResponse connection sid _
  · rw [unframed_pushAssociated, unframed_doSubmitResponse, unframed_record _ _ rfl]
    rfl

theorem unframed_dispatchRequest (sid : Nat) :
    (connection.dispatchRequest config sid).unframed =
      connection.unframed.dispatchRequest config sid := by
  have prepared : ((connection.record (.dispatch sid)).modifyStream sid fun state =>
      { state with req := { state.req with bd := state.body }, body := [] }).unframed =
      (connection.unframed.record (.dispatch sid)).modifyStream sid fun state =>
        { state with req := { state.req with bd := state.body }, body := [] } := by
    rw [← unframed_record _ _ rfl]
    rfl
  unfold dispatchRequest
  dsimp only
  rw [← prepared]
  generalize (connection.record (.dispatch sid)).modifyStream sid _ = prepared
  have same : prepared.unframed.stream sid = prepared.stream sid := rfl
  unfold callStreamingRequestHandler
  split
  · exact unframed_answerRequest config prepared sid
  · dsimp only
    rw [same, ← unframed_record _ _ rfl, ← unframed_commands]
    split
    · rfl
    · exact unframed_answerRequest config _ sid

theorem unframed_callRequestStartHandler
    (handler : Nat → Request → Bool → Bool × List Command) (sid : Nat) (endStream : Bool) :
    connection.unframed.callRequestStartHandler handler sid endStream =
      ((connection.callRequestStartHandler handler sid endStream).1,
        (connection.callRequestStartHandler handler sid endStream).2.unframed) := by
  have same : connection.unframed.stream sid = connection.stream sid := rfl
  unfold callRequestStartHandler
  dsimp only
  rw [same, ← unframed_record _ _ rfl, ← unframed_commands]
  split <;> rfl

theorem unframed_applyHeaders (sid : Nat) (headers : Headers) (endStream : Bool) :
    (connection.applyHeaders config sid headers endStream).unframed =
      connection.unframed.applyHeaders config sid headers endStream := by
  have modified (before : Connection) (change : StreamState → StreamState) :
      before.unframed.modifyStream sid change = (before.modifyStream sid change).unframed := rfl
  unfold applyHeaders
  dsimp only
  rw [modified, modified]
  split
  · split
    · exact unframed_dispatchRequest config _ sid
    · rw [unframed_callRequestStartHandler]
      dsimp only
      split
      · rfl
      · exact unframed_dispatchRequest config _ sid
  · split
    · rfl
    · rw [unframed_callRequestStartHandler]

theorem unframed_completePromise (sid : Nat) :
    (connection.completePromise sid).unframed = connection.unframed.completePromise sid := by
  have modified : connection.unframed.modifyStream sid (fun state =>
      { state with resp := { state.resp with bd := state.body }, body := [] }) =
      (connection.modifyStream sid fun state =>
        { state with resp := { state.resp with bd := state.body }, body := [] }).unframed := rfl
  unfold completePromise
  dsimp only
  rw [modified]
  generalize connection.modifyStream sid _ = moved
  have stream : moved.unframed.stream sid = moved.stream sid := rfl
  have promises : moved.unframed.promises = moved.promises := rfl
  rw [stream, promises]
  split
  · rfl
  · split
    · exact unframed_record _ _ rfl
    · rfl

theorem unframed_applyResponseHeaders (sid : Nat) (headers : Headers) (endStream : Bool) :
    (connection.applyResponseHeaders sid headers endStream).unframed =
      connection.unframed.applyResponseHeaders sid headers endStream := by
  unfold applyResponseHeaders
  dsimp only
  split
  · exact unframed_completePromise _ sid
  · rfl

end Unframed

/-! ### A complete header block -/

/-- What follows a complete header block, in either mode. -/
def applyBlock (config : Config) (connection : Connection) (sid : Nat) (headers : Headers)
    (endStream : Bool) : Connection :=
  match config.mode with
  | .server => connection.applyHeaders config sid headers endStream
  | .client => connection.applyResponseHeaders sid headers endStream

/-- A header block is decoded and applied. -/
def finishBlock (config : Config) (connection : Connection) (sid : Nat) (block : Bytes)
    (endStream : Bool) : Except Fault Connection := do
  let (headers, connection) ← connection.decode block
  return connection.applyBlock config sid headers endStream

/-- The stream of a header block that came in several frames: it remembers END_STREAM. -/
def rememberEnd (connection : Connection) (sid : Nat) (endStream : Bool) : Connection :=
  connection.modifyStream sid fun state =>
    { state with pendingHeaderBlock := [], endStream := state.endStream || endStream }

section Blocks

variable (config : Config) (connection : Connection) (sid : Nat)

theorem modifyStream_modifyStream (first second : StreamState → StreamState) :
    (connection.modifyStream sid first).modifyStream sid second =
      connection.modifyStream sid fun state => second (first state) := by
  unfold modifyStream
  congr
  funext other
  dsimp only
  by_cases same : other = sid
  · rw [if_pos same, if_pos same, if_pos rfl, Option.map_map]
    rfl
  · rw [if_neg same, if_neg same, if_neg same]

theorem modifyStream_congr (first second : StreamState → StreamState)
    (same : ∀ state, connection.streams sid = some state → first state = second state) :
    connection.modifyStream sid first = connection.modifyStream sid second := by
  have mapped : (connection.streams sid).map first = (connection.streams sid).map second := by
    cases found : connection.streams sid with
    | none => rfl
    | some state => exact congrArg some (same state found)
  unfold modifyStream
  rw [mapped]

theorem modifyStream_id : connection.modifyStream sid id = connection := by
  have streams : (fun other => if other = sid then (connection.streams sid).map id
      else connection.streams other) = connection.streams := by
    funext other
    by_cases same : other = sid
    · rw [if_pos same, same, Option.map_id]
      rfl
    · rw [if_neg same]
  unfold modifyStream
  rw [streams]

theorem modifyStream_of_fixed (change : StreamState → StreamState)
    (fixed : ∀ state, connection.streams sid = some state → change state = state) :
    connection.modifyStream sid change = connection := by
  rw [modifyStream_congr connection sid change id fixed, modifyStream_id]

theorem unframed_finishBlock (block : Bytes) (endStream : Bool) :
    (connection.finishBlock config sid block endStream).map unframed =
      connection.unframed.finishBlock config sid block endStream := by
  have decoder : connection.unframed.decoder = connection.decoder := rfl
  unfold finishBlock decode
  rw [decoder]
  cases connection.decoder.decode block with
  | error fault => rfl
  | ok result =>
    obtain ⟨headers, decoder⟩ := result
    show Except.ok (unframed (applyBlock _ { connection.record _ with decoder } _ _ _)) =
      Except.ok (applyBlock _ { connection.unframed.record _ with decoder } _ _ _)
    rw [← unframed_record connection (.decode block) rfl]
    unfold applyBlock
    split
    · rw [unframed_applyHeaders]
      rfl
    · rw [unframed_applyResponseHeaders]
      rfl

theorem streams_awaitContinuation (f : Frame) (fragment : Bytes) (endStream : Bool)
    {state : StreamState} (found : connection.streams sid = some state) :
    ((connection.awaitContinuation sid fragment endStream).record (.frame f)).streams sid =
      some { state with
        pendingHeaderBlock := fragment, endStream := state.endStream || endStream } := by
  show (connection.modifyStream sid _).streams _ = _
  rw [streams_modifyStream, found]
  rfl

/-- A CONTINUATION frame that is waited for is handled. -/
theorem receive_awaited (f : Frame) (fragment : Bytes) (endStream : Bool)
    (alive : connection.alive = true) (nonzero : sid ≠ 0) (type : f.hdr.type = .continuation)
    (streamId : f.hdr.streamId = sid) :
    (connection.awaitContinuation sid fragment endStream).receive config f =
      ((connection.awaitContinuation sid fragment endStream).record
        (.frame f)).handleContinuation config f := by
  have continues : ¬ (f.hdr.type ≠ .continuation ∨ f.hdr.streamId ≠ sid) := by
    rw [type, streamId]
    exact fun wrong => wrong.elim (absurd rfl) (absurd rfl)
  rw [receive, if_pos (by exact alive), processFrame, if_pos (by exact nonzero),
    if_neg (by exact continues)]

theorem receive_more (f : Frame) (fragment : Bytes) (endStream : Bool)
    (alive : connection.alive = true) (nonzero : sid ≠ 0) (type : f.hdr.type = .continuation)
    (streamId : f.hdr.streamId = sid) (incomplete : f.hdr.hasFlag Flag.endHeaders = false)
    (present : (connection.streams sid).isSome = true) :
    (connection.awaitContinuation sid fragment endStream).receive config f =
      .ok ((connection.record (.frame f)).awaitContinuation sid (fragment ++ f.payload)
        endStream) := by
  subst streamId
  obtain ⟨state, found⟩ := Option.isSome_iff_exists.mp present
  have lookup := streams_awaitContinuation connection f.hdr.streamId f fragment endStream found
  rw [receive_awaited config connection _ f fragment endStream alive nonzero type rfl,
    handleContinuation]
  dsimp only
  rw [lookup]
  dsimp only
  rw [if_neg (by rw [incomplete]; decide)]
  exact congrArg (fun connection' => Except.ok { connection' with
    continuationStream := f.hdr.streamId })
      (modifyStream_modifyStream (connection.record (.frame f)) _ _ _)

theorem receive_last (f : Frame) (fragment : Bytes) (endStream : Bool) (state : StreamState)
    (alive : connection.alive = true) (idle : connection.continuationStream = 0)
    (nonzero : sid ≠ 0) (type : f.hdr.type = .continuation) (streamId : f.hdr.streamId = sid)
    (complete : f.hdr.hasFlag Flag.endHeaders = true)
    (found : connection.streams sid = some state) :
    (connection.awaitContinuation sid fragment endStream).receive config f =
      ((connection.record (.frame f)).rememberEnd sid endStream).finishBlock config sid
        (fragment ++ f.payload) (state.endStream || endStream) := by
  subst streamId
  set sid := f.hdr.streamId
  have lookup := streams_awaitContinuation connection sid f fragment endStream found
  have extended : (({ ((connection.awaitContinuation sid fragment endStream).record
      (.frame f)).modifyStream sid fun state =>
        { state with pendingHeaderBlock := state.pendingHeaderBlock ++ f.payload } with
      continuationStream := 0 } : Connection).stream sid).pendingHeaderBlock =
        fragment ++ f.payload := by
    show StreamState.pendingHeaderBlock ((((connection.awaitContinuation sid fragment
      endStream).record (.frame f)).modifyStream sid _).streams sid |>.getD {}) = _
    rw [streams_modifyStream, lookup]
    rfl
  rw [receive_awaited config connection _ f fragment endStream alive nonzero type rfl,
    handleContinuation]
  dsimp only
  rw [lookup]
  dsimp only
  rw [if_pos complete, extended]
  set taken : Connection := { ((connection.awaitContinuation sid fragment endStream).record
    (.frame f)).modifyStream sid fun state =>
      { state with pendingHeaderBlock := state.pendingHeaderBlock ++ f.payload } with
    continuationStream := 0 }
  have cleared : (taken.modifyStream sid fun state => { state with pendingHeaderBlock := [] }) =
      (connection.record (.frame f)).rememberEnd sid endStream := by
    have merged := (modifyStream_modifyStream
      ((connection.record (.frame f)).modifyStream sid fun state =>
        { state with pendingHeaderBlock := fragment, endStream := state.endStream || endStream })
      sid (fun state => { state with pendingHeaderBlock := state.pendingHeaderBlock ++ f.payload })
      fun state => { state with pendingHeaderBlock := [] }).trans
        (modifyStream_modifyStream (connection.record (.frame f)) sid _ _)
    have reset := congrArg (fun connection' : Connection =>
      ({ connection' with continuationStream := 0 } : Connection)) merged
    refine Eq.trans reset ?_
    show ({ (connection.record (.frame f)).rememberEnd sid endStream with
      continuationStream := 0 } : Connection) = _
    rw [← idle]
    rfl
  have flag : (((connection.record (.frame f)).rememberEnd sid endStream).stream sid).endStream =
      (state.endStream || endStream) := by
    rw [stream, rememberEnd, streams_modifyStream, streams_record, found]
    rfl
  have decoder : ((connection.record (.frame f)).rememberEnd sid endStream).decoder =
      taken.decoder := rfl
  unfold finishBlock decode
  rw [decoder]
  cases taken.decoder.decode (fragment ++ f.payload) with
  | error fault => rfl
  | ok result =>
    obtain ⟨headers, decoder⟩ := result
    have same : ({ taken.record (.decode (fragment ++ f.payload)) with decoder } : Connection
        ).modifyStream sid (fun state => { state with pendingHeaderBlock := [] }) =
          { ((connection.record (.frame f)).rememberEnd sid endStream).record
            (.decode (fragment ++ f.payload)) with decoder } := by
      rw [← cleared]
      rfl
    show (match config.mode with
      | .server => Except.ok (applyHeaders config (modifyStream _ sid _) sid headers _)
      | .client => Except.ok (applyResponseHeaders (modifyStream _ sid _) sid headers _)) =
        Except.ok (applyBlock config _ sid headers _)
    rw [same, ← flag]
    unfold applyBlock
    split <;> rfl

/-- CONTINUATION frames up to the end of the block. -/
theorem foldlM_continues {frames : List Frame} {tail : Bytes}
    (continues : ContinuesBlock sid frames tail) (fragment : Bytes) (endStream : Bool)
    (state : StreamState) (alive : connection.alive = true)
    (idle : connection.continuationStream = 0) (nonzero : sid ≠ 0)
    (found : connection.streams sid = some state) :
    (frames.foldlM (receive config) (connection.awaitContinuation sid fragment endStream)).map
        unframed =
      (connection.unframed.rememberEnd sid endStream).finishBlock config sid (fragment ++ tail)
        (state.endStream || endStream) := by
  induction continues generalizing connection fragment with
  | last f type streamId complete =>
    rw [List.foldlM_cons, receive_last config connection sid f fragment endStream state alive idle
      nonzero type streamId complete found]
    show Except.map unframed (_ >>= pure) = _
    rw [bind_pure, unframed_finishBlock]
    exact congrArg (fun connection' => finishBlock config (rememberEnd connection' sid endStream)
      sid _ _) (unframed_frame connection f)
  | @more f type streamId incomplete frames tail next inductionHypothesis =>
    rw [List.foldlM_cons, receive_more config connection sid f fragment endStream alive nonzero
      type streamId incomplete (by rw [found]; rfl)]
    show (frames.foldlM (receive config) _).map unframed = _
    rw [inductionHypothesis (connection.record (.frame f)) (fragment ++ f.payload) alive idle found,
      unframed_frame, List.append_assoc]

/-- The end of a stream is set again where it counts. -/
theorem modifyStream_rememberEnd (state : StreamState) (change : StreamState → StreamState)
    (found : connection.streams sid = some state) (settled : state.pendingHeaderBlock = [])
    (keeps : ({ change { state with endStream := true } with endStream := true } : StreamState) =
      { change state with endStream := true }) :
    ((connection.rememberEnd sid true).modifyStream sid change).modifyStream sid
        (fun state => { state with endStream := true }) =
      (connection.modifyStream sid change).modifyStream sid
        fun state => { state with endStream := true } := by
  rw [rememberEnd, modifyStream_modifyStream, modifyStream_modifyStream, modifyStream_modifyStream]
  refine modifyStream_congr connection sid _ _ fun state' found' => ?_
  rw [← Option.some.inj (found.symm.trans found'), ← settled, Bool.or_true]
  exact keeps

theorem applyBlock_rememberEnd (headers : Headers) (state : StreamState)
    (found : connection.streams sid = some state) (settled : state.pendingHeaderBlock = []) :
    (connection.rememberEnd sid true).applyBlock config sid headers true =
      connection.applyBlock config sid headers true := by
  unfold applyBlock
  split
  · unfold applyHeaders
    dsimp only
    rw [if_pos rfl, if_pos rfl, modifyStream_rememberEnd connection sid state _ found settled rfl]
  · unfold applyResponseHeaders
    dsimp only
    rw [if_pos rfl, if_pos rfl, modifyStream_rememberEnd connection sid state _ found settled rfl]

/-- The deferred copy of the code does what the immediate one does, if the stream does not end
without this block ending it. -/
theorem finishBlock_rememberEnd (block : Bytes) (endStream : Bool) (state : StreamState)
    (found : connection.streams sid = some state) (settled : state.pendingHeaderBlock = [])
    (agree : endStream = false → state.endStream = false) :
    (connection.rememberEnd sid endStream).finishBlock config sid block
        (state.endStream || endStream) =
      connection.finishBlock config sid block endStream := by
  cases endStream with
  | false =>
    have fixed : connection.rememberEnd sid false = connection := by
      refine modifyStream_of_fixed connection sid _ fun state' found' => ?_
      rw [← Option.some.inj (found.symm.trans found'), ← settled, Bool.or_false]
    rw [fixed, agree rfl]
    rfl
  | true =>
    have decoder : (connection.rememberEnd sid true).decoder = connection.decoder := rfl
    rw [Bool.or_true]
    unfold finishBlock decode
    rw [decoder]
    cases connection.decoder.decode block with
    | error fault => rfl
    | ok result =>
      exact congrArg Except.ok (applyBlock_rememberEnd config
        { connection.record (.decode block) with decoder := result.2 } sid result.1 state found
        settled)

/-- Response headers leave the body of the response alone. -/
theorem bd_foldl_applyResponseHeader (headers : Headers) (resp : Response) :
    (headers.foldl applyResponseHeader resp).bd = resp.bd := by
  induction headers generalizing resp with
  | nil => rfl
  | cons header headers inductionHypothesis =>
    rw [List.foldl_cons, inductionHypothesis]
    unfold applyResponseHeader
    dsimp only
    split
    · rfl
    · split <;> rfl

/-- On a stream that has ended without a promise and without a body, ending a response once more
does nothing. -/
theorem applyResponseHeaders_ended (headers : Headers) (state : StreamState)
    (found : connection.streams sid = some state) (ended : state.endStream = true)
    (promise : state.promise = none) (body : state.body = []) (bd : state.resp.bd = []) :
    connection.applyResponseHeaders sid headers true =
      connection.applyResponseHeaders sid headers false := by
  unfold applyResponseHeaders
  dsimp only
  rw [if_pos rfl, if_neg (by decide), modifyStream_modifyStream]
  unfold completePromise
  dsimp only
  rw [modifyStream_modifyStream, stream, streams_modifyStream, found]
  dsimp only [Option.map_some, Option.getD_some]
  rw [promise]
  refine modifyStream_congr connection sid _ _ fun state' found' => ?_
  rw [← Option.some.inj (found.symm.trans found'), body, ended, ← bd,
    ← bd_foldl_applyResponseHeader headers state.resp]

/-! ### The frame that begins a block -/

variable {sid}

theorem receive_begins {f : Frame} {fragment : Bytes} {endHeaders endStream : Bool}
    (begins : BeginsBlock sid endHeaders endStream f fragment) (alive : connection.alive = true)
    (idle : connection.continuationStream = 0) (nonzero : sid ≠ 0) :
    connection.receive config f =
      match config.mode with
      | .server => (connection.record (.frame f)).handleRequestHeaders config sid fragment
          endHeaders endStream
      | .client => (connection.record (.frame f)).handleResponseHeaders sid fragment
          endHeaders endStream := by
  rw [receive, if_pos alive, processFrame, if_neg (by exact not_not.mpr idle), begins.type]
  dsimp only
  rewrite [handleHeaders, begins.streamId, if_neg nonzero, begins.fragment, begins.endHeaders,
    begins.endStream]
  rfl

/-- A server that takes no early return. -/
theorem receive_request {f : Frame} {fragment : Bytes} {endHeaders endStream : Bool}
    (begins : BeginsBlock sid endHeaders endStream f fragment) (alive : connection.alive = true)
    (idle : connection.continuationStream = 0) (nonzero : sid ≠ 0) (server : config.mode = .server)
    (notTrailers : connection.streamingTrailers sid endStream = false) :
    connection.receive config f =
      if endHeaders then
        ((connection.record (.frame f)).openStream sid).finishBlock config sid fragment endStream
      else
        .ok (((connection.record (.frame f)).openStream sid).awaitContinuation sid fragment
          endStream) := by
  have kept : (connection.record (.frame f)).streamingTrailers sid endStream = false := notTrailers
  rw [receive_begins config connection begins alive idle nonzero, server]
  dsimp only
  rw [handleRequestHeaders, if_neg (by rw [kept]; decide)]
  unfold finishBlock applyBlock
  rw [server]

/-- A client that takes no early return. -/
theorem receive_response {f : Frame} {fragment : Bytes} {endHeaders endStream : Bool}
    {state : StreamState} (begins : BeginsBlock sid endHeaders endStream f fragment)
    (alive : connection.alive = true) (idle : connection.continuationStream = 0) (nonzero : sid ≠ 0)
    (client : config.mode = .client) (found : connection.streams sid = some state)
    (notTrailers : ¬ (state.headersComplete = true ∧ state.dataCb.isSome = true ∧
      endStream = true)) :
    connection.receive config f =
      if endHeaders then
        (connection.record (.frame f)).finishBlock config sid fragment endStream
      else .ok ((connection.record (.frame f)).awaitContinuation sid fragment endStream) := by
  rw [receive_begins config connection begins alive idle nonzero, client]
  dsimp only
  unfold handleResponseHeaders finishBlock applyBlock
  rw [streams_record, found, client]
  dsimp only
  split
  · rename_i cb trailers set
    rw [Bool.and_eq_true] at trailers
    exact absurd ⟨trailers.1, by rw [set]; rfl, trailers.2⟩ notTrailers
  · rfl

theorem receive_begins_zero {f : Frame} {fragment : Bytes} {endHeaders endStream : Bool}
    (begins : BeginsBlock 0 endHeaders endStream f fragment) (alive : connection.alive = true)
    (idle : connection.continuationStream = 0) :
    connection.receive config f = .ok ((connection.record (.frame f)).goaway .protocolError
      (ascii "HEADERS on stream 0")) := by
  rw [receive, if_pos alive, processFrame, if_neg (by exact not_not.mpr idle), begins.type]
  dsimp only
  rw [handleHeaders, begins.streamId]
  rfl

/-! ### Blocks that are cut -/

section Cut

variable {endStream : Bool} {whole first : Frame} {fragment tail : Bytes} {frames : List Frame}

theorem receive_split_request (alive : connection.alive = true)
    (idle : connection.continuationStream = 0) (nonzero : sid ≠ 0) (server : config.mode = .server)
    (settled : (connection.stream sid).pendingHeaderBlock = [])
    (block : BeginsBlock sid true endStream whole (fragment ++ tail))
    (begins : BeginsBlock sid false endStream first fragment)
    (continues : ContinuesBlock sid frames tail)
    (notTrailers : connection.streamingTrailers sid endStream = false)
    (agree : endStream = false → (connection.stream sid).endStream = false) :
    ((first :: frames).foldlM (receive config) connection).map unframed =
      (connection.receive config whole).map unframed := by
  have opened (f : Frame) : ((connection.record (.frame f)).openStream sid).unframed =
      connection.unframed.openStream sid :=
    congrArg (fun connection' => openStream connection' sid) (unframed_frame connection f)
  rw [List.foldlM_cons,
    receive_request config connection begins alive idle nonzero server notTrailers,
    receive_request config connection block alive idle nonzero server notTrailers,
    if_pos rfl, if_neg (by decide), unframed_finishBlock]
  show (frames.foldlM (receive config) _).map _ = _
  rw [foldlM_continues config ((connection.record (.frame first)).openStream sid) sid continues
    fragment endStream { connection.stream sid with streamId := sid, state := .opened } alive idle
    nonzero (streams_setStream _ _ _), opened, opened]
  exact finishBlock_rememberEnd config (connection.unframed.openStream sid) sid (fragment ++ tail)
    endStream { connection.stream sid with streamId := sid, state := .opened }
    (streams_setStream _ _ _) settled agree

theorem receive_split_response {state : StreamState} (alive : connection.alive = true)
    (idle : connection.continuationStream = 0) (nonzero : sid ≠ 0) (client : config.mode = .client)
    (found : connection.streams sid = some state) (settled : state.pendingHeaderBlock = [])
    (block : BeginsBlock sid true endStream whole (fragment ++ tail))
    (begins : BeginsBlock sid false endStream first fragment)
    (continues : ContinuesBlock sid frames tail)
    (notTrailers : ¬ (state.headersComplete = true ∧ state.dataCb.isSome = true ∧
      endStream = true))
    (agree : endStream = false → state.endStream = true →
      state.promise = none ∧ state.body = [] ∧ state.resp.bd = []) :
    ((first :: frames).foldlM (receive config) connection).map unframed =
      (connection.receive config whole).map unframed := by
  rw [List.foldlM_cons,
    receive_response config connection begins alive idle nonzero client found notTrailers,
    receive_response config connection block alive idle nonzero client found notTrailers,
    if_pos rfl, if_neg (by decide), unframed_finishBlock]
  show (frames.foldlM (receive config) _).map _ = _
  rw [foldlM_continues config (connection.record (.frame first)) sid continues fragment endStream
    state alive idle nonzero found, unframed_frame, unframed_frame]
  by_cases differ : endStream = false ∧ state.endStream = true
  · obtain ⟨goesOn, ended⟩ := differ
    obtain ⟨promise, body, bd⟩ := agree goesOn ended
    have fixed : connection.unframed.rememberEnd sid endStream = connection.unframed := by
      refine modifyStream_of_fixed connection.unframed sid _ fun state' found' => ?_
      rw [← Option.some.inj (found.symm.trans found'), ← settled, goesOn, Bool.or_false]
    rw [fixed, goesOn, ended]
    unfold finishBlock decode
    cases connection.unframed.decoder.decode (fragment ++ tail) with
    | error fault => rfl
    | ok result =>
      unfold applyBlock
      rw [client]
      exact congrArg Except.ok (applyResponseHeaders_ended _ sid result.1 state found ended promise
        body bd)
  · refine finishBlock_rememberEnd config connection.unframed sid (fragment ++ tail) endStream state
      found settled fun goesOn => ?_
    exact Bool.eq_false_of_not_eq_true fun ended => differ ⟨goesOn, ended⟩

end Cut

/-! ### Where the copies differ -/

theorem alive_callDataCallback (cb : DataCallback) (data : Bytes) (endStream : Bool) :
    (connection.callDataCallback cb sid data endStream).alive = connection.alive :=
  (quiet_commands (connection.record (.dataCallback sid data endStream)) _).alive

theorem alive_endStreaming : (connection.endStreaming sid).alive = connection.alive := by
  unfold endStreaming
  dsimp only
  split
  · rfl
  · exact alive_callDataCallback connection _ [] true

theorem alive_applyResponseHeaders (headers : Headers) (endStream : Bool) :
    (connection.applyResponseHeaders sid headers endStream).alive = connection.alive := by
  unfold applyResponseHeaders completePromise
  dsimp only
  split
  · split
    · rfl
    · split <;> rfl
  · rfl

/-- After an early return, CONTINUATION is answered with a GOAWAY. -/
theorem receive_split_early {first last whole : Frame} {early late : Connection}
    (begins : connection.receive config first = .ok early) (idle : early.continuationStream = 0)
    (type : last.hdr.type = .continuation) (block : connection.receive config whole = .ok late)
    (alive : late.alive = true) :
    ([first, last].foldlM (receive config) connection).map unframed ≠
      (connection.receive config whole).map unframed := by
  have dead : ∃ next, early.receive config last = .ok next ∧ next.alive = false := by
    rw [receive]
    split
    · rw [processFrame, if_neg (by exact not_not.mpr idle), type]
      exact ⟨_, rfl, rfl⟩
    · rename_i notAlive
      exact ⟨early, rfl, Bool.eq_false_of_not_eq_true notAlive⟩
  obtain ⟨next, received, notAlive⟩ := dead
  intro same
  rw [List.foldlM_cons, begins, block] at same
  change Except.map unframed (early.receive config last >>= pure) = _ at same
  rw [bind_pure, received] at same
  have states : next.unframed = late.unframed := Except.ok.inj same
  have flags : next.unframed.alive = late.unframed.alive := congrArg Connection.alive states
  exact absurd (notAlive.symm.trans (flags.trans alive)) (by decide)

/-- A request that ends is handled otherwise than one that does not, whatever the handlers. -/
theorem applyHeaders_ne {left right : Connection} (events : left.events = right.events)
    (headers : Headers) :
    left.applyHeaders config sid headers true ≠ right.applyHeaders config sid headers false := by
  intro same
  cases start : config.requestStartHandler with
  | none =>
    have ended : dispatchesOf (left.applyHeaders config sid headers true).events =
        dispatchesOf left.events ++ [sid] := by
      unfold applyHeaders
      rw [start]
      exact (advances_dispatchRequest _ (fun _ => True) config sid).dispatches
    obtain ⟨dispatched, may, advances⟩ := applyHeaders_advances config right (fun _ => True) sid
      headers false fun _ => trivial
    have none : dispatched = [] := may.elim id fun ended => absurd ended.1 (by decide)
    rw [same, advances.dispatches, events, none, List.append_nil] at ended
    exact absurd ended (by simp)
  | some handler =>
    obtain ⟨leftCalls, leftMade, _, leftHead⟩ := calls_applyHeaders config left sid headers true
    obtain ⟨rightCalls, rightMade, _, rightHead⟩ :=
      calls_applyHeaders config right sid headers false
    obtain ⟨leftReq, leftFirst⟩ := leftHead (by rw [start]; rfl)
    obtain ⟨rightReq, rightFirst⟩ := rightHead (by rw [start]; rfl)
    rw [Calls, same, rightMade, events, List.append_cancel_left_eq] at leftMade
    rw [← leftMade, rightFirst] at leftFirst
    cases leftFirst

/-- A response that ends again shows it, unless it has neither promise nor body. -/
theorem applyResponseHeaders_inv (headers : Headers) (state : StreamState)
    (found : connection.streams sid = some state)
    (same : connection.applyResponseHeaders sid headers true =
      connection.applyResponseHeaders sid headers false) :
    state.promise = none ∧ state.body = [] ∧ state.resp.bd = [] := by
  unfold applyResponseHeaders at same
  dsimp only at same
  rw [if_pos rfl, if_neg (by decide), modifyStream_modifyStream] at same
  unfold completePromise at same
  dsimp only at same
  rw [modifyStream_modifyStream, stream, streams_modifyStream, found] at same
  dsimp only [Option.map_some, Option.getD_some] at same
  cases promise : state.promise with
  | some ref =>
    rw [promise] at same
    have grown := congrArg (fun connection : Connection => connection.completedPromises.length) same
    dsimp only at grown
    split at grown
    · exact absurd grown (by simp [record, modifyStream, setPromise])
    · exact absurd grown (by simp [modifyStream, setPromise])
  | none =>
    rw [promise] at same
    have streams := congrArg (fun connection : Connection => connection.streams sid) same
    dsimp only at streams
    rw [streams_modifyStream, streams_modifyStream, found] at streams
    have bodies := Option.some.inj streams
    have body : ([] : Bytes) = state.body := congrArg StreamState.body bodies
    have bd : state.body = (headers.foldl applyResponseHeader state.resp).bd :=
      congrArg (fun state : StreamState => state.resp.bd) bodies
    rw [bd_foldl_applyResponseHeader] at bd
    exact ⟨rfl, body.symm, bd.symm.trans body.symm⟩

end Blocks

end Connection

/-! ### Transparency -/

namespace Session

/-- The session with the frames left out of the log. -/
def unframed (session : Session) : Session :=
  { session with connection := session.connection.unframed }

/-- However a header block for a stream is cut into HEADERS and CONTINUATION frames, they do what
the HEADERS frame with the whole block does. -/
def Transparent (session : Session) (sid : Nat) (endStream : Bool) : Prop :=
  ∀ (whole first : Frame) (fragment tail : Bytes) (frames : List Frame),
    BeginsBlock sid true endStream whole (fragment ++ tail) →
      BeginsBlock sid false endStream first fragment → ContinuesBlock sid frames tail →
        (((first :: frames).map Action.receive).foldlM act session).map unframed =
          (session.act (.receive whole)).map unframed

/-- The stream takes no early return of `handle_headers`, and the block ends it or it has not
ended before (or ending it again shows in nothing). -/
def SplitsCleanly (session : Session) (sid : Nat) (endStream : Bool) : Prop :=
  session.connection.alive = true → sid ≠ 0 →
    match session.config.mode with
    | .server =>
        session.connection.streamingTrailers sid endStream = false ∧
          (endStream = false → (session.connection.stream sid).endStream = false)
    | .client =>
        ∃ state, session.connection.streams sid = some state ∧
          ¬ (state.headersComplete = true ∧ state.dataCb.isSome = true ∧ endStream = true) ∧
          (endStream = false → state.endStream = true →
            state.promise = none ∧ state.body = [] ∧ state.resp.bd = [])

theorem act_receive (session : Session) (f : Frame) :
    session.act (.receive f) = (session.connection.receive session.config f).map
      fun connection => { session with connection } := by
  rw [act, Connection.receive]
  split <;> rfl

theorem foldlM_act_receive (frames : List Frame) (session : Session) :
    (frames.map Action.receive).foldlM act session =
      (frames.foldlM (Connection.receive session.config) session.connection).map
        fun connection => { session with connection } := by
  induction frames generalizing session with
  | nil => rfl
  | cons f frames inductionHypothesis =>
    rw [List.map_cons, List.foldlM_cons, List.foldlM_cons, act_receive]
    cases session.connection.receive session.config f with
    | error fault => rfl
    | ok connection => exact inductionHypothesis { session with connection }

/-- Two runs of frames come to the same but for the frames, if the connections do. -/
theorem map_unframed_eq_iff (session : Session) (left right : Except Fault Connection) :
    (left.map fun connection => { session with connection }).map unframed =
        (right.map fun connection => { session with connection }).map unframed ↔
      left.map Connection.unframed = right.map Connection.unframed := by
  cases left with
  | error fault => cases right <;> simp [Except.map]
  | ok left =>
    cases right with
    | error fault => simp [Except.map]
    | ok right => simp [Except.map, unframed]

section Necessary

variable (session : Session) (sid : Nat) (endStream : Bool)

/-- The empty block, whole and cut in two. -/
theorem transparent_empty (transparent : session.Transparent sid endStream) :
    ([.ofPayload .headers (blockFlags false endStream) sid [],
        .ofPayload .continuation Flag.endHeaders sid []].foldlM
        (Connection.receive session.config) session.connection).map Connection.unframed =
      (session.connection.receive session.config
        (.ofPayload .headers (blockFlags true endStream) sid [])).map Connection.unframed := by
  have instanced := transparent _ _ [] [] _ (begins_ofPayload sid true endStream [])
    (begins_ofPayload sid false endStream []) (continues_ofPayload sid [])
  rw [foldlM_act_receive, act_receive, map_unframed_eq_iff] at instanced
  exact instanced

theorem clean_of_transparent_server (alive : session.connection.alive = true)
    (idle : session.connection.continuationStream = 0) (nonzero : sid ≠ 0)
    (server : session.config.mode = .server) (transparent : session.Transparent sid endStream) :
    session.connection.streamingTrailers sid endStream = false ∧
      (endStream = false → (session.connection.stream sid).endStream = false) := by
  have same := transparent_empty session sid endStream transparent
  have whole := begins_ofPayload sid true endStream []
  have begins := begins_ofPayload sid false endStream []
  have notTrailers : session.connection.streamingTrailers sid endStream = false := by
    by_contra trailers
    have returns (f : Frame) (endHeaders : Bool)
      (block : BeginsBlock sid endHeaders endStream f []) :
        session.connection.receive session.config f =
          .ok ((session.connection.record (.frame f)).endStreaming sid) := by
      rw [Connection.receive_begins _ _ block alive idle nonzero, server]
      exact if_pos (Bool.eq_true_of_not_eq_false trailers)
    refine Connection.receive_split_early session.config session.connection
      (returns _ false begins) ?_ rfl (returns _ true whole) ?_ same
    · exact (Connection.endStreaming_advances (session.connection.record _) (fun _ => True) sid
        trivial).continuationStream.trans idle
    · exact (Connection.alive_endStreaming _).trans alive
  refine ⟨notTrailers, fun goesOn => Bool.eq_false_of_not_eq_true fun ended => ?_⟩
  subst goesOn
  rw [List.foldlM_cons, Connection.receive_request _ _ begins alive idle nonzero server notTrailers,
    Connection.receive_request _ _ whole alive idle nonzero server notTrailers, if_pos rfl,
    if_neg (by decide), Connection.unframed_finishBlock] at same
  have split := Connection.foldlM_continues session.config
    ((session.connection.record (.frame
      (.ofPayload .headers (blockFlags false false) sid []))).openStream sid) sid
    (continues_ofPayload sid []) [] false
    { session.connection.stream sid with streamId := sid, state := .opened } alive idle nonzero
    (Connection.streams_setStream _ _ _)
  have results := split.symm.trans same
  rw [show StreamState.endStream { session.connection.stream sid with
    streamId := sid, state := .opened } = true from ended] at results
  unfold Connection.finishBlock Connection.applyBlock at results
  rw [server] at results
  refine Connection.applyHeaders_ne session.config ?_ [] (Except.ok.inj results)
  exact congrArg (fun connection : Connection => connection.events ++ [.decode []])
    ((Connection.unframed_frame session.connection _).trans
      (Connection.unframed_frame session.connection _).symm)

theorem clean_of_transparent_client (alive : session.connection.alive = true)
    (idle : session.connection.continuationStream = 0) (nonzero : sid ≠ 0)
    (settled : (session.connection.stream sid).pendingHeaderBlock = [])
    (client : session.config.mode = .client) (transparent : session.Transparent sid endStream) :
    ∃ state, session.connection.streams sid = some state ∧
      ¬ (state.headersComplete = true ∧ state.dataCb.isSome = true ∧ endStream = true) ∧
      (endStream = false → state.endStream = true →
        state.promise = none ∧ state.body = [] ∧ state.resp.bd = []) := by
  have same := transparent_empty session sid endStream transparent
  have whole := begins_ofPayload sid true endStream []
  have begins := begins_ofPayload sid false endStream []
  have response (f : Frame) (endHeaders : Bool)
    (block : BeginsBlock sid endHeaders endStream f []) :
      session.connection.receive session.config f =
        (session.connection.record (.frame f)).handleResponseHeaders sid [] endHeaders
          endStream := by
    rw [Connection.receive_begins _ _ block alive idle nonzero, client]
  cases found : session.connection.streams sid with
  | none =>
    have returns (f : Frame) (endHeaders : Bool)
        (block : BeginsBlock sid endHeaders endStream f []) :
        session.connection.receive session.config f =
          .ok (session.connection.record (.frame f)) := by
      rw [response f endHeaders block, Connection.handleResponseHeaders, Connection.streams_record,
        found]
    exact absurd same (Connection.receive_split_early session.config session.connection
      (returns _ false begins) idle rfl (returns _ true whole) alive)
  | some state =>
    rw [Connection.stream_of_some _ _ found] at settled
    have notTrailers : ¬ (state.headersComplete = true ∧ state.dataCb.isSome = true ∧
        endStream = true) := by
      rintro ⟨complete, set, rfl⟩
      obtain ⟨cb, set⟩ := Option.isSome_iff_exists.mp set
      have returns (f : Frame) (endHeaders : Bool)
          (block : BeginsBlock sid endHeaders true f []) :
          session.connection.receive session.config f =
            .ok ((((session.connection.record (.frame f)).callDataCallback cb sid [] true).record
              (.decode [])).applyResponseHeaders sid [] true) := by
        rw [response f endHeaders block]
        unfold Connection.handleResponseHeaders
        rw [Connection.streams_record, found]
        dsimp only
        rw [complete, set]
        rfl
      refine Connection.receive_split_early session.config session.connection
        (returns _ false begins) ?_ rfl (returns _ true whole) ?_ same
      · rw [(Connection.applyResponseHeaders_advances _ (fun _ => True) sid [] true fun _ =>
          trivial).continuationStream]
        exact (Connection.advances_callDataCallback (session.connection.record _) (fun _ => True) cb
          sid [] true).continuationStream.trans idle
      · rw [Connection.alive_applyResponseHeaders]
        exact (Connection.alive_callDataCallback _ _ _ _).trans alive
    refine ⟨state, rfl, notTrailers, fun goesOn ended => ?_⟩
    subst goesOn
    rw [List.foldlM_cons,
      Connection.receive_response _ _ begins alive idle nonzero client found notTrailers,
      Connection.receive_response _ _ whole alive idle nonzero client found notTrailers, if_pos rfl,
      if_neg (by decide), Connection.unframed_finishBlock, Connection.unframed_frame] at same
    have split := Connection.foldlM_continues session.config
      (session.connection.record (.frame (.ofPayload .headers (blockFlags false false) sid []))) sid
      (continues_ofPayload sid []) [] false state alive idle nonzero found
    have results := split.symm.trans same
    have fixed : session.connection.unframed.rememberEnd sid false =
        session.connection.unframed := by
      refine Connection.modifyStream_of_fixed _ sid _ fun state' found' => ?_
      rw [← Option.some.inj (found.symm.trans found'), ← settled, Bool.or_false]
    rw [Connection.unframed_frame, fixed, ended] at results
    unfold Connection.finishBlock Connection.applyBlock at results
    rw [client] at results
    exact Connection.applyResponseHeaders_inv
      (session.connection.unframed.record (.decode [])) [] state found (Except.ok.inj results)

end Necessary

/-- In every reachable session that awaits no CONTINUATION, header blocks for a stream can be cut
into CONTINUATION frames exactly if the stream takes no early return and END_STREAM is not left on
it from before. -/
theorem transparent_iff (session : Session) (reachable : Reachable session)
    (idle : session.connection.continuationStream = 0) (sid : Nat) (endStream : Bool) :
    session.Transparent sid endStream ↔ session.SplitsCleanly sid endStream := by
  have settled : (session.connection.stream sid).pendingHeaderBlock = [] := by
    by_contra pending
    exact (reachable_settled session reachable sid pending).2 idle
  constructor
  · intro transparent alive nonzero
    cases mode : session.config.mode with
    | server =>
      exact clean_of_transparent_server session sid endStream alive idle nonzero mode transparent
    | client =>
      exact clean_of_transparent_client session sid endStream alive idle nonzero settled mode
        transparent
  · intro clean whole first fragment tail frames block begins continues
    rw [foldlM_act_receive, act_receive, map_unframed_eq_iff]
    by_cases alive : session.connection.alive = true
    · by_cases zero : sid = 0
      · subst zero
        rw [List.foldlM_cons, Connection.receive_begins_zero _ _ begins alive idle,
          Connection.receive_begins_zero _ _ block alive idle]
        show (frames.foldlM (Connection.receive session.config) _).map _ = _
        rw [Connection.foldlM_receive_of_dead _ _ frames rfl]
        exact congrArg (fun connection : Connection => Except.ok (connection.goaway .protocolError
          (ascii "HEADERS on stream 0")))
            ((Connection.unframed_frame session.connection first).trans
            (Connection.unframed_frame session.connection whole).symm)
      · have clean := clean alive zero
        cases mode : session.config.mode with
        | server =>
          rw [mode] at clean
          exact Connection.receive_split_request _ _ alive idle zero mode settled block begins
            continues clean.1 clean.2
        | client =>
          rw [mode] at clean
          obtain ⟨state, found, notTrailers, agree⟩ := clean
          rw [Connection.stream_of_some _ _ found] at settled
          exact Connection.receive_split_response _ _ alive idle zero mode found settled block
            begins continues notTrailers agree
    · have dead := Bool.eq_false_of_not_eq_true alive
      rw [Connection.foldlM_receive_of_dead _ _ _ dead, Connection.receive, if_neg alive]

/-- A new server takes the first headers of any stream in any number of frames. -/
theorem transparent_iff_new :
    (create .server).Transparent 1 true ∧ (create .server).SplitsCleanly 1 true := by
  have clean : (create .server).SplitsCleanly 1 true := fun _ _ => ⟨rfl, nofun⟩
  exact ⟨(transparent_iff (create .server) (.create .server) rfl 1 true).mpr clean, clean⟩

/-- A client does not know stream 1 yet: HEADERS are ignored, but CONTINUATION is answered with a
GOAWAY. -/
theorem not_transparent_unknown :
    ¬ (create .client).Transparent 1 false := by
  intro transparent
  have same := transparent_empty (create .client) 1 false transparent
  exact Connection.receive_split_early (create .client).config (create .client).connection rfl rfl
    rfl rfl rfl same

end Session

end AsyncNet.Http
