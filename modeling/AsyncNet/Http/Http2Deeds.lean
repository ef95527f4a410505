/-
This file says what a session does in terms of its account: the deeds of every handler,
read off from the state it starts in, and that the account that has seen these deeds is
the account of the session afterwards. What is known of accounts is known of sessions
from here on.
-/

import AsyncNet.Http.Http2Account
import AsyncNet.Http.Http2Run

namespace AsyncNet.Http

open Library H2

/-! ### The account of a connection -/

/-- The coroutines that have been resumed. -/
def resumesOf (events : List Event) : List PromiseRef :=
  events.filterMap fun event => match event with | .resume ref => some ref | _ => none

/-- An account is that of a connection: the bytes that the connection has written are those of the
frames that have been enqueued. -/
structure Refines (account : Account) (connection : Connection) : Prop where
  encoder : connection.encoder = account.encoder
  maxFrameSize : connection.peerMaxFrameSize = account.maxFrameSize
  enablePush : connection.peerEnablePush = account.enablePush
  initialWindow : connection.peerInitialWindowSize = account.initialWindow
  nextStreamId : connection.nextStreamId = account.nextStreamId
  nextPushStreamId : connection.nextPushStreamId = account.nextPushStreamId
  sendWindow : connection.connSendWindow = account.sendWindow
  recvWindow : connection.connRecvWindow = account.recvWindow
  streams : ∀ sid, (connection.streams sid).map StreamState.sendWindow =
    (account.streams sid).map StreamAccount.window
  promises : connection.promises = account.promises
  completed : connection.completedPromises = account.completed
  nextPushPromise : connection.nextPushPromise = account.nextPushPromise
  alive : connection.alive = account.alive
  resumed : resumesOf connection.events = account.resumed
  output : connection.sent ++ connection.outputBuf = account.frames.flatMap Frame.wire

/-- The deeds take the account of a connection to that of another. -/
def Does (deeds : List Deed) (before after : Connection) : Prop :=
  ∀ account, Refines account before → Refines (account.acts deeds) after

theorem Does.refl (connection : Connection) : Does [] connection connection :=
  fun _ refines => refines

theorem Does.trans {deeds more : List Deed} {first second third : Connection}
    (left : Does deeds first second) (right : Does more second third) :
    Does (deeds ++ more) first third := by
  intro account refines
  rw [Account.acts_append]
  exact right _ (left account refines)

/-- What comes before or after does not show in the account. -/
theorem Does.andThen {deeds : List Deed} {first second third : Connection}
    (left : Does deeds first second) (right : Does [] second third) : Does deeds first third :=
  List.append_nil deeds ▸ left.trans right

theorem Does.before {deeds : List Deed} {first second third : Connection}
    (left : Does [] first second) (right : Does deeds second third) : Does deeds first third :=
  left.trans right

namespace Connection

/-! ### Changes that do not show -/

section Silent

variable (connection : Connection)

theorem does_record (event : Event) (silent : resumesOf [event] = []) :
    Does [] connection (connection.record event) := by
  intro account refines
  have resumed : resumesOf (connection.record event).events = account.resumed := by
    rw [record, resumesOf, List.filterMap_append, ← refines.resumed]
    exact (congrArg _ silent).trans (List.append_nil _)
  exact { refines with resumed := resumed }

theorem does_modifyStream (sid : Nat) (change : StreamState → StreamState)
    (keeps : ∀ state, (change state).sendWindow = state.sendWindow) :
    Does [] connection (connection.modifyStream sid change) := by
  intro account refines
  refine { refines with streams := fun other => ?_ }
  by_cases same : other = sid
  · rw [same, streams_modifyStream, Option.map_map]
    rw [show StreamState.sendWindow ∘ change = StreamState.sendWindow from funext keeps]
    exact refines.streams sid
  · rw [streams_modifyStream_of_ne _ _ _ _ same]
    exact refines.streams other

theorem does_awaitContinuation (sid : Nat) (block : Bytes) (endStream : Bool) :
    Does [] connection (connection.awaitContinuation sid block endStream) := by
  intro account refines
  have waits := does_modifyStream connection sid
    (fun state => { state with
      pendingHeaderBlock := block, endStream := state.endStream || endStream })
    (fun _ => rfl) account refines
  exact { waits with }

theorem does_decode {next : Connection} {block : Bytes} {headers : Headers}
    (decoded : connection.decode block = .ok (headers, next)) : Does [] connection next := by
  obtain ⟨⟨_, decoder⟩, _, rest⟩ := bind_ok decoded
  cases rest
  intro account refines
  exact { does_record connection (.decode block) rfl account refines with }

end Silent

/-! ### Sending -/

section Sending

variable (connection : Connection)

/-- A stream that is created or changed, but for its window. -/
theorem does_setStream (sid : Nat) (state : StreamState)
    (keeps : state.sendWindow = (connection.stream sid).sendWindow) :
    Does [.enter sid] connection (connection.setStream sid state) := by
  intro account refines
  refine { refines with streams := fun other => ?_ }
  have found := refines.streams sid
  show _ = ((account.enter sid).streams other).map StreamAccount.window
  by_cases same : other = sid
  · rw [same, streams_setStream, Account.streams_enter]
    unfold stream at keeps
    cases before : connection.streams sid with
    | none =>
      rw [before] at found keeps
      rw [Option.map_eq_none_iff.mp found.symm]
      exact congrArg some keeps
    | some old =>
      rw [before] at found keeps
      obtain ⟨entry, is, window⟩ := Option.map_eq_some_iff.mp found.symm
      rw [is]
      exact congrArg some (keeps.trans window.symm)
  · rw [streams_setStream_of_ne _ _ _ _ same, Account.streams_enter_of_ne _ _ _ same]
    exact refines.streams other

theorem refines_enqueue {account : Account} (frames : List Frame)
    (refines : Refines account connection) :
    Refines (account.enqueue frames) (connection.enqueue (frames.flatMap Frame.wire)) := by
  have output : connection.sent ++ (connection.outputBuf ++ frames.flatMap Frame.wire) =
      (account.enqueue frames).frames.flatMap Frame.wire := by
    rw [Account.frames_enqueue, List.flatMap_append, ← refines.output, List.append_assoc]
  exact { refines with output := output }

theorem refines_sendHeaders {account : Account} (sid : Nat) (flags : UInt8) (headers : Headers)
    (refines : Refines account connection) :
    Refines (account.sendHeaders sid flags headers)
      (connection.sendHeaders sid flags headers) := by
  set block := (account.encoder.encode headers).1
  have frames : (connection.buildHeadersFrame sid flags headers).1 =
      (headerFrames sid flags account.maxFrameSize block).flatMap Frame.wire := by
    unfold buildHeadersFrame headerFrames
    rw [refines.encoder, refines.maxFrameSize]
    dsimp only
    split
    · exact (List.append_nil _).symm
    · rw [splitFrames_eq]
      rfl
  have sends := refines_enqueue connection
    (headerFrames sid flags account.maxFrameSize block) refines
  rw [← frames] at sends
  exact { sends with
    encoder := congrArg (fun encoder => (encoder.encode headers).2) refines.encoder }

/-- The data that is sent only shows in the books. -/
theorem refines_sendData {account : Account} (sid : Nat) (frames : List Frame)
    (refines : Refines account connection) :
    Refines (account.sendData sid frames)
      (connection.enqueue (frames.flatMap Frame.wire)) := by
  have sends := refines_enqueue connection frames refines
  refine { sends with streams := fun other => ?_ }
  rw [Account.sendData, Account.streams_enqueue]
  by_cases same : other = sid
  · rw [same, Account.streams_modifyStream, Option.map_map]
    exact sends.streams sid
  · rw [Account.streams_modifyStream_of_ne _ _ _ _ same]
    exact sends.streams other

theorem refines_sendBody {account : Account} (sid : Nat) (body : Bytes) (noEndStream : Bool)
    (refines : Refines account connection) :
    Refines (account.sendBody sid body noEndStream) (connection.sendBody sid body noEndStream) := by
  have frames : (connection.sendBody sid body noEndStream) = connection.enqueue
      ((bodyFrames sid noEndStream connection.peerMaxFrameSize body).flatMap Frame.wire) := by
    unfold sendBody
    by_cases empty : body = []
    · rw [if_neg (not_not.mpr empty), empty]
      exact congrArg (fun data => { connection with outputBuf := data })
        (List.append_nil connection.outputBuf).symm
    · rw [if_pos empty, buildDataFrames,
        if_neg (fun both : body = [] ∧ noEndStream = false => empty both.1), List.append_nil,
        splitFrames_eq]
      rfl
  rw [frames, Account.sendBody, ← refines.maxFrameSize]
  exact refines_sendData connection sid _ refines

theorem refines_sendTrailers {account : Account} (sid : Nat) (trailers : Headers)
    (refines : Refines account connection) :
    Refines (account.sendTrailers sid trailers) (connection.sendTrailers sid trailers) := by
  unfold Account.sendTrailers sendTrailers
  split
  · exact refines_sendHeaders connection sid _ _ refines
  · exact refines

theorem refines_closeStream {account : Account} (sid : Nat) (refines : Refines account connection) :
    Refines account (connection.closeStream sid) :=
  does_modifyStream connection sid (fun state => { state with state := .closed }) (fun _ => rfl)
    account refines

theorem refines_doSubmitResponse {account : Account} (sid : Nat) (resp : Response)
    (refines : Refines account connection) :
    Refines (account.submitResponse sid resp) (connection.doSubmitResponse sid resp) := by
  have headers := refines_sendHeaders connection sid
    (if resp.bd ≠ [] ∨ resp.trailers ≠ [] then 0 else Flag.endStream) (responseHeaders resp) refines
  have body := refines_sendBody _ sid resp.bd (decide (resp.trailers ≠ [])) headers
  have trailers := refines_sendTrailers _ sid resp.trailers body
  exact refines_closeStream _ sid trailers

theorem refines_doSubmitRequest {account : Account} (req : Request) (promise : Option PromiseRef)
    (noEndStream : Bool) (refines : Refines account connection) :
    Refines (account.submitRequest req promise noEndStream)
      (connection.doSubmitRequest req promise noEndStream) := by
  set sid := connection.nextStreamId
  set advanced : Connection := { connection with nextStreamId := sid + 2 }
  have started : Refines { account with
      nextStreamId := sid + 2, registered := account.registered ++ promise.toList } advanced :=
    { refines with nextStreamId := rfl }
  have entered := does_setStream advanced sid
    { advanced.stream sid with streamId := sid, state := .opened, promise := promise } rfl _ started
  have headers := refines_sendHeaders _ sid
    (if req.bd ≠ [] ∨ noEndStream then 0 else Flag.endStream) (requestHeaders req) entered
  have body := refines_sendBody _ sid req.bd false headers
  unfold Account.submitRequest
  rw [← refines.nextStreamId]
  exact body

theorem refines_doSubmitPush {account : Account} (parent : Nat) (req : Request) (resp : Response)
    (refines : Refines account connection) :
    Refines (account.submitPush parent req resp) (connection.doSubmitPush parent req resp) := by
  unfold Account.submitPush doSubmitPush
  by_cases disabled : account.enablePush = false
  · rw [if_pos disabled, if_pos (refines.enablePush.trans disabled)]
    exact refines
  · rw [if_neg disabled, if_neg fun same => disabled (refines.enablePush.symm.trans same)]
    set promised := account.nextPushStreamId
    set coded : Connection := { connection with
      nextPushStreamId := promised + 2, encoder := (account.encoder.encode (requestHeaders req)).2 }
    have encoded : Refines { account with
        nextPushStreamId := promised + 2
        encoder := (account.encoder.encode (requestHeaders req)).2 } coded :=
      { refines with nextPushStreamId := rfl, encoder := rfl }
    have sends := refines_enqueue coded [pushPromiseFrame parent promised
      (account.encoder.encode (requestHeaders req)).1] encoded
    rw [List.flatMap_singleton] at sends
    set announced := coded.enqueue (pushPromiseFrame parent promised
      (account.encoder.encode (requestHeaders req)).1).wire
    have entered := does_setStream announced promised
      { announced.stream promised with streamId := promised, state := .halfClosedLocal } rfl _ sends
    have answered := refines_doSubmitResponse _ promised resp entered
    dsimp only
    rw [refines.nextPushStreamId, refines.encoder]
    exact answered

/-- A call of the interface. -/
theorem does_command (command : Command) :
    Does [.call command] connection (connection.command command) := by
  intro account refines
  cases command with
  | setDataCallback sid cb =>
    exact does_modifyStream connection sid (fun state => { state with dataCb := some cb })
      (fun _ => rfl) account refines
  | clearDataCallback sid =>
    exact does_modifyStream connection sid (fun state => { state with dataCb := none })
      (fun _ => rfl) account refines
  | submitResponse sid resp => exact refines_doSubmitResponse connection sid resp refines
  | submitResponseHeaders sid resp => exact refines_sendHeaders connection sid 0 _ refines
  | submitData sid data endStream =>
    set flags : UInt8 := if endStream then Flag.endStream else 0
    have frames : (if data = [] then buildFrame .data flags sid []
        else splitFrames .data flags sid connection.peerMaxFrameSize data.length data) =
          (Account.dataFrames sid account.maxFrameSize data endStream).flatMap Frame.wire := by
      unfold Account.dataFrames
      dsimp only
      split
      · exact (List.append_nil _).symm
      · rw [splitFrames_eq, refines.maxFrameSize]
    have sends := refines_sendData connection sid
      (Account.dataFrames sid account.maxFrameSize data endStream) refines
    rw [← frames] at sends
    cases endStream with
    | false => exact sends
    | true => exact refines_closeStream _ sid sends
  | submitTrailers sid trailers =>
    exact refines_closeStream _ sid (refines_sendHeaders connection sid _ _ refines)
  | submitRequest req promise noEndStream =>
    exact refines_doSubmitRequest connection req promise noEndStream refines
  | submitPush parent req resp => exact refines_doSubmitPush connection parent req resp refines
  | getPendingOutput =>
    have output : (connection.sent ++ connection.outputBuf) ++ [] =
        account.frames.flatMap Frame.wire := by
      rw [List.append_nil]
      exact refines.output
    exact { refines with output := output }
  | takeCompletedPromises => exact { refines with completed := rfl }

theorem does_commands (calls : List Command) :
    Does (calls.map .call) connection (connection.commands calls) := by
  induction calls generalizing connection with
  | nil => exact Does.refl connection
  | cons call calls inductionHypothesis =>
    exact (does_command connection call).trans (inductionHypothesis (connection.command call))

end Sending

end Connection

end AsyncNet.Http
