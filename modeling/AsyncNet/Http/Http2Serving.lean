/-
This file is about servers that leave the answers to the session: there is a request
handler, a push provider or neither, and no one takes a stream over. Such a session sends
on its streams only the responses of the requests it dispatches and the pushes that go
with them. So what it sends is in order, as long as it dispatches no request twice and no
request comes on a stream that it has promised itself.
-/

import AsyncNet.Http.Http2Dispatch
import AsyncNet.Http.Http2SendOrder

namespace AsyncNet.Http

open Library H2

/-! ### Deeds of the session's own -/

/-- A deed that no application takes part in. -/
def Deed.Own : Deed → Prop
  | .call _ => False
  | _ => True

def Own (deeds : List Deed) : Prop := ∀ deed ∈ deeds, deed.Own

theorem own_nil : Own [] := fun _ member => absurd member List.not_mem_nil

theorem Own.whole {deeds : List Deed} (own : Own deeds) : ∀ deed ∈ deeds, deed.Whole := by
  intro deed member
  have isOwn := own deed member
  cases deed with
  | call command => exact absurd isOwn id
  | _ => trivial

theorem Own.answersOf {deeds : List Deed} (own : Own deeds) : answersOf deeds = [] := by
  refine List.filterMap_eq_nil_iff.mpr fun deed member => ?_
  have isOwn := own deed member
  cases deed with
  | call command => exact absurd isOwn id
  | _ => rfl

namespace Connection

/-- No stream has a data callback. -/
def Buffers (connection : Connection) : Prop := ∀ sid, (connection.stream sid).dataCb = none

/-- The deeds send whole messages and the requests that are dispatched are those that are
answered. -/
structure Attends (deeds : List Deed) (before after : Connection) : Prop where
  buffers : after.Buffers
  dispatches : dispatchesOf after.events = dispatchesOf before.events ++ answersOf deeds
  whole : ∀ deed ∈ deeds, deed.Whole

theorem Attends.refl {connection : Connection} (buffers : connection.Buffers) :
    Attends [] connection connection :=
  ⟨buffers, (List.append_nil _).symm, fun _ member => absurd member List.not_mem_nil⟩

theorem Attends.trans {deeds more : List Deed} {first second third : Connection}
    (left : Attends deeds first second) (right : Attends more second third) :
    Attends (deeds ++ more) first third where
  buffers := right.buffers
  dispatches := by rw [right.dispatches, left.dispatches, answersOf_append, List.append_assoc]
  whole := List.forall_mem_append.mpr ⟨left.whole, right.whole⟩

/-- A part of a step that dispatches nothing. -/
theorem Advances.attends {blocks : List Bytes} {ends : Nat → Prop} {deeds : List Deed}
    {before after : Connection} (advances : Advances blocks [] ends before after) (own : Own deeds)
    (buffers : after.Buffers) : Attends deeds before after :=
  ⟨buffers, own.answersOf ▸ advances.dispatches, own.whole⟩

/-! ### Data callbacks -/

section Buffers

variable {connection : Connection} (sid : Nat)

theorem buffers_modifyStream {change : StreamState → StreamState}
    (keeps : ∀ state, (change state).dataCb = state.dataCb) (buffers : connection.Buffers) :
    (connection.modifyStream sid change).Buffers := by
  intro other
  by_cases same : other = sid
  · subst same
    have before := buffers other
    rw [stream] at before ⊢
    rw [streams_modifyStream]
    cases found : connection.streams other with
    | none => rfl
    | some state =>
      rw [found] at before
      exact (keeps state).trans before
  · rw [stream_modifyStream_of_ne _ _ _ _ same]
    exact buffers other

theorem buffers_setStream {state : StreamState} (none : state.dataCb = none)
    (buffers : connection.Buffers) : (connection.setStream sid state).Buffers := by
  intro other
  by_cases same : other = sid
  · rw [same, stream, streams_setStream]
    exact none
  · rw [stream, streams_setStream_of_ne _ _ _ _ same]
    exact buffers other

theorem buffers_eraseStream (buffers : connection.Buffers) :
    (connection.eraseStream sid).Buffers := by
  intro other
  by_cases same : other = sid
  · rw [same, stream_eraseStream]
  · rw [stream, streams_eraseStream_of_ne _ _ _ same]
    exact buffers other

theorem buffers_doSubmitResponse (resp : Response) (buffers : connection.Buffers) :
    (connection.doSubmitResponse sid resp).Buffers := by
  refine buffers_modifyStream sid (fun _ => rfl) fun other => ?_
  have same : ((((connection.sendHeaders sid
      (if resp.bd ≠ [] ∨ resp.trailers ≠ [] then 0 else Flag.endStream)
      (responseHeaders resp)).sendBody sid resp.bd (resp.trailers ≠ [])).sendTrailers sid
        resp.trailers).streams other) = connection.streams other := by
    unfold sendTrailers sendBody
    split <;> split <;> rfl
  exact (congrArg (fun state => (state.getD {}).dataCb) same).trans (buffers other)

theorem buffers_doSubmitPush (req : Request) (resp : Response) (buffers : connection.Buffers) :
    (connection.doSubmitPush sid req resp).Buffers := by
  unfold doSubmitPush
  split
  · exact buffers
  · exact buffers_doSubmitResponse _ resp (buffers_setStream _ (buffers _) buffers)

theorem buffers_foldl_doSubmitPush (pushes : List (Request × Response))
    (buffers : connection.Buffers) :
    (pushes.foldl (fun connection push => connection.doSubmitPush sid push.1 push.2)
      connection).Buffers := by
  induction pushes generalizing connection with
  | nil => exact buffers
  | cons push pushes inductionHypothesis =>
    exact inductionHypothesis (buffers_doSubmitPush sid push.1 push.2 buffers)

end Buffers

/-! ### Requests -/

section Requests

variable {config : Config} {connection : Connection} (sid : Nat)

theorem answersOf_pushDeeds : answersOf (pushDeeds config connection sid) = [] := by
  unfold pushDeeds
  split
  · rfl
  · split
    · refine List.filterMap_eq_nil_iff.mpr fun deed member => ?_
      obtain ⟨push, _, rfl⟩ := List.mem_map.mp member
      rfl
    · rfl

theorem whole_pushDeeds : ∀ deed ∈ pushDeeds config connection sid, deed.Whole := by
  unfold pushDeeds
  split
  · exact fun _ member => absurd member List.not_mem_nil
  · split
    · intro deed member
      obtain ⟨push, _, rfl⟩ := List.mem_map.mp member
      trivial
    · exact fun _ member => absurd member List.not_mem_nil

/-- A request is answered once. -/
theorem answersOf_answerDeeds : answersOf (answerDeeds config connection sid) = [sid] := by
  unfold answerDeeds
  split
  · rfl
  · exact congrArg (sid :: ·) (answersOf_pushDeeds sid)

theorem whole_answerDeeds : ∀ deed ∈ answerDeeds config connection sid, deed.Whole := by
  unfold answerDeeds
  split
  · exact List.forall_mem_singleton.mpr trivial
  · exact List.forall_mem_cons.mpr ⟨trivial, whole_pushDeeds sid⟩

theorem buffers_answerRequest (buffers : connection.Buffers) :
    (connection.answerRequest config sid).Buffers := by
  unfold answerRequest pushAssociated
  split
  · exact buffers_doSubmitResponse sid _ buffers
  · rename_i handler _
    set req := (connection.stream sid).req
    have answered : ((connection.record (.requestHandler req)).doSubmitResponse sid
        (handler req)).Buffers :=
      buffers_doSubmitResponse sid _ buffers
    dsimp only
    split
    · exact answered
    · split
      · exact buffers_foldl_doSubmitPush sid _ answered
      · exact answered

variable (noStreaming : config.streamingRequestHandler = none)
include noStreaming

theorem attends_dispatchRequest (buffers : connection.Buffers) :
    Attends (dispatchDeeds config connection sid) connection
      (connection.dispatchRequest config sid) := by
  have filled : (connection.withBody sid).Buffers :=
    buffers_modifyStream sid (fun _ => by rfl)
      buffers
  have deeds : dispatchDeeds config connection sid =
      answerDeeds config (connection.withBody sid) sid := by
    unfold dispatchDeeds streamingDeeds callStreamingRequestHandler
    rw [noStreaming]
    rfl
  have after : connection.dispatchRequest config sid =
      (connection.withBody sid).answerRequest config sid := by
    unfold dispatchRequest callStreamingRequestHandler
    rw [noStreaming]
    rfl
  have dispatched := (advances_dispatchRequest connection (fun _ => True) config sid).dispatches
  refine ⟨?_, ?_, ?_⟩
  · rw [after]
    exact buffers_answerRequest sid filled
  · rw [dispatched, deeds, answersOf_answerDeeds]
  · rw [deeds]
    exact whole_answerDeeds sid

end Requests

/-! ### Frames -/

section Frames

variable {config : Config} {connection : Connection} (sid : Nat)

theorem own_goawayDeeds (error : ErrorCode) (debug : Bytes) (short : debug.length ≤ 64) :
    Own (goawayDeeds connection error debug short) :=
  List.forall_mem_cons.mpr ⟨trivial, List.forall_mem_singleton.mpr trivial⟩

theorem own_toList {Value : Type} {value : Option Value} {deed : Value → Deed}
    (own : ∀ each, (deed each).Own) : Own (value.map deed).toList := by
  intro each member
  obtain ⟨_, _, rfl⟩ := Option.map_eq_some_iff.mp (Option.mem_toList.mp member)
  exact own _

theorem attends_goaway (error : ErrorCode) (debug : Bytes) (short : debug.length ≤ 64)
    (buffers : connection.Buffers) :
    Attends (goawayDeeds connection error debug short) connection (connection.goaway error debug) :=
  (advances_goaway connection (fun _ => True) error debug).attends (own_goawayDeeds _ _ _) buffers

theorem attends_modifyStream {change : StreamState → StreamState}
    (keeps : ∀ state, (change state).dataCb = state.dataCb) (buffers : connection.Buffers) :
    Attends [] connection (connection.modifyStream sid change) :=
  ⟨buffers_modifyStream sid keeps buffers, (List.append_nil _).symm,
    own_nil.whole⟩

theorem buffers_replenishConnection (buffers : connection.Buffers) :
    connection.replenishConnection.Buffers := by
  unfold replenishConnection
  split
  · exact buffers
  · exact buffers

theorem buffers_replenishStream (buffers : connection.Buffers) :
    (connection.replenishStream sid).Buffers := by
  unfold replenishStream
  split
  · exact buffers
  · exact buffers_modifyStream sid (fun _ => rfl) buffers

theorem attends_updateWindows (length : Nat) (buffers : connection.Buffers) :
    Attends (updateDeeds connection sid length) connection
      (connection.updateWindows sid length) := by
  refine (advances_updateWindows connection (fun _ => True) sid length).attends ?_ ?_
  · exact List.forall_mem_cons.mpr ⟨trivial, List.forall_mem_append.mpr
      ⟨own_toList fun _ => trivial, own_toList fun _ => trivial⟩⟩
  · refine buffers_replenishStream sid (buffers_replenishConnection ?_)
    exact buffers_modifyStream sid (fun _ => rfl) buffers

/-- Without callbacks, data goes to the body of its stream. -/
theorem attends_deliverData {state : StreamState} (data : Bytes) (endStream : Bool)
    (found : connection.streams sid = some state) (buffers : connection.Buffers) :
    Attends (deliverDeeds sid state data endStream) connection
      (connection.deliverData sid state data endStream) := by
  have none : state.dataCb = none := by
    have here := buffers sid
    rw [stream_of_some connection sid found] at here
    exact here
  unfold deliverDeeds deliverData
  rw [none]
  exact attends_modifyStream sid (fun _ => rfl) buffers

variable (noStreaming : config.streamingRequestHandler = none) (server : config.mode = .server)
include noStreaming server

theorem attends_endData (buffers : connection.Buffers) :
    Attends (endDataDeeds config connection sid) connection (connection.endData config sid) := by
  have ended : Attends [] connection (connection.withEnd sid) :=
    attends_modifyStream sid (fun _ => by rfl) buffers
  unfold endDataDeeds endData
  rw [if_pos server, if_pos server]
  split
  · exact ended
  · exact ended.trans (attends_dispatchRequest sid noStreaming ended.buffers)

theorem attends_handleData (f : Frame) (buffers : connection.Buffers) :
    Attends (handleDataDeeds config connection f) connection (connection.handleData config f) := by
  unfold handleDataDeeds handleData
  dsimp only
  split
  · exact attends_goaway _ _ _ buffers
  · cases found : connection.streams f.hdr.streamId with
    | none =>
      refine ((quiet_enqueue connection _).advances fun _ => True).attends ?_ buffers
      exact List.forall_mem_singleton.mpr trivial
    | some state =>
      cases stripPadding f with
      | error error => exact attends_goaway _ _ _ buffers
      | ok data =>
        dsimp only
        set endStream := f.hdr.hasFlag Flag.endStream
        have delivers := attends_deliverData f.hdr.streamId data endStream found buffers
        have updates := delivers.trans
          (attends_updateWindows f.hdr.streamId data.length delivers.buffers)
        split
        · exact updates.trans (attends_endData f.hdr.streamId noStreaming server updates.buffers)
        · rw [List.append_nil]
          exact updates

variable (noStart : config.requestStartHandler = none)
include noStart

omit server in
theorem attends_applyHeaders (headers : Headers) (endStream : Bool) (buffers : connection.Buffers) :
    Attends (applyHeadersDeeds config connection sid headers endStream) connection
      (connection.applyHeaders config sid headers endStream) := by
  have requests : Attends [] connection (connection.withRequest sid headers) :=
    attends_modifyStream sid (fun _ => by rfl) buffers
  unfold applyHeadersDeeds applyHeaders
  rw [noStart]
  dsimp only
  split
  · have ends : Attends [] connection ((connection.withRequest sid headers).withEnd sid) :=
      requests.trans (attends_modifyStream sid (fun _ => by rfl) requests.buffers)
    exact ends.trans (attends_dispatchRequest sid noStreaming ends.buffers)
  · exact requests

omit noStreaming server noStart in
theorem attends_decode {next : Connection} {block : Bytes} {headers : Headers}
    (decoded : connection.decode block = .ok (headers, next)) (buffers : connection.Buffers) :
    Attends [] connection next := by
  obtain ⟨advances, streams⟩ :=
    decode_advances connection (fun _ => True) block headers next decoded
  refine advances.attends own_nil fun sid => ?_
  rw [stream, streams]
  exact buffers sid

omit server in
theorem attends_handleRequestHeaders {next : Connection} (block : Bytes)
    (endHeaders endStream : Bool) (buffers : connection.Buffers)
    (run : connection.handleRequestHeaders config sid block endHeaders endStream = .ok next) :
    Attends (handleRequestHeadersDeeds config connection sid block endHeaders endStream) connection
      next := by
  have opens : Attends [.enter sid] connection (connection.openStream sid) := by
    refine ⟨?_, (List.append_nil _).symm, List.forall_mem_singleton.mpr trivial⟩
    exact buffers_setStream sid (buffers sid) buffers
  unfold handleRequestHeaders at run
  unfold handleRequestHeadersDeeds
  split at run
  · rename_i trailers
    cases run
    rw [if_pos trailers, endStreamingDeeds, endStreaming, buffers sid]
    exact attends_modifyStream sid (fun _ => by rfl) buffers
  · rename_i plain
    rw [if_neg plain]
    split at run
    · rename_i whole
      rw [if_pos whole]
      obtain ⟨⟨headers, decoded⟩, decode, applied⟩ := bind_ok run
      cases applied
      rw [blockDeeds, decode]
      have decodes := attends_decode decode opens.buffers
      exact opens.trans (decodes.trans
        (attends_applyHeaders sid noStreaming noStart headers endStream decodes.buffers))
    · rename_i split
      cases run
      rw [if_neg split]
      refine opens.trans ⟨?_, (List.append_nil _).symm, own_nil.whole⟩
      exact buffers_modifyStream sid (fun _ => by rfl) opens.buffers

theorem attends_handleHeaders {next : Connection} (f : Frame) (buffers : connection.Buffers)
    (run : connection.handleHeaders config f = .ok next) :
    Attends (handleHeadersDeeds config connection f) connection next := by
  unfold handleHeaders at run
  unfold handleHeadersDeeds
  dsimp only at run ⊢
  split at run
  · rename_i zero
    cases run
    rw [if_pos zero]
    exact attends_goaway _ _ _ buffers
  · rename_i nonzero
    rw [if_neg nonzero]
    cases fragment : headerFragment f with
    | error error =>
      rw [fragment] at run
      cases run
      exact attends_goaway _ _ _ buffers
    | ok block =>
      rw [fragment, server] at run
      rw [server]
      exact attends_handleRequestHeaders _ noStreaming noStart block _ _ buffers run

theorem attends_handleContinuation {next : Connection} (f : Frame) (buffers : connection.Buffers)
    (run : connection.handleContinuation config f = .ok next) :
    Attends (handleContinuationDeeds config connection f) connection next := by
  set sid := f.hdr.streamId
  set ready : Connection := { connection.withFragment sid f.payload with continuationStream := 0 }
  have readies : Attends [] connection ready :=
    ⟨buffers_modifyStream sid (fun _ => by rfl) buffers, (List.append_nil _).symm,
      own_nil.whole⟩
  unfold handleContinuation at run
  unfold handleContinuationDeeds
  dsimp only at run ⊢
  cases found : connection.streams sid with
  | none =>
    rw [found] at run
    cases run
    exact attends_goaway _ _ _ buffers
  | some state =>
    rw [found] at run
    dsimp only at run ⊢
    split at run
    · rename_i last
      rw [if_pos last]
      obtain ⟨⟨headers, decoded⟩, decode, applied⟩ := bind_ok run
      have decodes := readies.trans (attends_decode decode readies.buffers)
      have clears := decodes.trans (attends_modifyStream sid
        (fun state =>
          show ({ state with pendingHeaderBlock := [] } : StreamState).dataCb = _ from rfl)
        decodes.buffers)
      have read : ready.decode (ready.stream sid).pendingHeaderBlock =
        .ok (headers, decoded) := decode
      rw [blockDeeds, read]
      dsimp only at applied ⊢
      rw [server] at applied ⊢
      cases applied
      exact clears.trans (attends_applyHeaders sid noStreaming noStart headers _ clears.buffers)
    · rename_i more
      cases run
      rw [if_neg more]
      exact attends_modifyStream sid (fun _ => by rfl) buffers

end Frames

/-! ### The other frames -/

section Others

variable {connection : Connection}

theorem own_applySettingsDeeds (settings : List SettingEntry) :
    Own (applySettingsDeeds connection settings) := by
  induction settings with
  | nil => exact List.forall_mem_singleton.mpr trivial
  | cons setting settings inductionHypothesis =>
    unfold applySettingsDeeds
    split
    · split
      · exact own_goawayDeeds _ _ _
      · exact List.forall_mem_cons.mpr ⟨trivial, inductionHypothesis⟩
    · split
      · exact own_goawayDeeds _ _ _
      · exact List.forall_mem_cons.mpr ⟨trivial, inductionHypothesis⟩
    · exact List.forall_mem_cons.mpr ⟨trivial, inductionHypothesis⟩

theorem buffers_applySettings (settings : List SettingEntry) (buffers : connection.Buffers) :
    (connection.applySettings settings).Buffers := by
  induction settings generalizing connection with
  | nil => exact buffers
  | cons setting settings inductionHypothesis =>
    unfold applySettings
    split
    · exact inductionHypothesis buffers
    · split
      · exact buffers
      · refine inductionHypothesis fun sid => ?_
        have before := buffers sid
        unfold stream at before ⊢
        dsimp only
        cases found : connection.streams sid with
        | none => rfl
        | some state =>
          rw [found] at before
          exact before
    · split
      · exact buffers
      · exact inductionHypothesis buffers
    · exact inductionHypothesis buffers
    · exact inductionHypothesis buffers

theorem own_handleSettingsDeeds (f : Frame) : Own (handleSettingsDeeds connection f) := by
  unfold handleSettingsDeeds
  split
  · exact own_goawayDeeds _ _ _
  · split
    · exact own_nil
    · split
      · exact own_goawayDeeds _ _ _
      · exact own_applySettingsDeeds _

theorem attends_handleSettings (f : Frame) (buffers : connection.Buffers) :
    Attends (handleSettingsDeeds connection f) connection (connection.handleSettings f) := by
  refine (handleSettings_advances connection (fun _ => True) f).attends
    (own_handleSettingsDeeds f) ?_
  · unfold handleSettings
    split
    · exact buffers
    · split
      · exact buffers
      · split
        · exact buffers
        · exact buffers_applySettings _ buffers

theorem attends_handlePing (f : Frame) (buffers : connection.Buffers) :
    Attends (handlePingDeeds connection f) connection (connection.handlePing f) := by
  refine (handlePing_advances connection (fun _ => True) f).attends ?_ ?_
  · unfold handlePingDeeds
    split
    · exact own_goawayDeeds _ _ _
    · split
      · exact own_goawayDeeds _ _ _
      · split
        · exact own_nil
        · exact List.forall_mem_singleton.mpr trivial
  · unfold handlePing
    split
    · exact buffers
    · split
      · exact buffers
      · split <;> exact buffers

theorem attends_handleWindowUpdate (f : Frame) (buffers : connection.Buffers) :
    Attends (handleWindowUpdateDeeds connection f) connection
      (connection.handleWindowUpdate f) := by
  refine (handleWindowUpdate_advances connection (fun _ => True) f).attends ?_ ?_
  · unfold handleWindowUpdateDeeds
    dsimp only
    split
    · exact own_goawayDeeds _ _ _
    · split
      · split
        · exact own_goawayDeeds _ _ _
        · exact List.forall_mem_singleton.mpr trivial
      · refine List.forall_mem_cons.mpr ⟨trivial, ?_⟩
        split
        · split
          · exact own_goawayDeeds _ _ _
          · exact own_nil
        · exact own_nil
  · unfold handleWindowUpdate
    dsimp only
    split
    · exact buffers
    · split
      · split <;> exact buffers
      · split
        · split <;> exact buffers
        · split
          · exact buffers
          · have credited := buffers_modifyStream f.hdr.streamId
              (fun state : StreamState => show ({ state with
                sendWindow := state.sendWindow + (parseWindowUpdate f.payload : Int) } :
                  StreamState).dataCb = _ from rfl) buffers
            split <;> exact credited

theorem attends_handleRstStream (f : Frame) (buffers : connection.Buffers) :
    Attends (handleRstStreamDeeds connection f) connection (connection.handleRstStream f) := by
  refine (handleRstStream_advances connection (fun _ => True) f).attends ?_ ?_
  · unfold handleRstStreamDeeds
    dsimp only
    split
    · exact own_goawayDeeds _ _ _
    · split
      · exact own_nil
      · exact List.forall_mem_append.mpr
          ⟨own_toList fun _ => trivial, List.forall_mem_singleton.mpr trivial⟩
  · unfold handleRstStream
    dsimp only
    split
    · exact buffers
    · split
      · exact buffers
      · split
        · exact buffers_eraseStream _ buffers
        · refine buffers_eraseStream _ ?_
          split <;> exact buffers

/-- A frame that a server processes is answered if and only if its request is dispatched. -/
theorem attends_processFrame {config : Config} {next : Connection} (f : Frame)
    (noStreaming : config.streamingRequestHandler = none) (server : config.mode = .server)
    (noStart : config.requestStartHandler = none) (buffers : connection.Buffers)
    (run : connection.processFrame config f = .ok next) :
    Attends (frameDeeds config connection f) connection next := by
  have starts : Attends [] connection (connection.record (.frame f)) :=
    ⟨buffers, dispatchesOf_record connection (.frame f), own_nil.whole⟩
  have unchanged := starts.buffers
  have handled := handled_processFrame config connection f run
  generalize frameDeeds config connection f = deeds at handled ⊢
  refine starts.trans ?_
  cases handled with
  | refused debug short => exact attends_goaway _ _ _ unchanged
  | continuation run =>
    exact attends_handleContinuation noStreaming server noStart f unchanged run
  | data => exact attends_handleData noStreaming server f unchanged
  | headers run => exact attends_handleHeaders noStreaming server noStart f unchanged run
  | rstStream => exact attends_handleRstStream f unchanged
  | settings => exact attends_handleSettings f unchanged
  | pushPromise run =>
    rw [handlePushPromise, server] at run
    cases run
    rw [handlePushPromiseDeeds, server]
    exact attends_goaway _ _ _ unchanged
  | ping => exact attends_handlePing f unchanged
  | goaway =>
    exact ⟨unchanged, (List.append_nil _).symm, List.forall_mem_singleton.mpr trivial⟩
  | windowUpdate => exact attends_handleWindowUpdate f unchanged
  | ignored => exact Attends.refl unchanged

end Others

end Connection

/-! ### Servers -/

namespace Session

/-- What the owner of a server does that leaves the answers to the session. -/
def Serving : Action → Prop
  | .receive _ => True
  | .op (.call .getPendingOutput) => True
  | .op (.call .takeCompletedPromises) => True
  | .op (.call (.submitPush _ _ _)) => True
  | .op (.call _) => False
  | .op (.setStreamingRequestHandler handler) => handler = none
  | .op (.setRequestStartHandler handler) => handler = none
  | .op _ => True

/-- A server that answers its requests itself. -/
structure Answers (session : Session) : Prop where
  server : session.config.mode = .server
  noStreaming : session.config.streamingRequestHandler = none
  noStart : session.config.requestStartHandler = none
  buffers : session.connection.Buffers

theorem answers_create : (create .server).Answers := ⟨rfl, rfl, rfl, fun _ => rfl⟩

/-- An action of the owner: nothing is dispatched. -/
theorem attends_op (session : Session) (op : Op) (answers : session.Answers)
    (serving : Serving (.op op)) :
    (session.op op).Answers ∧
      Connection.Attends (session.deeds (.op op)) session.connection
        (session.op op).connection := by
  have unchanged := Connection.Attends.refl answers.buffers
  cases op with
  | call command =>
    have called (buffers : (session.connection.command command).Buffers)
        (none : answersOf [.call command] = []) (whole : command.Whole) :
        (session.op (.call command)).Answers ∧ Connection.Attends [.call command]
          session.connection (session.op (.call command)).connection := by
      refine ⟨{ answers with buffers := buffers }, buffers, ?_, List.forall_mem_singleton.mpr whole⟩
      rw [none, List.append_nil]
      exact congrArg dispatchesOf (Connection.quiet_command session.connection command).events
    cases command with
    | getPendingOutput => exact called answers.buffers rfl trivial
    | takeCompletedPromises => exact called answers.buffers rfl trivial
    | submitPush parent req resp =>
      exact called (Connection.buffers_doSubmitPush parent req resp answers.buffers) rfl trivial
    | setDataCallback sid cb => exact absurd serving id
    | clearDataCallback sid => exact absurd serving id
    | submitResponse sid resp => exact absurd serving id
    | submitResponseHeaders sid resp => exact absurd serving id
    | submitData sid data endStream => exact absurd serving id
    | submitTrailers sid trailers => exact absurd serving id
    | submitRequest req promise noEndStream => exact absurd serving id
  | setRequestHandler handler => exact ⟨{ answers with }, unchanged⟩
  | setStreamingRequestHandler handler =>
    exact ⟨{ answers with noStreaming := serving }, unchanged⟩
  | setRequestStartHandler handler => exact ⟨{ answers with noStart := serving }, unchanged⟩
  | setPushProvider provider => exact ⟨{ answers with }, unchanged⟩
  | setPushHandler given => exact ⟨{ answers with }, unchanged⟩
  | await ref =>
    exact ⟨{ answers with }, answers.buffers, (List.append_nil _).symm,
      List.forall_mem_singleton.mpr trivial⟩

theorem attends_act (session next : Session) (action : Action) (answers : session.Answers)
    (serving : Serving action) (acted : session.act action = .ok next) :
    next.Answers ∧
      Connection.Attends (session.deeds action) session.connection next.connection := by
  cases action with
  | op op =>
    cases acted
    exact attends_op session op answers serving
  | receive f =>
    rw [act] at acted
    rw [deeds]
    split at acted
    · rename_i alive
      rw [if_pos alive]
      obtain ⟨connection, processed, rfl⟩ := map_ok acted
      have attends := Connection.attends_processFrame f answers.noStreaming answers.server
        answers.noStart answers.buffers processed
      exact ⟨{ answers with buffers := attends.buffers }, attends⟩
    · rename_i dead
      cases acted
      rw [if_neg dead]
      exact ⟨answers, Connection.Attends.refl answers.buffers⟩

/-- Along a run the requests that are dispatched are those that are answered. -/
theorem attends_history (actions : List Action) (session final : Session)
    (answers : session.Answers) (serving : ∀ action ∈ actions, Serving action)
    (run : actions.foldlM act session = .ok final) :
    Connection.Attends (session.history actions) session.connection final.connection := by
  induction actions generalizing session with
  | nil =>
    cases run
    exact Connection.Attends.refl answers.buffers
  | cons action actions inductionHypothesis =>
    obtain ⟨first, later⟩ := List.forall_mem_cons.mp serving
    rw [List.foldlM_cons] at run
    obtain ⟨next, acted, rest⟩ := bind_ok run
    obtain ⟨stillAnswers, attends⟩ := attends_act session next action answers first acted
    unfold history
    rw [acted]
    exact attends.trans (inductionHypothesis next stillAnswers later rest)

/-- Along every run of a server that answers its requests itself, and that dispatches each at most
once and none on a stream that it has promised, nothing of a message is sent on a stream after its
end: what has been written are the bytes of frames that are in order. -/
theorem orderly_of_serving (actions : List Action) (final : Session)
    (serving : ∀ action ∈ actions, Serving action)
    (run : actions.foldlM act (create .server) = .ok final)
    (once : (dispatchesOf final.connection.events).Nodup)
    (apart : ∀ sid ∈ dispatchesOf final.connection.events, sid % 2 = 0 →
      final.connection.nextPushStreamId ≤ sid) :
    final.connection.sent ++ final.connection.outputBuf =
        (account .server actions).frames.flatMap Frame.wire ∧
      SendPhase.Orderly true (account .server actions).frames ∧
      ((∀ f ∈ (account .server actions).frames, f.Proper) →
        parseFrames (account .server actions).frames.length
          (final.connection.sent ++ final.connection.outputBuf) =
            (account .server actions).frames) := by
  have refines := refines_account .server actions final run
  have attends := attends_history actions (create .server) final answers_create serving run
  have dispatched : dispatchesOf final.connection.events =
      answersOf ((create .server).history actions) := attends.dispatches
  have inOrder : (account .server actions).InOrder
      (answersOf ((create .server).history actions)) := by
    refine Account.inOrder_acts .server _ attends.whole (dispatched ▸ once) ?_
    rintro sid member ⟨_, even, promised⟩
    have later := apart sid (dispatched ▸ member) even
    rw [refines.nextPushStreamId] at later
    exact absurd promised (not_lt.mpr later)
  refine ⟨refines.output, inOrder.orderly, fun proper => ?_⟩
  rw [refines.output]
  exact parseFrames_flatMap_wire _ proper _ le_rfl

/-- A server whose request handler answers every request and whose push provider gives one push for
each. -/
def pushing : List Action :=
  [.op (.setRequestHandler (some fun _ => { bd := ascii "index" })),
    .op (.setPushProvider (some fun _ => [({ path := ascii "/style" }, {})])),
    .receive (.ofPayload .headers (Flag.endHeaders ||| Flag.endStream) 1 [0x82])]

/-- A request that is answered with a body and a push. -/
theorem orderly_pushing :
    ∃ final, pushing.foldlM act (create .server) = .ok final ∧
      dispatchesOf final.connection.events = [1] ∧
      SendPhase.Orderly true (account .server pushing).frames ∧
      (account .server pushing).frames.map (fun f => (f.hdr.type, f.hdr.streamId)) =
        [(.settings, 0), (.headers, 1), (.data, 1), (.pushPromise, 1), (.headers, 2)] := by
  refine ⟨_, rfl, by decide +kernel, ?_, by decide +kernel⟩
  have serving : ∀ action ∈ pushing, Serving action := List.forall_mem_cons.mpr
    ⟨trivial, List.forall_mem_cons.mpr ⟨trivial, List.forall_mem_singleton.mpr trivial⟩⟩
  exact (orderly_of_serving pushing _ serving rfl (by decide +kernel) (by decide +kernel)).2.1

/-- The promise comes on a stream that has ended. -/
theorem not_orderly_pushing :
    ∃ final, pushing.foldlM act (create .server) = .ok final ∧
      ¬ SendPhase.Orderly false (parseFrames 5
        (final.connection.sent ++ final.connection.outputBuf)) := by
  refine ⟨_, rfl, SendPhase.not_orderly 1 ?_⟩
  decide +kernel

end Session

end AsyncNet.Http
