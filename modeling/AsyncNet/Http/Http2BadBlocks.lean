/-
This file is about header blocks that the decoder rejects. It reports them by an empty
list of headers, and the session goes on with the empty list as with any other. So
whether a handler of the application is called does not depend on the block at all, but
on the handlers that are set and on whether the stream ends.
-/

import AsyncNet.Http.Http2Continuation

namespace AsyncNet.Http

open Library H2

/-- The frames that a header block comes in: HEADERS, and CONTINUATION frames if it is cut. -/
inductive CarriesBlock (sid : Nat) (endStream : Bool) : Bytes → Bool → List Frame → Prop
  | whole {f : Frame} {block : Bytes} (begins : BeginsBlock sid true endStream f block) :
      CarriesBlock sid endStream block false [f]
  | cut {f : Frame} {frames : List Frame} {fragment tail : Bytes}
      (begins : BeginsBlock sid false endStream f fragment)
      (continues : ContinuesBlock sid frames tail) :
      CarriesBlock sid endStream (fragment ++ tail) true (f :: frames)

namespace Connection

/-- No handler is called for a header block: it comes where no HEADERS are allowed, it is taken for
the trailers of a streaming request, or there is no start handler and the request does not end or
has no handler to go to. In CONTINUATION frames the request ends if the stream has ended before. -/
def SparesHandlers (config : Config) (connection : Connection) (sid : Nat)
    (endStream cut : Bool) : Prop :=
  connection.alive = true → connection.continuationStream = 0 → sid ≠ 0 →
    connection.streamingTrailers sid endStream = true ∨
      config.requestStartHandler = none ∧
        ((endStream || cut && (connection.stream sid).endStream) = false ∨
          config.streamingRequestHandler = none ∧ config.requestHandler = none)

theorem handlerCalls_unframed (connection : Connection) :
    handlerCalls connection.unframed.events = handlerCalls connection.events := by
  show (connection.events.filter _).filter _ = _
  rw [List.filter_filter]
  refine List.filter_congr fun event _ => ?_
  cases event <;> rfl

theorem calls_frame (connection : Connection) (f : Frame) :
    Calls [] connection (connection.record (.frame f)) := calls_record connection (.frame f)

section Server

variable (config : Config) (connection : Connection) {sid : Nat} {endStream : Bool}

/-- A complete block calls handlers as if it were valid. -/
theorem calls_finishBlock (sid : Nat) (block : Bytes) (endStream : Bool)
    (result : Option Headers × HpackDecoder) (server : config.mode = .server)
    (decoded : connection.decoder.decodeBlock block = .ok result) :
    ∃ next calls, connection.finishBlock config sid block endStream = .ok next ∧
      Calls calls connection next ∧
      (calls = [] ↔ config.requestStartHandler = none ∧ (endStream = false ∨
        config.streamingRequestHandler = none ∧ config.requestHandler = none)) := by
  have decodes : connection.decode block =
      .ok (result.1.getD [], { connection.record (.decode block) with decoder := result.2 }) := by
    rw [decode, HpackDecoder.decode, decoded]
    rfl
  unfold finishBlock applyBlock
  rw [decodes, server]
  obtain ⟨calls, made, empty, _⟩ := calls_applyHeaders config
    { connection.record (.decode block) with decoder := result.2 } sid (result.1.getD []) endStream
  exact ⟨_, calls, rfl, (calls_record connection (.decode block)).trans made, empty⟩

theorem calls_endStreaming : Calls [] connection (connection.endStreaming sid) := by
  unfold endStreaming
  dsimp only
  split
  · exact calls_of_events rfl
  · exact (calls_record connection (.dataCallback sid [] true)).trans (quiet_commands _ _).calls

/-- CONTINUATION frames that nobody waits for call no handler. -/
theorem calls_unexpected {frames : List Frame} {tail : Bytes}
    (continues : ContinuesBlock sid frames tail) (idle : connection.continuationStream = 0) :
    ∃ next, frames.foldlM (receive config) connection = .ok next ∧ Calls [] connection next := by
  by_cases alive : connection.alive = true
  · have refused (f : Frame) (type : f.hdr.type = .continuation) :
        connection.receive config f = .ok ((connection.record (.frame f)).goaway .protocolError
          (ascii "Unexpected CONTINUATION")) := by
      rw [receive, if_pos alive, processFrame, if_neg (by exact not_not.mpr idle), type]
    cases continues with
    | last f type streamId complete =>
      rw [List.foldlM_cons, refused f type]
      exact ⟨_, rfl, calls_frame connection f⟩
    | more f type streamId incomplete next =>
      rw [List.foldlM_cons, refused f type]
      exact ⟨_, foldlM_receive_of_dead config _ _ rfl, calls_frame connection f⟩
  · exact ⟨connection, foldlM_receive_of_dead config connection frames
      (Bool.eq_false_of_not_eq_true alive), calls_of_events rfl⟩

/-- The handlers that a header block calls on a server that takes no early return. -/
theorem calls_carried {block : Bytes} {cut : Bool} {frames : List Frame}
    (alive : connection.alive = true) (idle : connection.continuationStream = 0) (nonzero : sid ≠ 0)
    (server : config.mode = .server)
    (notTrailers : connection.streamingTrailers sid endStream = false)
    (result : Option Headers × HpackDecoder)
    (decoded : connection.decoder.decodeBlock block = .ok result)
    (carries : CarriesBlock sid endStream block cut frames) :
    ∃ next calls, frames.foldlM (receive config) connection = .ok next ∧
      Calls calls connection next ∧
      (calls = [] ↔ config.requestStartHandler = none ∧
        ((endStream || cut && (connection.stream sid).endStream) = false ∨
          config.streamingRequestHandler = none ∧ config.requestHandler = none)) := by
  cases carries with
  | @whole f block begins =>
    rw [List.foldlM_cons,
      receive_request config connection begins alive idle nonzero server notTrailers, if_pos rfl]
    obtain ⟨next, calls, finished, made, empty⟩ := calls_finishBlock config
      ((connection.record (.frame f)).openStream sid) sid block endStream result server decoded
    rw [finished, Bool.false_and, Bool.or_false]
    exact ⟨next, calls, rfl, Calls.trans (calls_frame connection f) made, empty⟩
  | @cut f frames fragment tail begins continues =>
    rw [List.foldlM_cons,
      receive_request config connection begins alive idle nonzero server notTrailers,
      if_neg (by decide)]
    have finishes := foldlM_continues config ((connection.record (.frame f)).openStream sid) sid
      continues fragment endStream { connection.stream sid with streamId := sid, state := .opened }
      alive idle nonzero (streams_setStream _ _ _)
    obtain ⟨finished, calls, finish, made, empty⟩ := calls_finishBlock config
      (((connection.record (.frame f)).openStream sid).unframed.rememberEnd sid endStream) sid
      (fragment ++ tail) ((connection.stream sid).endStream || endStream) result server decoded
    obtain ⟨next, ran, same⟩ := map_ok (finishes.trans finish)
    rw [Bool.true_and, Bool.or_comm endStream]
    refine ⟨next, calls, ran, ?_, empty⟩
    rw [Calls, ← handlerCalls_unframed next, same, made]
    have start : handlerCalls (((connection.record (.frame f)).openStream sid).unframed.rememberEnd
        sid endStream).events = handlerCalls (connection.record (.frame f)).events :=
      handlerCalls_unframed (connection.record (.frame f))
    rw [start, calls_frame connection f, List.append_nil]

/-- A header block that begins while another is awaited calls no handler. -/
theorem calls_waiting {block : Bytes} {cut : Bool} {frames : List Frame}
    (alive : connection.alive = true) (waiting : connection.continuationStream ≠ 0)
    (carries : CarriesBlock sid endStream block cut frames) :
    ∃ next, frames.foldlM (receive config) connection = .ok next ∧ Calls [] connection next := by
  have refused {f : Frame} {endHeaders : Bool} {fragment : Bytes}
      (begins : BeginsBlock sid endHeaders endStream f fragment) :
      connection.receive config f = .ok ((connection.record (.frame f)).goaway .protocolError
        (ascii "Expected CONTINUATION")) := by
    rw [receive, if_pos alive, processFrame, if_pos (by exact waiting),
      if_pos (Or.inl (by rw [begins.type]; decide))]
  cases carries with
  | @whole f _ begins =>
    rw [List.foldlM_cons, refused begins]
    exact ⟨_, rfl, calls_frame connection f⟩
  | @cut f frames _ _ begins continues =>
    rw [List.foldlM_cons, refused begins]
    exact ⟨_, foldlM_receive_of_dead config _ frames rfl, calls_frame connection f⟩

/-- A header block on stream 0 calls no handler. -/
theorem calls_zero {block : Bytes} {cut : Bool} {frames : List Frame}
    (alive : connection.alive = true) (idle : connection.continuationStream = 0)
    (carries : CarriesBlock 0 endStream block cut frames) :
    ∃ next, frames.foldlM (receive config) connection = .ok next ∧ Calls [] connection next := by
  cases carries with
  | @whole f _ begins =>
    rw [List.foldlM_cons, receive_begins_zero config connection begins alive idle]
    exact ⟨_, rfl, calls_frame connection f⟩
  | @cut f frames _ _ begins continues =>
    rw [List.foldlM_cons, receive_begins_zero config connection begins alive idle]
    exact ⟨_, foldlM_receive_of_dead config _ frames rfl, calls_frame connection f⟩

/-- The trailers of a streaming request call no handler. -/
theorem calls_trailers {block : Bytes} {cut : Bool} {frames : List Frame}
    (alive : connection.alive = true) (idle : connection.continuationStream = 0) (nonzero : sid ≠ 0)
    (server : config.mode = .server)
    (trailers : connection.streamingTrailers sid endStream = true)
    (carries : CarriesBlock sid endStream block cut frames) :
    ∃ next, frames.foldlM (receive config) connection = .ok next ∧ Calls [] connection next := by
  have returns {f : Frame} {endHeaders : Bool} {fragment : Bytes}
      (begins : BeginsBlock sid endHeaders endStream f fragment) :
      connection.receive config f = .ok ((connection.record (.frame f)).endStreaming sid) := by
    rw [receive_begins config connection begins alive idle nonzero, server]
    exact if_pos trailers
  have ended (f : Frame) : Calls [] connection ((connection.record (.frame f)).endStreaming sid) :=
    (calls_frame connection f).trans (calls_endStreaming _)
  cases carries with
  | @whole f _ begins =>
    rw [List.foldlM_cons, returns begins]
    exact ⟨_, rfl, ended f⟩
  | @cut f frames _ _ begins continues =>
    have stillIdle := (endStreaming_advances (connection.record (.frame f)) (fun _ => True) sid
      trivial).continuationStream.trans idle
    obtain ⟨next, ran, made⟩ := calls_unexpected config _ continues stillIdle
    rw [List.foldlM_cons, returns begins]
    exact ⟨next, ran, (ended f).trans made⟩

/-- Every header block that reaches a server calls handlers or spares them. -/
theorem calls_nil_iff {block : Bytes} {cut : Bool} {frames : List Frame}
    (server : config.mode = .server) (result : Option Headers × HpackDecoder)
    (decoded : connection.decoder.decodeBlock block = .ok result)
    (carries : CarriesBlock sid endStream block cut frames) :
    ∃ next calls, frames.foldlM (receive config) connection = .ok next ∧
      Calls calls connection next ∧
      (calls = [] ↔ connection.SparesHandlers config sid endStream cut) := by
  have silent (spared : connection.SparesHandlers config sid endStream cut)
      (run : ∃ next, frames.foldlM (receive config) connection = .ok next ∧
        Calls [] connection next) :
      ∃ next calls, frames.foldlM (receive config) connection = .ok next ∧
        Calls calls connection next ∧
        (calls = [] ↔ connection.SparesHandlers config sid endStream cut) := by
    obtain ⟨next, ran, made⟩ := run
    exact ⟨next, [], ran, made, iff_of_true rfl spared⟩
  by_cases alive : connection.alive = true
  · by_cases idle : connection.continuationStream = 0
    · by_cases zero : sid = 0
      · subst zero
        exact silent (fun _ _ nonzero => absurd rfl nonzero)
          (calls_zero config connection alive idle carries)
      · by_cases trailers : connection.streamingTrailers sid endStream = true
        · exact silent (fun _ _ _ => Or.inl trailers)
            (calls_trailers config connection alive idle zero server trailers carries)
        · obtain ⟨next, calls, ran, made, empty⟩ := calls_carried config connection alive idle zero
            server (Bool.eq_false_of_not_eq_true trailers) result decoded carries
          refine ⟨next, calls, ran, made, empty.trans ⟨fun spared _ _ _ => Or.inr spared, ?_⟩⟩
          exact fun spared => (spared alive idle zero).resolve_left trailers
    · exact silent (fun _ isIdle => absurd isIdle idle)
        (calls_waiting config connection alive idle carries)
  · have dead := Bool.eq_false_of_not_eq_true alive
    exact silent (fun isAlive => absurd isAlive alive)
      ⟨connection, foldlM_receive_of_dead config connection frames dead, calls_of_events rfl⟩

end Server

end Connection

namespace Session

/-- Whatever a header block that reaches a server is, and whether the decoder reads it or rejects
it: the handlers of the application are spared exactly if the block is refused or taken for
trailers, or there is no start handler and the request does not end or has no handler to go to. -/
theorem handlerCalls_eq_iff (session : Session) (server : session.config.mode = .server)
    (sid : Nat) (endStream cut : Bool) (block : Bytes) (frames : List Frame)
    (result : Option Headers × HpackDecoder)
    (decoded : session.connection.decoder.decodeBlock block = .ok result)
    (carries : CarriesBlock sid endStream block cut frames) :
    ∃ final, (frames.map Action.receive).foldlM act session = .ok final ∧
      (handlerCalls final.connection.events = handlerCalls session.connection.events ↔
        session.connection.SparesHandlers session.config sid endStream cut) := by
  obtain ⟨next, calls, ran, made, empty⟩ := Connection.calls_nil_iff session.config
    session.connection server result decoded carries
  rw [foldlM_act_receive, ran]
  refine ⟨_, rfl, ?_⟩
  show handlerCalls next.events = _ ↔ _
  rw [made, List.append_right_eq_self, empty]

/-- A server without handlers that receives index 0 in HEADERS which end the stream. -/
theorem handlerCalls_eq_iff_bare :
    HpackDecoder.decodeBlock {} [0x80] = .ok (none, {}) ∧
      ∃ final, [Action.receive (.ofPayload .headers (blockFlags true true) 1 [0x80])].foldlM act
          (create .server) = .ok final ∧
        (handlerCalls final.connection.events = [] ↔
          (create .server).connection.SparesHandlers (create .server).config 1 true false) := by
  have rejected : HpackDecoder.decodeBlock {} [0x80] = .ok (none, {}) := by decide +kernel
  exact ⟨rejected, handlerCalls_eq_iff (create .server) rfl 1 true false [0x80] _ _ rejected
    (.whole (begins_ofPayload 1 true true [0x80]))⟩

/-- The same with a request handler, which gets the request of a block that was rejected. -/
theorem handlerCalls_of_rejected :
    HpackDecoder.decodeBlock {} [0x80] = .ok (none, {}) ∧
      ∃ final, [Action.op (.setRequestHandler (some fun _ => {})),
          .receive (.ofPayload .headers (blockFlags true true) 1 [0x80])].foldlM act
          (create .server) = .ok final ∧
        handlerCalls final.connection.events = [.requestHandler { ver := .http2 }] := by
  refine ⟨by decide +kernel, _, rfl, ?_⟩
  decide +kernel

end Session

end AsyncNet.Http
