/-
This file puts a gRPC server on an HTTP/2 session, as `handle_connection` of
`src/grpc/grpc_server.cpp` does, and says which functions of the server a frame makes the
session call. A session takes its handlers and callbacks to be functions of what they are given,
while those of the server share a state. So a session is given them anew for every frame, as they
are at that moment, and the calls that the frame adds to its log are then made on the server.

A frame calls one function of a stream at most: the start handler with the request of a header
block that the frame completes, or the data callback with what the frame brings. The request
handler may come after it.
-/

import AsyncNet.Grpc.Transactions
import AsyncNet.Http.Http2Calls
import AsyncNet.Library.Runs

namespace AsyncNet.Grpc

open AsyncNet.Http AsyncNet.Http.H2 AsyncNet.Library

/-! ### A server on a session -/

/-- What is done on a session, as a call of its interface. -/
def Event.command : Event → Option Command
  | .submitResponseHeaders streamId resp => some (.submitResponseHeaders streamId resp)
  | .submitData streamId data endStream => some (.submitData streamId data endStream)
  | .submitTrailers streamId trailers => some (.submitTrailers streamId trailers)
  | .intercepted .. | .started _ => none

/-- What has been done on the session from one state of the server to a later one. -/
def Connection.commandsUntil (before after : Connection) : List Command :=
  (after.events.drop before.events.length).filterMap Event.command

/-- The data callbacks, at a moment. -/
def Connection.callback (connection : Connection) : DataCallback := fun streamId data endStream =>
  match connection.calls streamId with
  | none => []
  | some call => connection.commandsUntil (connection.dataCallback streamId call data endStream)

/-- The start handler, at a moment. The headers of the response are submitted before the data
callback is set, and the handler is started after that. -/
def Server.startHandler (server : Server) (connection : Connection) (streamId : Nat)
    (req : Request) (endStream : Bool) : Bool × List Command :=
  let (taken, after) := server.requestStartHandler connection streamId req endStream
  let commands := connection.commandsUntil after
  (taken,
    if taken then
      commands.take 1 ++ .setDataCallback streamId after.callback :: commands.drop 1
    else [])

/-- The functions that `handle_connection` sets, at the moment of a frame. A header block goes to
the start handler before it goes to the request handler, so that is a call later. -/
def Server.config (server : Server) (connection : Connection) (f : Frame) : Config where
  mode := .server
  requestHandler := some
    (server.respond (connection.moment + if f.hdr.type = .data then 0 else 1))
  requestStartHandler := some (server.startHandler connection)

/-- The call of the server that an event of the log is. -/
def callOf : Http.Event → Option Call
  | .requestHandler req => some (.requestHandler req)
  | .requestStartHandler streamId req endStream =>
      some (.requestStartHandler streamId req endStream)
  | .dataCallback streamId data endStream => some (.dataCallback streamId data endStream)
  | _ => none

def callsOf (events : List Http.Event) : List Call := events.filterMap callOf

/-- `handle_connection`: the session, the server's side of it, and what each call of the session
has led to. -/
structure Serving where
  session : Http.Connection := .create .server
  connection : Connection := {}
  deeds : List (Call × List Event) := []

/-- The session, with the data callbacks as they are at this moment. -/
def Serving.current (serving : Serving) : Http.Connection :=
  { serving.session with
    streams := fun streamId => (serving.session.streams streamId).map fun state =>
      { state with dataCb := state.dataCb.map fun _ => serving.connection.callback } }

/-- The session calls a function of the server. -/
def Server.serve (server : Server) (serving : Serving) (call : Call) : Serving :=
  let connection := server.step serving.connection call
  { serving with
    connection
    deeds := serving.deeds ++
      [(call, connection.events.drop serving.connection.events.length)] }

/-- A frame comes in, unless the session or an exception has ended the connection. -/
def Server.receive (server : Server) (serving : Serving) (f : Frame) : Serving :=
  if serving.session.alive = false ∨ serving.connection.ended = true then serving
  else
    match serving.current.processFrame (server.config serving.connection f) f with
    | .error _ => { serving with connection := serving.connection.throw }
    | .ok session =>
        ((callsOf session.events).drop (callsOf serving.session.events).length).foldl server.serve
          { serving with session }

/-! ### The calls of a frame -/

/-- A header block that a frame completes, with whether the stream ends behind it. HEADERS tell by
their own flag, and CONTINUATION frames by what the stream has been marked with. -/
def completedBlock (session : Http.Connection) (f : Frame) : Option (Bytes × Bool) :=
  let streamId := f.hdr.streamId
  let endStream := f.hdr.hasFlag Flag.endStream
  if f.hdr.hasFlag Flag.endHeaders then
    match f.hdr.type with
    | .headers =>
        if session.continuationStream ≠ 0 ∨ streamId = 0 ∨
            session.streamingTrailers streamId endStream then none
        else (Http.Connection.headerFragment f).toOption.map fun block => (block, endStream)
    | .continuation =>
        if session.continuationStream = 0 ∨ streamId ≠ session.continuationStream then none
        else (session.streams streamId).map fun state =>
          (state.pendingHeaderBlock ++ f.payload, state.endStream)
    | _ => none
  else none

/-- The request of a stream with the headers of a block. -/
def requestWith (session : Http.Connection) (streamId : Nat) (headers : Headers) : Request :=
  { headers.foldl Http.Connection.applyRequestHeader (session.stream streamId).req with
    ver := .http2 }

/-- The request whose header block a frame completes, with whether the stream ends behind it. -/
def completedRequest (session : Http.Connection) (f : Frame) : Option (Request × Bool) :=
  match completedBlock session f with
  | none => none
  | some (block, endStream) =>
      (session.decoder.decode block).toOption.map fun decoded =>
        (requestWith session f.hdr.streamId decoded.1, endStream)

/-- What a frame brings to the data callback of its stream, with whether the stream ends. HEADERS
that end a stream which has been taken bring its end alone. -/
def broughtData (session : Http.Connection) (f : Frame) : Option (Bytes × Bool) :=
  let streamId := f.hdr.streamId
  let endStream := f.hdr.hasFlag Flag.endStream
  if session.continuationStream ≠ 0 ∨ streamId = 0 then none
  else
    match (session.streams streamId).bind StreamState.dataCb, f.hdr.type with
    | some _, .data => (Http.Connection.stripPadding f).toOption.map fun data => (data, endStream)
    | some _, .headers =>
        if session.streamingTrailers streamId endStream then
          (Http.Connection.headerFragment f).toOption.map fun _ => ([], true)
        else none
    | _, _ => none

/-- The function of a stream that a frame makes the session call. -/
def streamCall (session : Http.Connection) (f : Frame) : Option Call :=
  match completedRequest session f with
  | some (req, endStream) => some (.requestStartHandler f.hdr.streamId req endStream)
  | none =>
      (broughtData session f).map fun brought =>
        .dataCallback f.hdr.streamId brought.1 brought.2

/-! ### The calls of a session -/

/-- From one state of a session to a later one, the calls have been made. -/
def Makes (calls : List Call) (before after : Http.Connection) : Prop :=
  callsOf after.events = callsOf before.events ++ calls

/-- Requests that are handed to the request handler. -/
def Answers (calls : List Call) : Prop := ∀ call ∈ calls, ∃ req, call = .requestHandler req

theorem Makes.trans {calls more : List Call} {first second third : Http.Connection}
    (left : Makes calls first second) (right : Makes more second third) :
    Makes (calls ++ more) first third := by
  unfold Makes at left right ⊢
  rw [right, left, List.append_assoc]

/-- A part in which no call is made comes last. -/
theorem Makes.andThen {calls : List Call} {first second third : Http.Connection}
    (left : Makes calls first second) (right : Makes [] second third) :
    Makes calls first third := by
  have both := left.trans right
  rw [List.append_nil] at both
  exact both

theorem makes_of_events {before after : Http.Connection} (same : after.events = before.events) :
    Makes [] before after := by
  rw [Makes, same, List.append_nil]

theorem makes_of_quiet {before after : Http.Connection}
    (quiet : Http.Connection.Quiet before after) : Makes [] before after :=
  makes_of_events quiet.events

theorem answers_nil : Answers [] := fun _ member => absurd member List.not_mem_nil

section Calls

variable (config : Config) (session : Http.Connection) (streamId : Nat)

theorem makes_record (event : Http.Event) :
    Makes (callOf event).toList session (session.record event) := by
  show callsOf (session.events ++ [event]) = _
  rw [callsOf, List.filterMap_append]
  cases same : callOf event with
  | none => rw [List.filterMap_cons_none same]; rfl
  | some call => rw [List.filterMap_cons_some same]; rfl

theorem makes_pushAssociated : Makes [] session (session.pushAssociated config streamId) := by
  unfold Http.Connection.pushAssociated
  split
  · exact makes_of_events rfl
  · split
    · exact Makes.andThen (makes_record session (.pushProvider (session.stream streamId).req))
        (makes_of_quiet (Http.Connection.quiet_foldl_doSubmitPush _ streamId _))
    · exact makes_of_events rfl

theorem makes_answerRequest : ∃ answers, Answers answers ∧
    Makes answers session (session.answerRequest config streamId) := by
  unfold Http.Connection.answerRequest
  split
  · exact ⟨[], answers_nil,
      makes_of_quiet (Http.Connection.quiet_doSubmitResponse session streamId _)⟩
  · refine ⟨[.requestHandler (session.stream streamId).req],
      List.forall_mem_singleton.mpr ⟨_, rfl⟩, ?_⟩
    refine Makes.andThen ?_ (makes_pushAssociated config _ streamId)
    refine Makes.andThen ?_ (makes_of_quiet (Http.Connection.quiet_doSubmitResponse _ streamId _))
    exact makes_record session (.requestHandler (session.stream streamId).req)

theorem makes_dispatchRequest : ∃ answers, Answers answers ∧
    Makes answers session (session.dispatchRequest config streamId) := by
  unfold Http.Connection.dispatchRequest
  dsimp only
  set prepared := (session.record (.dispatch streamId)).modifyStream streamId fun state =>
    { state with req := { state.req with bd := state.body }, body := [] }
  have offered : Makes [] session (prepared.callStreamingRequestHandler config streamId).2 := by
    have start : Makes [] session prepared := makes_record session (.dispatch streamId)
    refine start.andThen ?_
    unfold Http.Connection.callStreamingRequestHandler
    split
    · exact makes_of_events rfl
    · have called : Makes [] prepared (prepared.record
          (.streamingRequestHandler streamId (prepared.stream streamId).req)) :=
        makes_record prepared (.streamingRequestHandler streamId (prepared.stream streamId).req)
      exact called.andThen (makes_of_quiet (Http.Connection.quiet_commands _ _))
  split
  · exact ⟨[], answers_nil, offered⟩
  · obtain ⟨answers, isAnswers, made⟩ := makes_answerRequest config
      (prepared.callStreamingRequestHandler config streamId).2 streamId
    exact ⟨answers, isAnswers, offered.trans made⟩

theorem makes_callRequestStartHandler (handler : Nat → Request → Bool → Bool × List Command)
    (endStream : Bool) :
    Makes [.requestStartHandler streamId (session.stream streamId).req endStream] session
      (session.callRequestStartHandler handler streamId endStream).2 := by
  have called : Makes [.requestStartHandler streamId (session.stream streamId).req endStream]
      session ((session.record (.requestStartHandler streamId (session.stream streamId).req
        endStream)).commands
          (handler streamId (session.stream streamId).req endStream).2) := by
    refine (makes_record session (.requestStartHandler streamId _ endStream)).andThen ?_
    exact makes_of_quiet (Http.Connection.quiet_commands _ _)
  unfold Http.Connection.callRequestStartHandler
  dsimp only
  split
  · exact called
  · exact called

/-- The headers of a request go to the start handler first. -/
theorem makes_applyHeaders {handler : Nat → Request → Bool → Bool × List Command}
    (set : config.requestStartHandler = some handler)
    (present : (session.streams streamId).isSome = true) (headers : Headers) (endStream : Bool) :
    ∃ answers, Answers answers ∧
      Makes (.requestStartHandler streamId (requestWith session streamId headers) endStream ::
        answers) session (session.applyHeaders config streamId headers endStream) := by
  obtain ⟨state, found⟩ := Option.isSome_iff_exists.mp present
  have stream := Http.Connection.stream_of_some session streamId found
  unfold Http.Connection.applyHeaders
  dsimp only
  rw [set]
  set applied := session.modifyStream streamId fun state =>
    { state with
      headersComplete := true
      req := { headers.foldl Http.Connection.applyRequestHeader state.req with ver := .http2 } }
    with appliedEq
  have there : applied.streams streamId = some { state with
      headersComplete := true, req := requestWith session streamId headers } := by
    rw [appliedEq, Http.Connection.streams_modifyStream, found, requestWith, stream]
    rfl
  cases endStream with
  | false =>
    have called := makes_callRequestStartHandler applied streamId handler false
    rw [Http.Connection.stream_of_some applied streamId there] at called
    exact ⟨[], answers_nil, called⟩
  | true =>
    set ended := applied.modifyStream streamId fun state => { state with endStream := true }
      with endedEq
    have called := makes_callRequestStartHandler ended streamId handler true
    have req : (ended.stream streamId).req = requestWith session streamId headers := by
      rw [Http.Connection.stream, endedEq, Http.Connection.streams_modifyStream, there]
      rfl
    rw [req] at called
    rw [if_pos rfl]
    dsimp only
    split
    · exact ⟨[], answers_nil, called⟩
    · obtain ⟨answers, isAnswers, made⟩ := makes_dispatchRequest config
        (ended.callRequestStartHandler handler streamId true).2 streamId
      exact ⟨answers, isAnswers, Makes.trans called made⟩

theorem makes_updateWindows (length : Nat) :
    Makes [] session (session.updateWindows streamId length) := by
  have replenished (session : Http.Connection) :
      session.replenishConnection.events = session.events := by
    unfold Http.Connection.replenishConnection
    split <;> rfl
  have granted (session : Http.Connection) :
      (session.replenishStream streamId).events = session.events := by
    unfold Http.Connection.replenishStream
    split <;> rfl
  refine makes_of_events ?_
  unfold Http.Connection.updateWindows
  rw [granted, replenished]
  rfl

theorem makes_endData (server : config.mode = .server) : ∃ answers, Answers answers ∧
    Makes answers session (session.endData config streamId) := by
  unfold Http.Connection.endData
  rw [if_pos server]
  split
  · exact ⟨[], answers_nil, makes_of_events rfl⟩
  · obtain ⟨answers, isAnswers, made⟩ := makes_dispatchRequest config
      (session.modifyStream streamId fun state => { state with endStream := true }) streamId
    exact ⟨answers, isAnswers, made⟩

theorem makes_callDataCallback (cb : DataCallback) (data : Bytes) (endStream : Bool) :
    Makes [.dataCallback streamId data endStream] session
      (session.callDataCallback cb streamId data endStream) := by
  unfold Http.Connection.callDataCallback
  exact Makes.andThen (makes_record session (.dataCallback streamId data endStream))
    (makes_of_quiet (Http.Connection.quiet_commands _ _))

end Calls

/-! ### The calls of the handlers of frames -/

section Frames

variable (config : Config) (session : Http.Connection) (f : Frame)

theorem streamCall_of_block_none (none : completedBlock session f = none) :
    streamCall session f = (broughtData session f).map fun brought =>
      .dataCallback f.hdr.streamId brought.1 brought.2 := by
  unfold streamCall completedRequest
  rw [none]

theorem streamCall_of_block {block : Bytes} {endStream : Bool} {headers : Headers}
    {decoder : HpackDecoder} (completes : completedBlock session f = some (block, endStream))
    (decoded : session.decoder.decode block = .ok (headers, decoder)) :
    streamCall session f = some (.requestStartHandler f.hdr.streamId
      (requestWith session f.hdr.streamId headers) endStream) := by
  unfold streamCall completedRequest
  rw [completes]
  dsimp only
  rw [decoded]
  rfl

theorem makes_deliverData (streamId : Nat) (state : StreamState) (data : Bytes)
    (endStream : Bool) :
    Makes (state.dataCb.map fun _ => Call.dataCallback streamId data endStream).toList session
      (session.deliverData streamId state data endStream) := by
  unfold Http.Connection.deliverData
  cases state.dataCb with
  | none => exact makes_of_events rfl
  | some cb => exact makes_callDataCallback session streamId cb data endStream

/-- DATA goes to the data callback, and a request that it ends to the request handler unless a
streaming handler has taken it. -/
theorem makes_handleData (server : config.mode = .server) (idle : session.continuationStream = 0)
    (type : f.hdr.type = .data) :
    ∃ answers, Answers answers ∧
      Makes ((streamCall session f).toList ++ answers) session (session.handleData config f) := by
  have none : completedBlock session f = none := by
    unfold completedBlock
    rw [type]
    dsimp only
    split <;> rfl
  rw [streamCall_of_block_none session f none]
  unfold Http.Connection.handleData broughtData
  rw [type]
  dsimp only
  by_cases zero : f.hdr.streamId = 0
  · rw [if_pos zero, if_pos (Or.inr zero)]
    exact ⟨[], answers_nil, makes_of_events rfl⟩
  · rw [if_neg zero, if_neg (not_or.mpr ⟨not_not.mpr idle, zero⟩)]
    cases session.streams f.hdr.streamId with
    | none => exact ⟨[], answers_nil, makes_of_events rfl⟩
    | some state =>
      rw [Option.bind_some]
      cases stripped : Http.Connection.stripPadding f with
      | error error =>
        refine ⟨[], answers_nil, ?_⟩
        cases state.dataCb <;> exact makes_of_events rfl
      | ok data =>
        set endStream := f.hdr.hasFlag Flag.endStream
        have delivered := (makes_deliverData session f.hdr.streamId state data endStream).andThen
          (makes_updateWindows _ f.hdr.streamId data.length)
        set after := (session.deliverData f.hdr.streamId state data endStream).updateWindows
          f.hdr.streamId data.length
        have ends (calls : List Call) (made : Makes calls session after) :
            ∃ answers, Answers answers ∧ Makes (calls ++ answers) session
              (if endStream then after.endData config f.hdr.streamId else after) := by
          split
          · obtain ⟨answers, isAnswers, more⟩ := makes_endData config after f.hdr.streamId server
            exact ⟨answers, isAnswers, made.trans more⟩
          · exact ⟨[], answers_nil, by rw [List.append_nil]; exact made⟩
        cases given : state.dataCb with
        | none =>
          rw [given] at delivered
          exact ends [] delivered
        | some cb =>
          rw [given] at delivered
          exact ends [.dataCallback f.hdr.streamId data endStream] delivered

/-- What comes of a frame: the function of the stream that it calls is called, and then at most the
request handler. A frame that faults calls none. -/
def Follows : Except Fault Http.Connection → Prop
  | .error _ => streamCall session f = none
  | .ok next => ∃ answers, Answers answers ∧
      Makes ((streamCall session f).toList ++ answers) session next

variable {config session f}

theorem Follows.of_none {next : Http.Connection} (uncalled : streamCall session f = none)
    (made : Makes [] session next) : Follows session f (.ok next) := by
  refine ⟨[], answers_nil, ?_⟩
  rw [uncalled]
  exact made

theorem streamCall_of_none (incomplete : completedBlock session f = none)
    (untold : broughtData session f = none) : streamCall session f = none := by
  rw [streamCall_of_block_none session f incomplete, untold]
  rfl

theorem decode_of_error {block : Bytes} {fault : Fault}
    (faults : session.decoder.decode block = .error fault) :
    session.decode block = .error fault := by
  unfold Http.Connection.decode
  rw [faults]
  rfl

theorem decode_of_ok {block : Bytes} {headers : Headers} {decoder : HpackDecoder}
    (decoded : session.decoder.decode block = .ok (headers, decoder)) :
    session.decode block =
      .ok (headers, { session.record (.decode block) with decoder }) := by
  unfold Http.Connection.decode
  rw [decoded]
  rfl

section Blocks

variable {block : Bytes} {endStream : Bool}
  (completed : completedBlock session f = some (block, endStream))

include completed

/-- A header block that is complete and decoded. -/
theorem follows_applyHeaders {handler : Nat → Request → Bool → Bool × List Command}
    (set : config.requestStartHandler = some handler) {headers : Headers}
    {decoder : HpackDecoder} (decoded : session.decoder.decode block = .ok (headers, decoder))
    {before : Http.Connection} (made : Makes [] session before)
    (present : (before.streams f.hdr.streamId).isSome = true)
    (same : (before.stream f.hdr.streamId).req = (session.stream f.hdr.streamId).req) :
    Follows session f (.ok (before.applyHeaders config f.hdr.streamId headers endStream)) := by
  obtain ⟨answers, isAnswers, applied⟩ := makes_applyHeaders config before f.hdr.streamId set
    present headers endStream
  refine ⟨answers, isAnswers, ?_⟩
  have both := made.trans applied
  rw [requestWith, same] at both
  rw [streamCall_of_block session f completed decoded]
  exact both

theorem streamCall_of_fault {fault : Fault} (faults : session.decoder.decode block = .error fault)
    (untold : broughtData session f = none) : streamCall session f = none := by
  unfold streamCall completedRequest
  rw [completed, untold]
  dsimp only
  rw [faults]
  rfl

end Blocks

section Headers

variable (type : f.hdr.type = .headers)

include type

theorem completedBlock_headers (idle : session.continuationStream = 0)
    (nonzero : f.hdr.streamId ≠ 0) {block : Bytes}
    (fragment : Http.Connection.headerFragment f = .ok block) :
    completedBlock session f =
      if f.hdr.hasFlag Flag.endHeaders ∧
          ¬ session.streamingTrailers f.hdr.streamId (f.hdr.hasFlag Flag.endStream) then
        some (block, f.hdr.hasFlag Flag.endStream)
      else none := by
  unfold completedBlock
  rw [type, fragment]
  dsimp only
  cases f.hdr.hasFlag Flag.endHeaders with
  | false => rfl
  | true =>
    rw [if_pos rfl]
    cases session.streamingTrailers f.hdr.streamId (f.hdr.hasFlag Flag.endStream) with
    | true => rw [if_pos (Or.inr (Or.inr rfl)), if_neg (fun both => both.2 rfl)]
    | false =>
      rw [if_neg, if_pos ⟨rfl, Bool.false_ne_true⟩]
      · rfl
      · rintro (wrong | wrong | wrong)
        · exact wrong idle
        · exact nonzero wrong
        · cases wrong

theorem broughtData_headers (idle : session.continuationStream = 0)
    (nonzero : f.hdr.streamId ≠ 0) {block : Bytes}
    (fragment : Http.Connection.headerFragment f = .ok block) :
    broughtData session f =
      if session.streamingTrailers f.hdr.streamId (f.hdr.hasFlag Flag.endStream) then
        ((session.streams f.hdr.streamId).bind StreamState.dataCb).map fun _ => ([], true)
      else none := by
  unfold broughtData
  rw [type, fragment]
  dsimp only
  rw [if_neg (not_or.mpr ⟨not_not.mpr idle, nonzero⟩)]
  cases (session.streams f.hdr.streamId).bind StreamState.dataCb with
  | none => exact (ite_self none).symm
  | some cb => rfl

theorem streamCall_headers_none
    (wrong : f.hdr.streamId = 0 ∨ ∃ error, Http.Connection.headerFragment f = .error error) :
    streamCall session f = none := by
  refine streamCall_of_none ?_ ?_
  · unfold completedBlock
    rw [type]
    dsimp only
    split
    · split
      · rfl
      · rename_i valid
        obtain zero | ⟨error, fragment⟩ := wrong
        · exact absurd (Or.inr (Or.inl zero)) valid
        · rw [fragment]
          rfl
    · rfl
  · unfold broughtData
    rw [type]
    dsimp only
    split
    · rfl
    · rename_i valid
      obtain zero | ⟨error, fragment⟩ := wrong
      · exact absurd (Or.inr zero) valid
      · rw [fragment]
        cases (session.streams f.hdr.streamId).bind StreamState.dataCb with
        | none => rfl
        | some cb => exact ite_self none

/-- A stream that has been taken is told of its end. -/
theorem follows_endStreaming (idle : session.continuationStream = 0)
    (nonzero : f.hdr.streamId ≠ 0) {block : Bytes}
    (fragment : Http.Connection.headerFragment f = .ok block)
    (trailers : session.streamingTrailers f.hdr.streamId (f.hdr.hasFlag Flag.endStream) = true) :
    Follows session f (.ok (session.endStreaming f.hdr.streamId)) := by
  refine ⟨[], answers_nil, ?_⟩
  rw [List.append_nil, streamCall_of_block_none session f, broughtData_headers type idle nonzero
    fragment, if_pos trailers]
  · obtain ⟨state, found⟩ : ∃ state, session.streams f.hdr.streamId = some state := by
      unfold Http.Connection.streamingTrailers at trailers
      cases found : session.streams f.hdr.streamId with
      | none =>
        rw [found] at trailers
        cases trailers
      | some state => exact ⟨state, rfl⟩
    unfold Http.Connection.endStreaming
    rw [Http.Connection.stream_of_some session _ found, found, Option.bind_some]
    cases state.dataCb with
    | none => exact makes_of_events rfl
    | some cb => exact makes_callDataCallback session f.hdr.streamId cb [] true
  · rw [completedBlock_headers type idle nonzero fragment, if_neg (fun both => both.2 trailers)]

end Headers

/-- The server's part of HEADERS. -/
theorem follows_handleHeaders {handler : Nat → Request → Bool → Bool × List Command}
    (server : config.mode = .server) (set : config.requestStartHandler = some handler)
    (idle : session.continuationStream = 0) (type : f.hdr.type = .headers) :
    Follows session f (session.handleHeaders config f) := by
  unfold Http.Connection.handleHeaders
  dsimp only
  rw [server]
  by_cases zero : f.hdr.streamId = 0
  · rw [if_pos zero]
    exact .of_none (streamCall_headers_none type (Or.inl zero)) (makes_of_events rfl)
  · rw [if_neg zero]
    cases fragment : Http.Connection.headerFragment f with
    | error error =>
      exact .of_none (streamCall_headers_none type (Or.inr ⟨error, fragment⟩))
        (makes_of_events rfl)
    | ok block =>
      have completed := @completedBlock_headers session f type idle zero block fragment
      have brought := @broughtData_headers session f type idle zero block fragment
      dsimp only
      unfold Http.Connection.handleRequestHeaders
      by_cases trailers :
          session.streamingTrailers f.hdr.streamId (f.hdr.hasFlag Flag.endStream) = true
      · rw [if_pos trailers]
        exact follows_endStreaming type idle zero fragment trailers
      · rw [if_neg trailers] at brought
        rw [if_neg trailers]
        by_cases complete : f.hdr.hasFlag Flag.endHeaders = true
        · rw [if_pos ⟨complete, trailers⟩] at completed
          rw [if_pos complete]
          unfold Http.Connection.decode
          rw [show (session.openStream f.hdr.streamId).decoder = session.decoder from rfl]
          cases decoded : session.decoder.decode block with
          | error fault => exact streamCall_of_fault completed decoded brought
          | ok found =>
            obtain ⟨headers, decoder⟩ := found
            have opened : (session.openStream f.hdr.streamId).streams f.hdr.streamId =
                some { session.stream f.hdr.streamId with
                  streamId := f.hdr.streamId, state := .opened } :=
              Http.Connection.streams_setStream session f.hdr.streamId _
            refine follows_applyHeaders completed set decoded ?_ ?_ ?_
            · exact makes_record session (.decode block)
            · exact congrArg Option.isSome opened
            · exact congrArg (fun found => (Option.getD found {}).req) opened
        · rw [if_neg (fun both => complete both.1)] at completed
          rw [if_neg complete]
          exact .of_none (streamCall_of_none completed brought) (makes_of_events rfl)

/-- While a header block is awaited, no frame brings anything to a data callback. -/
theorem broughtData_waiting (waiting : session.continuationStream ≠ 0) :
    broughtData session f = none := if_pos (Or.inl waiting)

/-- CONTINUATION for the stream whose header block is awaited. -/
theorem follows_handleContinuation {handler : Nat → Request → Bool → Bool × List Command}
    (server : config.mode = .server) (set : config.requestStartHandler = some handler)
    (waiting : session.continuationStream ≠ 0) (type : f.hdr.type = .continuation)
    (expected : f.hdr.streamId = session.continuationStream) :
    Follows session f (session.handleContinuation config f) := by
  have untold : broughtData session f = none := broughtData_waiting waiting
  have completed : completedBlock session f =
      if f.hdr.hasFlag Flag.endHeaders then
        (session.streams f.hdr.streamId).map fun state =>
          (state.pendingHeaderBlock ++ f.payload, state.endStream)
      else none := by
    unfold completedBlock
    rw [type]
    dsimp only
    rw [if_neg (not_or.mpr ⟨waiting, not_not.mpr expected⟩)]
  unfold Http.Connection.handleContinuation
  dsimp only
  cases found : session.streams f.hdr.streamId with
  | none =>
    rw [found, Option.map_none, ite_self] at completed
    exact .of_none (streamCall_of_none completed untold) (makes_of_events rfl)
  | some state =>
    rw [found, Option.map_some] at completed
    dsimp only
    set extended := session.modifyStream f.hdr.streamId fun state =>
      { state with pendingHeaderBlock := state.pendingHeaderBlock ++ f.payload } with extendedEq
    have there : extended.streams f.hdr.streamId = some
        { state with pendingHeaderBlock := state.pendingHeaderBlock ++ f.payload } := by
      rw [extendedEq, Http.Connection.streams_modifyStream, found]
      rfl
    by_cases complete : f.hdr.hasFlag Flag.endHeaders = true
    · rw [if_pos complete] at completed
      rw [if_pos complete]
      set resumed : Http.Connection := { extended with continuationStream := 0 }
      have pending : (resumed.stream f.hdr.streamId).pendingHeaderBlock =
          state.pendingHeaderBlock ++ f.payload :=
        congrArg (fun found => (Option.getD found {}).pendingHeaderBlock) there
      rw [pending]
      cases decoded : session.decoder.decode (state.pendingHeaderBlock ++ f.payload) with
      | error fault =>
        rw [@decode_of_error resumed _ _ decoded]
        exact streamCall_of_fault completed decoded untold
      | ok found =>
        obtain ⟨headers, decoder⟩ := found
        rw [@decode_of_ok resumed _ _ _ decoded, server]
        set after : Http.Connection := { resumed.record
          (.decode (state.pendingHeaderBlock ++ f.payload)) with decoder }
        have taken : (after.modifyStream f.hdr.streamId fun state =>
            { state with pendingHeaderBlock := [] }).streams f.hdr.streamId =
              some { state with pendingHeaderBlock := [] } := by
          rw [Http.Connection.streams_modifyStream]
          exact congrArg (Option.map fun state : StreamState =>
            { state with pendingHeaderBlock := [] }) there
        have read {α : Type} (field : StreamState → α) :
            field ((after.modifyStream f.hdr.streamId fun state =>
              { state with pendingHeaderBlock := [] }).stream f.hdr.streamId) =
                field { state with pendingHeaderBlock := [] } :=
          congrArg (fun found => field (Option.getD found {})) taken
        show Follows session f (.ok (Http.Connection.applyHeaders config
          (after.modifyStream f.hdr.streamId _) f.hdr.streamId headers
            ((after.modifyStream f.hdr.streamId _).stream f.hdr.streamId).endStream))
        rw [read StreamState.endStream]
        refine follows_applyHeaders completed set decoded ?_ ?_ ?_
        · exact makes_record resumed (.decode (state.pendingHeaderBlock ++ f.payload))
        · exact congrArg Option.isSome taken
        · rw [read StreamState.req, Http.Connection.stream_of_some session _ found]
    · rw [if_neg complete] at completed
      rw [if_neg complete]
      exact .of_none (streamCall_of_none completed untold) (makes_of_events rfl)

/-- A frame of another kind calls no function of a stream. -/
theorem streamCall_of_type (data : f.hdr.type ≠ .data) (headers : f.hdr.type ≠ .headers)
    (other : session.continuationStream = 0 ∨ f.hdr.type ≠ .continuation) :
    streamCall session f = none := by
  refine streamCall_of_none ?_ ?_
  · unfold completedBlock
    dsimp only
    split
    · split
      · rename_i type
        exact absurd type headers
      · rename_i type
        obtain idle | wrong := other
        · exact if_pos (Or.inl idle)
        · exact absurd type wrong
      · rfl
    · rfl
  · unfold broughtData
    dsimp only
    split
    · rfl
    · split
      · rename_i type
        exact absurd type data
      · rename_i type
        exact absurd type headers
      · rfl

/-- While a header block is awaited, no other frame calls a function of a stream. -/
theorem streamCall_of_unexpected (waiting : session.continuationStream ≠ 0)
    (unexpected : f.hdr.type ≠ .continuation ∨ f.hdr.streamId ≠ session.continuationStream) :
    streamCall session f = none := by
  refine streamCall_of_none ?_ (broughtData_waiting waiting)
  unfold completedBlock
  dsimp only
  split
  · split
    · exact if_pos (Or.inl waiting)
    · rename_i type
      obtain wrong | wrong := unexpected
      · exact absurd type wrong
      · exact if_pos (Or.inr wrong)
    · rfl
  · rfl

theorem makes_applySettings (session : Http.Connection) (settings : List SettingEntry) :
    Makes [] session (session.applySettings settings) := by
  induction settings generalizing session with
  | nil => exact makes_of_events rfl
  | cons setting settings inductionHypothesis =>
    have goesOn {changed : Http.Connection} (same : changed.events = session.events) :
        Makes [] session (changed.applySettings settings) :=
      (makes_of_events same).andThen (inductionHypothesis changed)
    unfold Http.Connection.applySettings
    split
    · exact goesOn rfl
    · split
      · exact makes_of_events rfl
      · exact goesOn rfl
    · split
      · exact makes_of_events rfl
      · exact goesOn rfl
    · exact goesOn rfl
    · exact inductionHypothesis session

theorem makes_handleSettings : Makes [] session (session.handleSettings f) := by
  unfold Http.Connection.handleSettings
  split
  · exact makes_of_events rfl
  · split
    · exact makes_of_events rfl
    · split
      · exact makes_of_events rfl
      · exact makes_applySettings session _

theorem makes_handlePing : Makes [] session (session.handlePing f) := by
  unfold Http.Connection.handlePing
  split
  · exact makes_of_events rfl
  · split
    · exact makes_of_events rfl
    · split <;> exact makes_of_events rfl

theorem makes_handleWindowUpdate : Makes [] session (session.handleWindowUpdate f) := by
  unfold Http.Connection.handleWindowUpdate
  dsimp only
  split
  · exact makes_of_events rfl
  · split
    · split <;> exact makes_of_events rfl
    · split
      · split <;> exact makes_of_events rfl
      · split
        · exact makes_of_events rfl
        · split <;> exact makes_of_events rfl

theorem makes_handleRstStream : Makes [] session (session.handleRstStream f) := by
  unfold Http.Connection.handleRstStream
  dsimp only
  split
  · exact makes_of_events rfl
  · split
    · exact makes_of_events rfl
    · rename_i state found
      refine Makes.andThen ?_ (makes_of_events rfl)
      cases state.promise with
      | none => exact makes_of_events rfl
      | some ref =>
        dsimp only
        split
        · exact makes_record { session.setPromise ref _ with completedPromises := _ } (.resume ref)
        · exact makes_of_events rfl

/-- What a frame makes a server's session call. -/
theorem follows_processFrame {handler : Nat → Request → Bool → Bool × List Command}
    (server : config.mode = .server) (set : config.requestStartHandler = some handler) :
    Follows session f (session.processFrame config f) := by
  have recorded {outcome : Except Fault Http.Connection}
      (follows : Follows (session.record (.frame f)) f outcome) : Follows session f outcome := by
    cases outcome with
    | error fault => exact follows
    | ok next =>
      obtain ⟨answers, isAnswers, made⟩ := follows
      have noted : Makes [] session (session.record (.frame f)) := makes_record session (.frame f)
      exact ⟨answers, isAnswers, noted.trans made⟩
  refine recorded ?_
  unfold Http.Connection.processFrame
  dsimp only
  set noted := session.record (.frame f)
  by_cases idle : noted.continuationStream = 0
  · rw [if_neg (not_not.mpr idle)]
    have silent {next : Http.Connection} (made : Makes [] noted next)
        (data : f.hdr.type ≠ .data) (headers : f.hdr.type ≠ .headers) :
        Follows noted f (.ok next) :=
      .of_none (streamCall_of_type data headers (Or.inl idle)) made
    cases type : f.hdr.type with
    | data => exact makes_handleData config noted f server idle type
    | headers => exact follows_handleHeaders server set idle type
    | pushPromise =>
      dsimp only
      unfold Http.Connection.handlePushPromise
      rw [server]
      exact silent (makes_of_events rfl) (by rw [type]; decide) (by rw [type]; decide)
    | rstStream =>
      exact silent makes_handleRstStream (by rw [type]; decide) (by rw [type]; decide)
    | settings => exact silent makes_handleSettings (by rw [type]; decide) (by rw [type]; decide)
    | ping => exact silent makes_handlePing (by rw [type]; decide) (by rw [type]; decide)
    | windowUpdate =>
      exact silent makes_handleWindowUpdate (by rw [type]; decide) (by rw [type]; decide)
    | priority => exact silent (makes_of_events rfl) (by rw [type]; decide) (by rw [type]; decide)
    | goaway => exact silent (makes_of_events rfl) (by rw [type]; decide) (by rw [type]; decide)
    | continuation =>
      exact silent (makes_of_events rfl) (by rw [type]; decide) (by rw [type]; decide)
    | unknown code =>
      refine silent (makes_of_events rfl) ?_ ?_ <;> rw [type] <;> intro wrong <;> cases wrong
  · rw [if_pos idle]
    by_cases expected : f.hdr.type ≠ .continuation ∨ f.hdr.streamId ≠ noted.continuationStream
    · rw [if_pos expected]
      exact .of_none (streamCall_of_unexpected idle expected) (makes_of_events rfl)
    · rw [if_neg expected]
      obtain ⟨type, same⟩ := not_or.mp expected
      exact follows_handleContinuation server set idle (not_not.mp type) (not_not.mp same)

end Frames

/-! ### The session with its callbacks -/

section Current

variable (serving : Serving) (f : Frame)

theorem streams_current (streamId : Nat) :
    serving.current.streams streamId = (serving.session.streams streamId).map fun state =>
      { state with dataCb := state.dataCb.map fun _ => serving.connection.callback } := rfl

theorem streamingTrailers_current (streamId : Nat) (endStream : Bool) :
    serving.current.streamingTrailers streamId endStream =
      serving.session.streamingTrailers streamId endStream := by
  unfold Http.Connection.streamingTrailers
  rw [streams_current]
  cases serving.session.streams streamId <;> rfl

theorem completedBlock_current :
    completedBlock serving.current f = completedBlock serving.session f := by
  have same (streamId : Nat) : (serving.current.streams streamId).map (fun state =>
        (state.pendingHeaderBlock ++ f.payload, state.endStream)) =
      (serving.session.streams streamId).map fun state =>
        (state.pendingHeaderBlock ++ f.payload, state.endStream) := by
    rw [streams_current, Option.map_map]
    rfl
  unfold completedBlock
  dsimp only
  rw [streamingTrailers_current, same]
  rfl

theorem completedRequest_current :
    completedRequest serving.current f = completedRequest serving.session f := by
  have same (headers : Headers) : requestWith serving.current f.hdr.streamId headers =
      requestWith serving.session f.hdr.streamId headers := by
    unfold requestWith Http.Connection.stream
    rw [streams_current]
    cases serving.session.streams f.hdr.streamId <;> rfl
  unfold completedRequest
  rw [completedBlock_current]
  simp only [same]
  rfl

theorem broughtData_current : broughtData serving.current f = broughtData serving.session f := by
  unfold broughtData
  dsimp only
  rw [streamingTrailers_current, streams_current]
  cases serving.session.streams f.hdr.streamId with
  | none => rfl
  | some state =>
    rw [Option.map_some, Option.bind_some, Option.bind_some]
    cases state.dataCb with
    | none => rfl
    | some cb => cases f.hdr.type <;> rfl

/-- It makes no difference to a frame what the data callbacks are. -/
theorem streamCall_current : streamCall serving.current f = streamCall serving.session f := by
  unfold streamCall
  rw [completedRequest_current, broughtData_current]

end Current

/-- A header block that a frame completes keeps it from the data callback. -/
theorem broughtData_of_completed (session : Http.Connection) (f : Frame)
    (completed : completedBlock session f ≠ none) : broughtData session f = none := by
  unfold completedBlock at completed
  dsimp only at completed
  split at completed
  · split at completed
    · rename_i type
      split at completed
      · exact absurd rfl completed
      · rename_i valid
        unfold broughtData
        rw [type]
        dsimp only
        split
        · rfl
        · cases (session.streams f.hdr.streamId).bind StreamState.dataCb with
          | none => rfl
          | some cb => exact if_neg fun trailers => valid (Or.inr (Or.inr trailers))
    · split at completed
      · exact absurd rfl completed
      · rename_i valid
        exact broughtData_waiting (not_or.mp valid).1
    · exact absurd rfl completed
  · exact absurd rfl completed

end AsyncNet.Grpc
