/-
This file follows the streams of a gRPC client whose responses come as messages, one after the
other: those of `channel::server_stream_call` of `src/grpc/grpc_channel.cpp`. The data of such
a stream goes to a callback, and the trailers complete the promise of the call. The frames of
many streams come in one sequence, and each of them takes its own stream a step on: it leads
to at most one call of the callback of that stream, and the other streams do not notice it.
-/

import AsyncNet.Grpc.Channel
import AsyncNet.Grpc.Serving
import AsyncNet.Library.Interleavings

namespace AsyncNet.Grpc

open AsyncNet.Http AsyncNet.Http.H2 AsyncNet.Library

/-! ### Streams of a client -/

/-- How far the response on a stream has come. A stream is idle before its call. -/
inductive StreamStage where
  | idle
  | start
  | streaming
  | done (trailers : Headers)
  deriving DecidableEq, Repr

/-- The callback of a call. It feeds a deframer and makes no call on the session. -/
def silent : DataCallback := fun _ _ _ => []

/-- The headers with which a server starts a stream of messages. -/
def streamHeaders : Headers :=
  Http.Connection.responseStart streamResponse ++
    Http.Connection.copiedHeaders Http.Connection.responseSkips streamResponse.hdrs

/-- The response on a stream. All of its data goes to the callback, so its body is empty. -/
def streamMessage (trailers : Headers) : Message where
  headers := streamHeaders
  body := []
  trailers := some trailers

/-- A stream as the session has it, without its windows. The promise of a call has the number of its
stream. -/
def streamState (sid : Nat) : StreamStage → StreamState
  | .streaming =>
      { awaiting sid (.caller sid) with
        dataCb := some silent
        headersComplete := true
        resp := (streamMessage []).responseHead }
  | _ => { awaiting sid (.caller sid) with dataCb := some silent }

/-- The stream that a frame is for, if it is part of a response. -/
def frameStream (f : Frame) : Option Nat :=
  match f.hdr.type with
  | .data | .headers => some f.hdr.streamId
  | _ => none

/-- A frame takes a response a step on. -/
inductive StreamStep (sid : Nat) : StreamStage → Frame → StreamStage → Prop
  | headers {f : Frame} {block : Bytes} (begins : BeginsBlock sid true false f block)
      (decodes : Decodes block streamHeaders) : StreamStep sid .start f .streaming
  | data {f : Frame} (isData : IsData sid false f) : StreamStep sid .streaming f .streaming
  | trailers {f : Frame} {block : Bytes} {trailers : Headers}
      (begins : BeginsBlock sid true true f block) (decodes : Decodes block trailers) :
      StreamStep sid .streaming f (.done trailers)

/-- The call of the callback that a frame leads to. -/
def heard (f : Frame) : List Call :=
  match f.hdr.type with
  | .data => [.dataCallback f.hdr.streamId f.payload false]
  | .headers =>
      if f.hdr.hasFlag Flag.endStream then [.dataCallback f.hdr.streamId [] true] else []
  | _ => []

/-- The promises when a response has come to a stage: at its end, its own is completed. -/
def settleStream (sid : Nat) (promises : PromiseRef → ResponsePromise) :
    StreamStage → PromiseRef → ResponsePromise
  | .done trailers => settle (.caller sid) (streamMessage trailers).response promises .done
  | _ => promises

/-- A frame has taken the response on a stream to a stage. -/
structure Hears (sid : Nat) (f : Frame) (stage : StreamStage) (before after : Http.Connection) :
    Prop where
  receipt : ∃ replies, (∀ reply ∈ replies, IsControl reply) ∧
    Http.Connection.Receipt f replies before after
  idle : after.continuationStream = 0
  others : ∀ other, other ≠ sid → after.view other = before.view other
  view : stage = .streaming → after.view sid = some (streamState sid .streaming)
  promises : after.promises = settleStream sid before.promises stage
  makes : Makes (heard f) before after

section Steps

variable {sid : Nat} {f : Frame} {connection : Http.Connection}

theorem makes_completePromise (connection : Http.Connection) (sid : Nat) :
    Makes [] connection (connection.completePromise sid) := by
  unfold Http.Connection.completePromise
  dsimp only
  split
  · exact makes_of_events rfl
  · split
    · exact (makes_of_events rfl).andThen (makes_record _ (.resume _))
    · exact makes_of_events rfl

theorem makes_applyResponseHeaders (connection : Http.Connection) (sid : Nat) (headers : Headers)
    (endStream : Bool) :
    Makes [] connection (connection.applyResponseHeaders sid headers endStream) := by
  unfold Http.Connection.applyResponseHeaders
  dsimp only
  split
  · exact (makes_of_events rfl).andThen (makes_completePromise _ sid)
  · exact makes_of_events rfl

/-- The headers with which a response begins. -/
theorem hears_headers {block : Bytes} (steady : connection.Steady)
    (stands : Http.Connection.Stands sid 0 (streamState sid .start) connection)
    (nonzero : sid ≠ 0) (begins : BeginsBlock sid true false f block)
    (decodes : Decodes block streamHeaders) :
    ∃ after, connection.processFrame Http.Connection.clientConfig f = .ok after ∧
      Hears sid f .streaming connection after := by
  obtain ⟨found, lookup, still⟩ := stands.found
  have recorded := Http.Connection.becomes_record stands (.frame f) rfl
  obtain ⟨decoder, decoded⟩ :=
    Http.Connection.decode_eq (connection.record (.frame f)) decodes
  have read := Http.Connection.becomes_decode recorded.stands block decoder
  have applied := Http.Connection.applyResponseHeaders_unfinished streamHeaders read.stands
  have all := recorded.trans (read.trans applied)
  refine ⟨_, ?_, ⟨[], nofun, all.moves.receipt steady
    (all.moves.bounded (fun _ => rfl) steady.bounded) nofun
    (load_of_type (by rw [begins.type]; decide))⟩, all.stands.continuationStream,
    all.moves.others, fun _ => all.stands.view, all.promises, ?_⟩
  · rw [← Http.Connection.receive_eq_processFrame _ steady,
      Http.Connection.receive_response _ connection begins steady.alive stands.continuationStream
        nonzero rfl lookup fun both => Bool.noConfusion both.2.2]
    rw [if_pos rfl, Http.Connection.finishBlock, decoded]
    rfl
  · rw [heard, begins.type]
    dsimp only
    rw [begins.endStream, if_neg Bool.false_ne_true]
    exact (makes_record connection (.frame f)).trans
      (makes_record (connection.record (.frame f)) (.decode block))

/-- Data goes to the callback, and the windows are updated. -/
theorem hears_data (steady : connection.Steady)
    (stands : Http.Connection.Stands sid 0 (streamState sid .streaming) connection)
    (nonzero : sid ≠ 0) (identifier : sid < 2 ^ 31) (isData : IsData sid false f) :
    ∃ after, connection.processFrame Http.Connection.clientConfig f = .ok after ∧
      Hears sid f .streaming connection after := by
  have recorded := Http.Connection.becomes_record stands (.frame f) rfl
  have called := Http.Connection.becomes_record recorded.stands
    (.dataCallback sid f.payload false) rfl
  obtain ⟨found, lookup, still⟩ := recorded.stands.found
  have callback : found.dataCb = some silent := congrArg StreamState.dataCb still
  have both := recorded.trans called
  set carried := (connection.record (.frame f)).record (.dataCallback sid f.payload false)
  obtain ⟨frames, controls, -, moves, bounded⟩ := Http.Connection.moves_updateWindows carried sid
    f.payload.length nonzero identifier (by
      show ((connection.record (.frame f)).streams sid).isSome = true
      rw [lookup]
      rfl) (both.moves.bounded (fun _ => rfl) steady.bounded) isData.short
  have keeps := @Http.Connection.keeps_updateWindows carried sid f.payload.length
  refine ⟨carried.updateWindows sid f.payload.length, ?_, ⟨frames, controls,
    (both.moves.before moves).receipt steady bounded
      (fun reply member => Http.Connection.proper_of_isControl (controls reply member))
      (load_of_isData isData)⟩, keeps.continuationStream.trans both.stands.continuationStream,
    (both.moves.before moves).others, fun _ => ?_, keeps.promises.trans both.promises, ?_⟩
  · rw [Http.Connection.processFrame_idle _ connection f stands.continuationStream, isData.type]
    dsimp only
    rw [Http.Connection.handleData, isData.streamId, if_neg nonzero, lookup,
      Http.Connection.stripPadding, if_neg (by rw [isData.padded]; decide), isData.endStream]
    dsimp only
    rw [Http.Connection.deliverData, callback]
    rfl
  · rw [Http.Connection.view_updateWindows]
    exact both.stands.view
  · rw [heard, isData.type]
    dsimp only
    rw [isData.streamId]
    exact ((makes_record connection (.frame f)).trans (makes_record (connection.record (.frame f))
      (.dataCallback sid f.payload false))).andThen (makes_updateWindows carried sid _)

/-- The trailers end the data, and they complete the promise. -/
theorem hears_trailers {block : Bytes} {trailers : Headers} (steady : connection.Steady)
    (stands : Http.Connection.Stands sid 0 (streamState sid .streaming) connection)
    (nonzero : sid ≠ 0) (begins : BeginsBlock sid true true f block)
    (decodes : Decodes block trailers) :
    ∃ after, connection.processFrame Http.Connection.clientConfig f = .ok after ∧
      Hears sid f (.done trailers) connection after := by
  have recorded := Http.Connection.becomes_record stands (.frame f) rfl
  have called := Http.Connection.becomes_record recorded.stands (.dataCallback sid [] true) rfl
  obtain ⟨found, lookup, still⟩ := recorded.stands.found
  have callback : found.dataCb = some silent := congrArg StreamState.dataCb still
  have complete : found.headersComplete = true := congrArg StreamState.headersComplete still
  have both := recorded.trans called
  set carried := (connection.record (.frame f)).record (.dataCallback sid [] true)
  obtain ⟨decoder, decoded⟩ := Http.Connection.decode_eq carried decodes
  have read := Http.Connection.becomes_decode both.stands block decoder
  have completes : Http.Connection.Completes (.caller sid) sid (streamMessage trailers) f .done
      connection _ :=
    Http.Connection.completes_block trailers steady (by rw [begins.type]; decide)
      (both.trans read) rfl rfl
  obtain ⟨replies, controls, -, receipt⟩ := completes.receipt
  refine ⟨_, ?_, ⟨replies, controls, receipt⟩, completes.continuationStream, completes.others,
    nofun, completes.promises, ?_⟩
  · rw [Http.Connection.processFrame_idle _ connection f stands.continuationStream, begins.type]
    dsimp only
    rw [Http.Connection.handleHeaders, begins.streamId, if_neg nonzero, begins.fragment]
    dsimp only
    rw [begins.endHeaders, begins.endStream]
    show Http.Connection.handleResponseHeaders _ sid block true true = _
    rw [Http.Connection.handleResponseHeaders, lookup]
    dsimp only
    rw [complete, callback]
    show carried.decode block >>= _ = _
    rw [decoded]
    rfl
  · rw [heard, begins.type]
    dsimp only
    rw [begins.endStream, begins.streamId, if_pos rfl]
    have noted := (makes_record connection (.frame f)).trans
      (makes_record (connection.record (.frame f)) (.dataCallback sid [] true))
    exact (noted.andThen (makes_record carried (.decode block))).andThen
      (makes_applyResponseHeaders _ sid trailers true)

/-- A frame of the connection leads to no call. -/
theorem makes_control (control : IsControl f) (idle : connection.continuationStream = 0)
    {after : Http.Connection}
    (run : connection.processFrame Http.Connection.clientConfig f = .ok after) :
    Makes [] connection after := by
  have recorded := makes_record connection (.frame f)
  rw [Http.Connection.processFrame_idle _ connection f idle] at run
  cases control with
  | settings =>
    rw [← Except.ok.inj run]
    exact recorded.andThen makes_handleSettings
  | ack =>
    rw [← Except.ok.inj run]
    exact recorded.andThen makes_handleSettings
  | windowUpdate =>
    rw [← Except.ok.inj run]
    exact recorded.andThen makes_handleWindowUpdate

end Steps

/-! ### All streams of a client -/

/-- The streams of a client are at these stages. -/
structure Listens (stages : Nat → StreamStage) (connection : Http.Connection) : Prop where
  steady : connection.Steady
  continuationStream : connection.continuationStream = 0
  nonzero : stages 0 = .idle
  fresh : ∀ sid, connection.nextStreamId ≤ sid → stages sid = .idle ∧ connection.view sid = none
  view : ∀ sid, stages sid = .start ∨ stages sid = .streaming →
    connection.view sid = some (streamState sid (stages sid))
  unfailed : ∀ sid, (connection.promises (.caller sid)).error = false
  waiting : ∀ sid, (connection.promises (.caller sid)).complete = true →
    ∃ trailers, stages sid = .done trailers
  completed : ∀ sid trailers, stages sid = .done trailers →
    (connection.promises (.caller sid)).complete = true ∧
      (connection.promises (.caller sid)).resp = (streamMessage trailers).response

section Listening

variable {stages : Nat → StreamStage} {connection after : Http.Connection} {sid : Nat} {f : Frame}

theorem Listens.create : Listens (fun _ => .idle) (.create .client) where
  steady := steady_create .client
  continuationStream := rfl
  nonzero := rfl
  fresh := fun _ _ => ⟨rfl, rfl⟩
  view := by
    rintro sid (wrong | wrong)
    · cases wrong
    · cases wrong
  unfailed := fun _ => rfl
  waiting := fun _ wrong => absurd wrong Bool.false_ne_true
  completed := fun _ _ wrong => StreamStage.noConfusion wrong

/-- A stream that has left the first stage is one of those that the client has opened. -/
theorem Listens.opened (listens : Listens stages connection) (busy : stages sid ≠ .idle) :
    sid ≠ 0 ∧ sid < connection.nextStreamId := by
  refine ⟨fun zero => busy (zero ▸ listens.nonzero), ?_⟩
  by_contra large
  exact busy (listens.fresh sid (not_lt.mp large)).1

theorem StreamStep.not_idle {before stage : StreamStage} (taken : StreamStep sid before f stage) :
    before ≠ .idle ∧ stage ≠ .idle ∧ stage ≠ .start := by
  cases taken <;> exact ⟨nofun, nofun, nofun⟩

/-- What a frame does to its own stream it does to none of the others. -/
theorem Listens.advance {stage : StreamStage} (listens : Listens stages connection)
    (taken : StreamStep sid (stages sid) f stage) (hears : Hears sid f stage connection after) :
    Listens (Function.update stages sid stage) after := by
  obtain ⟨busy, begun, started⟩ := taken.not_idle
  obtain ⟨nonzero, opened⟩ := listens.opened busy
  obtain ⟨replies, controls, receipt⟩ := hears.receipt
  have promises (other : Nat) (different : other ≠ sid ∨ ∀ trailers, stage ≠ .done trailers) :
      after.promises (.caller other) = connection.promises (.caller other) := by
    rw [hears.promises]
    cases stage with
    | done trailers =>
      refine if_neg fun same => ?_
      rcases different with different | unfinished
      · exact different (PromiseRef.caller.inj same)
      · exact unfinished trailers rfl
    | _ => rfl
  have settled (trailers : Headers) (done : stage = .done trailers) :
      after.promises (.caller sid) =
        { connection.promises (.caller sid) with
          resp := (streamMessage trailers).response, complete := true } := by
    rw [hears.promises, done]
    exact if_pos rfl
  refine ⟨receipt.steady, hears.idle, ?_, fun other large => ?_, fun other here => ?_,
    fun other => ?_, fun other complete => ?_, fun other trailers done => ?_⟩
  · rw [Function.update_of_ne nonzero.symm]
    exact listens.nonzero
  · rw [receipt.nextStreamId] at large
    have different : other ≠ sid := fun same => absurd opened (not_lt.mpr (same ▸ large))
    rw [Function.update_of_ne different, hears.others other different]
    exact listens.fresh other large
  · by_cases same : other = sid
    · subst same
      rw [Function.update_self] at here ⊢
      rcases here with here | here
      · exact absurd here started
      · rw [here]
        exact hears.view here
    · rw [Function.update_of_ne same] at here ⊢
      rw [hears.others other same]
      exact listens.view other here
  · by_cases same : other = sid
    · subst same
      cases stage with
      | done trailers =>
        rw [settled trailers rfl]
        exact listens.unfailed other
      | _ =>
        rw [promises other (.inr nofun)]
        exact listens.unfailed other
    · rw [promises other (.inl same)]
      exact listens.unfailed other
  · by_cases same : other = sid
    · subst same
      rw [Function.update_self]
      cases stage with
      | done trailers => exact ⟨trailers, rfl⟩
      | _ =>
        rw [promises other (.inr nofun)] at complete
        obtain ⟨trailers, done⟩ := listens.waiting other complete
        rw [done] at taken
        cases taken
    · rw [promises other (.inl same)] at complete
      rw [Function.update_of_ne same]
      exact listens.waiting other complete
  · by_cases same : other = sid
    · subst same
      rw [Function.update_self] at done
      rw [settled trailers done]
      exact ⟨rfl, rfl⟩
    · rw [Function.update_of_ne same] at done
      rw [promises other (.inl same)]
      exact listens.completed other trailers done

/-- A frame of a response is processed, and takes its stream a step on. -/
theorem Listens.hear {stage : StreamStage} (listens : Listens stages connection)
    (few : connection.nextStreamId ≤ 2 ^ 31) (taken : StreamStep sid (stages sid) f stage) :
    ∃ after, connection.processFrame Http.Connection.clientConfig f = .ok after ∧
      Hears sid f stage connection after ∧ Listens (Function.update stages sid stage) after := by
  obtain ⟨nonzero, opened⟩ := listens.opened taken.not_idle.1
  have stands (here : stages sid = .start ∨ stages sid = .streaming) :
      Http.Connection.Stands sid 0 (streamState sid (stages sid)) connection :=
    ⟨listens.view sid here, listens.continuationStream⟩
  have heard : ∃ after, connection.processFrame Http.Connection.clientConfig f = .ok after ∧
      Hears sid f stage connection after := by
    generalize before : stages sid = stage₀ at taken stands
    cases taken with
    | headers begins decodes =>
      exact hears_headers listens.steady (stands (.inl rfl)) nonzero begins decodes
    | data isData =>
      exact hears_data listens.steady (stands (.inr rfl)) nonzero (opened.trans_le few) isData
    | trailers begins decodes =>
      exact hears_trailers listens.steady (stands (.inr rfl)) nonzero begins decodes
  obtain ⟨after, run, hears⟩ := heard
  exact ⟨after, run, hears, listens.advance taken hears⟩

/-- A frame of the connection is processed, if its credit leaves room. No stream notices it. -/
theorem Listens.administer (listens : Listens stages connection) (control : IsControl f)
    (room : ∀ scope, connection.sendWindowOf scope + (f.credit scope : Int) ≤ maxWindowSize) :
    ∃ after replies, connection.processFrame Http.Connection.clientConfig f = .ok after ∧
      (∀ reply ∈ replies, IsControl reply) ∧ Http.Connection.Receipt f replies connection after ∧
      Makes [] connection after ∧ Listens stages after := by
  obtain ⟨after, run, administers⟩ := Http.Connection.receive_control
    Http.Connection.clientConfig connection control listens.steady listens.continuationStream room
  obtain ⟨replies, controls, -, receipt⟩ := administers.receipt
  have promises := administers.keeps.promises
  refine ⟨after, replies, run, controls, receipt,
    makes_control control listens.continuationStream run, receipt.steady,
    administers.keeps.continuationStream.trans listens.continuationStream, listens.nonzero,
    fun other large => ?_, fun other here => ?_, ?_, ?_, ?_⟩
  · rw [administers.view]
    exact listens.fresh other (receipt.nextStreamId ▸ large)
  · rw [administers.view]
    exact listens.view other here
  · rw [promises]
    exact listens.unfailed
  · rw [promises]
    exact listens.waiting
  · rw [promises]
    exact listens.completed

/-! ### Calls -/

/-- What `server_stream_call` does on the session: it submits its request and sets the callback of
the new stream. -/
def submitStreamCall (connection : Http.Connection) (req : Request) : Http.Connection :=
  let sid := connection.nextStreamId
  connection.commands
    [.submitRequest req (some (.caller sid)) false, .setDataCallback sid silent]

theorem Listens.submit (listens : Listens stages connection)
    (positive : connection.nextStreamId ≠ 0) (req : Request) :
    Listens (Function.update stages connection.nextStreamId .start)
      (submitStreamCall connection req) ∧
    (submitStreamCall connection req).nextStreamId = connection.nextStreamId + 2 ∧
    callsOf (submitStreamCall connection req).events = callsOf connection.events ∧
    ∀ scope, (submitStreamCall connection req).sendWindowOf scope =
      connection.sendWindowOf scope := by
  set sid := connection.nextStreamId with sidEq
  have quiet : Http.Connection.Quiet connection (submitStreamCall connection req) :=
    Http.Connection.quiet_commands connection _
  have submits := Http.Connection.moves_doSubmitRequest connection req (some (.caller sid))
  have view := Http.Connection.view_doSubmitRequest connection req (some (.caller sid))
    (listens.fresh sid le_rfl).2
  rw [← sidEq] at submits view
  set submitted := connection.doSubmitRequest req (some (.caller sid)) false
  have moves := submits.andThen (Http.Connection.moves_modifyStream submitted sid
    (fun state => { state with dataCb := some silent }) (fun _ => rfl) fun _ => rfl)
  have same : submitStreamCall connection req =
      submitted.modifyStream sid fun state => { state with dataCb := some silent } := rfl
  rw [← same] at moves
  have started : (submitStreamCall connection req).view sid = some (streamState sid .start) := by
    rw [same, Http.Connection.view_modifyStream submitted sid
      (fun state => { state with dataCb := some silent }) fun _ => rfl, view]
    rfl
  have none (scope : Nat) := credits_messageFrames scope sid connection.peerMaxFrameSize
    (requestMessage req) (connection.encoder.encode (Http.Connection.requestHeaders req)).1 []
  refine ⟨⟨moves.steady { listens.steady with } (moves.bounded none listens.steady.bounded),
    quiet.continuationStream.trans listens.continuationStream, ?_, fun other large => ?_,
    fun other here => ?_, ?_, ?_, ?_⟩, moves.nextStreamId, congrArg callsOf quiet.events,
    moves.sendWindow⟩
  · rw [Function.update_of_ne positive.symm]
    exact listens.nonzero
  · have later : sid + 2 ≤ other := moves.nextStreamId.ge.trans large
    rw [Function.update_of_ne (by omega), moves.others other (by omega)]
    exact listens.fresh other (by omega)
  · by_cases own : other = sid
    · rw [own, Function.update_self]
      exact started
    · rw [Function.update_of_ne own] at here ⊢
      rw [moves.others other own]
      exact listens.view other here
  · rw [quiet.promises]
    exact listens.unfailed
  · intro other complete
    rw [quiet.promises] at complete
    obtain ⟨trailers, done⟩ := listens.waiting other complete
    have own : other ≠ sid := by
      rintro rfl
      rw [(listens.fresh sid le_rfl).1] at done
      cases done
    rw [Function.update_of_ne own]
    exact ⟨trailers, done⟩
  · intro other trailers done
    have own : other ≠ sid := by
      rintro rfl
      rw [Function.update_self] at done
      cases done
    rw [Function.update_of_ne own] at done
    rw [quiet.promises]
    exact listens.completed other trailers done

end Listening

end AsyncNet.Grpc
