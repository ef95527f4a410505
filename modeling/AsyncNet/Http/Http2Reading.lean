/-
This file takes a session through a message frame by frame. A server that has read a
request in part has the stream that the part determines; its last frame gives the
request to the handler and sends the answer as a message. A client that has read a
response in part has the stream that the part determines; its last frame completes the
promise with the response.
-/

import AsyncNet.Http.HpackRoundTrip
import AsyncNet.Http.Http2Receive

namespace AsyncNet.Http

open H2

/-! ### Messages that can be read -/

/-- The header lists of a message are 7-bit and none of their strings is too long to be sent. -/
structure Message.Sendable (message : Message) : Prop where
  isAscii : AsciiHeaders message.headers
  fits : ∀ header ∈ message.headers, Fits header
  trailersAscii : ∀ trailers, message.trailers = some trailers → AsciiHeaders trailers
  trailersFit : ∀ trailers, message.trailers = some trailers → ∀ header ∈ trailers, Fits header

theorem decodes_reread (encoder : HpackEncoder) (headers : Headers)
    (word : encoder.maxTableSize < 2 ^ 64) (fits : ∀ header ∈ headers, Fits header) :
    Decodes (encoder.encode headers).1 (headers.map rereadHeader) := by
  intro decoder
  refine ⟨decoder.resized encoder.pendingUpdate, ?_⟩
  rw [HpackDecoder.decode, decodeBlock_reread encoder decoder headers word fits]
  rfl

theorem decodes_encode (encoder : HpackEncoder) (headers : Headers)
    (word : encoder.maxTableSize < 2 ^ 64) (isAscii : AsciiHeaders headers)
    (fits : ∀ header ∈ headers, Fits header) : Decodes (encoder.encode headers).1 headers := by
  have read := decodes_reread encoder headers word fits
  rwa [map_rereadHeader headers isAscii] at read

/-- The data of messages. -/
def bodyTotal (messages : List (Nat × Message)) : Nat :=
  (messages.map fun entry => entry.2.body.length).sum

/-- The stream whose header block is incomplete. -/
def waits (sid : Nat) : Progress → Nat
  | .headers _ => sid
  | .trailers _ => sid
  | _ => 0

/-- What happens at the end of a message only. -/
def atEnd {Result : Type} (result : Result) : Progress → List Result
  | .done => [result]
  | _ => []

theorem load_of_isData {sid : Nat} {endStream : Bool} {f : Frame} (isData : IsData sid endStream f)
    (scope : Nat) : f.load scope = if scope = 0 ∨ scope = sid then f.payload.length else 0 := by
  rw [Frame.load, isData.type, isData.streamId]
  simp only [true_and]

theorem load_of_type {f : Frame} {sid : Nat} (other : f.hdr.type ≠ .data) (scope : Nat) :
    f.load scope = if scope = 0 ∨ scope = sid then 0 else 0 := by
  rw [ite_self]
  exact if_neg fun both => other both.1

theorem loads_of_controls (scope : Nat) (frames : List Frame)
    (controls : ∀ f ∈ frames, IsControl f) : loads scope frames = 0 := by
  refine loads_of_ne scope frames fun f member => ?_
  cases controls f member <;> exact fun wrong => FrameType.noConfusion wrong

/-! ### Requests -/

/-- The request that the headers of a message make. -/
def Message.requestHead (message : Message) : Request :=
  { message.headers.foldl Connection.applyRequestHeader {} with ver := .http2 }

/-- The request that the handler is given for a message. -/
def Message.request (message : Message) : Request :=
  { message.requestHead with bd := message.body }

/-- The stream of a request that has been read in part, without its windows. -/
def serverStream (sid : Nat) (message : Message) : Progress → StreamState
  | .headers taken =>
      { Connection.opened sid with endStream := message.bare, pendingHeaderBlock := taken }
  | .body taken =>
      { Connection.opened sid with
        headersComplete := true, req := message.requestHead, body := taken }
  | _ => Connection.opened sid

/-! ### The start handler -/

/-- The calls of the request handler. -/
def Event.isRequestCall : Event → Bool
  | .requestHandler _ => true
  | _ => false

namespace Connection

/-- The start handler, if there is one, leaves a request to the request handler. -/
def Declines (start : Option StartHandler) (head : Request) : Prop :=
  ∀ offer, start = some offer → ∀ sid endStream, offer sid head endStream = (false, [])

/-- The calls of the handlers that answer requests. A start handler that leaves them to the request
handler answers none. -/
def answerCalls (start : Option StartHandler) (events : List Event) : List Event :=
  match start with
  | none => handlerCalls events
  | some _ => (handlerCalls events).filter Event.isRequestCall

/-- The start handler, if there is one, has been called and has left the request. -/
def offered (start : Option StartHandler) (sid : Nat) (endStream : Bool) (connection : Connection) :
    Connection :=
  match start with
  | none => connection
  | some _ => connection.record (.requestStartHandler sid (connection.stream sid).req endStream)

section Start

variable {start : Option StartHandler} {before after : Connection}

theorem answerCalls_congr (same : handlerCalls after.events = handlerCalls before.events) :
    answerCalls start after.events = answerCalls start before.events := by
  unfold answerCalls
  rw [same]

theorem Calls.answerCalls {req : Request} (called : Calls [.requestHandler req] before after) :
    answerCalls start after.events = answerCalls start before.events ++ [.requestHandler req] := by
  have both : handlerCalls after.events = handlerCalls before.events ++ _ := called
  unfold Connection.answerCalls
  cases start with
  | none => exact both
  | some _ =>
    dsimp only
    rw [both, List.filter_append]
    rfl

variable {sid : Nat} {state : StreamState}

theorem moves_offered (start : Option StartHandler) (sid : Nat) (endStream : Bool)
    (connection : Connection) :
    Moves sid 0 [] connection (connection.offered start sid endStream) := by
  cases start with
  | none => exact Moves.refl sid connection
  | some _ => exact moves_record connection sid _

theorem Stands.offered (start : Option StartHandler) (endStream : Bool)
    (stands : Stands sid 0 state before) :
    Stands sid 0 state (before.offered start sid endStream) := by
  cases start with
  | none => exact stands
  | some _ => exact { stands with }

theorem answerCalls_offered (start : Option StartHandler) (sid : Nat) (endStream : Bool)
    (connection : Connection) :
    answerCalls start (connection.offered start sid endStream).events =
      answerCalls start connection.events := by
  cases start with
  | none => rfl
  | some _ =>
    have called : handlerCalls (connection.record _).events = _ :=
      calls_record connection (.requestStartHandler sid (connection.stream sid).req endStream)
    show (handlerCalls (connection.record _).events).filter Event.isRequestCall = _
    rw [called, List.filter_append]
    exact List.append_nil _

theorem callRequestStartHandler_declines {offer : StartHandler} (endStream : Bool)
    (declines : Declines (some offer) (before.stream sid).req) :
    before.callRequestStartHandler offer sid endStream =
      (false, before.offered (some offer) sid endStream) := by
  unfold callRequestStartHandler
  dsimp only
  rw [declines offer rfl sid endStream]
  rfl

end Start

/-! ### Requests that are read -/

/-- The frames of a response, in whatever state the encoder is. -/
def ResponseFrames (sid : Nat) (resp : Response) (frames : List Frame) : Prop :=
  ∃ encoder later : HpackEncoder, encoder.maxTableSize < 2 ^ 64 ∧ later.maxTableSize < 2 ^ 64 ∧
    frames = messageFrames sid 16384 (responseMessage resp) (encoder.encode (responseHeaders resp)).1
      (later.encode (copiedHeaders [] resp.trailers)).1

/-- A frame has taken a server to a point of a request. At the end the handler has been called and
its response has been sent, whether it can be read or not. -/
structure Hears (handler : Request → Response) (start : Option StartHandler) (sid : Nat)
    (message : Message) (f : Frame) (progress : Progress) (before after : Connection) : Prop where
  receipt : ∃ controls response, Receipt f (controls ++ response) before after ∧
    (∀ reply ∈ controls, IsControl reply) ∧
    (progress = .done → ResponseFrames sid (handler message.request) response) ∧
    (progress ≠ .done → response = [] ∧ efforts controls < f.effort)
  calls : answerCalls start after.events =
    answerCalls start before.events ++ atEnd (.requestHandler message.request) progress
  view : progress ≠ .done → after.view sid = some (serverStream sid message progress)
  continuationStream : after.continuationStream = waits sid progress
  others : ∀ other, other ≠ sid → after.view other = before.view other

/-- A frame has taken a server to a point of a request. At the end the handler has been called and
its response has been sent as a message. -/
structure Serves (handler : Request → Response) (start : Option StartHandler) (sid : Nat)
    (message : Message) (f : Frame) (progress : Progress) (before after : Connection) : Prop where
  receipt : ∃ replies, Receipt f replies before after ∧
    Spells none replies (atEnd (sid, responseMessage (handler message.request)) progress) ∧
    (∀ scope, loads scope replies ≤
      bodyTotal (atEnd (sid, responseMessage (handler message.request)) progress)) ∧
    (progress ≠ .done → efforts replies < f.effort)
  calls : answerCalls start after.events =
    answerCalls start before.events ++ atEnd (.requestHandler message.request) progress
  view : progress ≠ .done → after.view sid = some (serverStream sid message progress)
  continuationStream : after.continuationStream = waits sid progress
  others : ∀ other, other ≠ sid → after.view other = before.view other

section Server

variable {handler : Request → Response} {start : Option StartHandler}
  {connection prepared : Connection} {sid : Nat} {message : Message} {f : Frame}
  {progress : Progress}

theorem atEnd_of_ne_done {Result : Type} (result : Result) (unfinished : progress ≠ .done) :
    atEnd result progress = [] := by
  cases progress with
  | done => exact absurd rfl unfinished
  | _ => rfl

/-- The frames of a response that can be sent spell it out. -/
theorem ResponseFrames.spells {resp : Response} {frames : List Frame}
    (response : ResponseFrames sid resp frames) (sendable : (responseMessage resp).Sendable) :
    Spells none frames [(sid, responseMessage resp)] := by
  obtain ⟨encoder, later, word, word', rfl⟩ := response
  refine spells_messageFrames (by decide) le_rfl _ _ _
    (decodes_encode _ _ word sendable.isAscii sendable.fits) ?_
  intro trailers given
  have trailersEq : copiedHeaders [] resp.trailers = trailers := by
    unfold responseMessage at given
    dsimp only at given
    split at given
    · exact absurd given (Option.some_ne_none trailers).symm
    · exact Option.some.inj given
  rw [trailersEq]
  exact decodes_encode _ _ word' (sendable.trailersAscii trailers given)
    (sendable.trailersFit trailers given)

theorem Hears.serves {after : Connection}
    (hears : Hears handler start sid message f progress connection after)
    (sendable : (responseMessage (handler message.request)).Sendable) :
    Serves handler start sid message f progress connection after := by
  obtain ⟨controls, response, receipt, isControl, ends, goesOn⟩ := hears.receipt
  refine ⟨⟨controls ++ response, receipt, ?_⟩, hears.calls, hears.view,
    hears.continuationStream, hears.others⟩
  by_cases done : progress = .done
  · subst done
    obtain ⟨encoder, later, word, word', rfl⟩ := ends rfl
    refine ⟨(Spells.of_controls controls isControl).append
      (ResponseFrames.spells ⟨encoder, later, word, word', rfl⟩ sendable), fun scope => ?_,
      fun wrong => absurd rfl wrong⟩
    rw [loads_append, loads_of_controls scope controls isControl, Nat.zero_add]
    exact loads_messageFrames_le scope sid 16384 _ _ _
  · obtain ⟨rfl, less⟩ := goesOn done
    rw [List.append_nil, atEnd_of_ne_done _ done]
    refine ⟨Spells.of_controls controls isControl, fun scope => ?_, fun _ => less⟩
    rw [loads_of_controls scope controls isControl]
    exact Nat.zero_le _

theorem hears_before_end {taken : Nat} {frames : List Frame} (steady : Steady connection)
    (moves : Moves sid taken frames connection prepared) (bounded : Bounded prepared)
    (controls : ∀ reply ∈ frames, IsControl reply) (less : efforts frames < f.effort)
    (load : ∀ scope, f.load scope = if scope = 0 ∨ scope = sid then taken else 0)
    (calls : answerCalls start prepared.events = answerCalls start connection.events)
    (stands : Stands sid (waits sid progress) (serverStream sid message progress) prepared)
    (unfinished : progress ≠ .done) : Hears handler start sid message f progress connection
      prepared := by
  have receipt := moves.receipt steady bounded
    (fun reply member => proper_of_isControl (controls reply member)) load
  refine ⟨⟨frames, [], ?_, controls, fun wrong => absurd wrong unfinished, fun _ => ⟨rfl, less⟩⟩,
    ?_, fun _ => stands.view, stands.continuationStream, moves.others⟩
  · rw [List.append_nil]
    exact receipt
  · rw [atEnd_of_ne_done _ unfinished]
    exact calls.trans (List.append_nil _).symm

/-- The request is complete and the handler answers it. -/
theorem hears_end {taken : Nat} {frames : List Frame} {state : StreamState}
    (steady : Steady connection) (identifier : sid < 2 ^ 31)
    (moves : Moves sid taken frames connection prepared) (bounded : Bounded prepared)
    (controls : ∀ reply ∈ frames, IsControl reply)
    (load : ∀ scope, f.load scope = if scope = 0 ∨ scope = sid then taken else 0)
    (calls : answerCalls start prepared.events = answerCalls start connection.events)
    (stands : Stands sid 0 state prepared)
    (complete : { state.req with bd := state.body } = message.request) :
    Hears handler start sid message f .done connection
      (prepared.dispatchRequest (serverConfig handler start) sid) := by
  have steady' := moves.steady steady bounded
  obtain ⟨response, encoder, word, spelled, sends, called, idle⟩ :=
    dispatchRequest_eq handler start steady' stands
  rw [complete] at spelled called
  have silent : ∀ scope, credits scope response = 0 := fun scope => by
    rw [spelled, credits_messageFrames]
  have all : Moves sid taken (frames ++ response) connection _ := moves.trans sends
  refine ⟨⟨frames, response, all.receipt steady (sends.bounded silent bounded)
    (fun reply member => ?_) load, controls, fun _ => ?_, fun wrong => absurd rfl wrong⟩, ?_,
    fun wrong => absurd rfl wrong, idle, all.others⟩
  · rcases List.mem_append.mp member with control | answer
    · exact proper_of_isControl (controls reply control)
    · rw [spelled] at answer
      exact proper_messageFrames sid 16384 _ _ _ identifier (by decide) reply answer
  · exact ⟨_, encoder, steady'.maxTableSize, word, spelled⟩
  · rw [called.answerCalls, calls]
    rfl

/-- The request that the headers of a message have made. -/
theorem becomes_headers {state : StreamState} (headers : Headers)
    (stands : Stands sid 0 state connection) :
    Becomes sid 0 { state with
        headersComplete := true
        req := { headers.foldl applyRequestHeader state.req with ver := .http2 } } connection
      (connection.modifyStream sid fun state =>
        { state with
          headersComplete := true
          req := { headers.foldl applyRequestHeader state.req with ver := .http2 } }) :=
  becomes_modifyStream stands (fun state =>
    { state with
      headersComplete := true
      req := { headers.foldl applyRequestHeader state.req with ver := .http2 } })
    (fun _ => rfl) (fun _ => rfl) fun _ => rfl

/-- The header block of a request is complete. -/
theorem hears_headers {state : StreamState} (steady : Steady connection)
    (identifier : sid < 2 ^ 31)
    (other : f.hdr.type ≠ .data) (becomes : Becomes sid 0 state connection prepared)
    (fresh : state = { opened sid with endStream := state.endStream })
    (ends : message.bare = false → state.endStream = false)
    (declines : Declines start message.requestHead) :
    Hears handler start sid message f message.afterHeaders connection
      (prepared.applyBlock (serverConfig handler start) sid message.headers message.bare) := by
  have applied := becomes_headers message.headers becomes.stands
  have grown := becomes.trans applied
  set read := prepared.modifyStream sid fun state =>
    { state with
      headersComplete := true
      req := { message.headers.foldl applyRequestHeader state.req with ver := .http2 } } with readEq
  have head : { message.headers.foldl applyRequestHeader state.req with ver := .http2 } =
      message.requestHead := by
    rw [fresh]
    rfl
  unfold Message.afterHeaders
  cases bare : message.bare with
  | false =>
    have state' : { state with
        headersComplete := true
        req := { message.headers.foldl applyRequestHeader state.req with ver := .http2 } } =
          serverStream sid message (.body []) := by
      rw [fresh, ends bare]
      rfl
    rw [state'] at grown
    have shape : prepared.applyBlock (serverConfig handler start) sid message.headers false =
        read.offered start sid false := by
      cases start with
      | none => rfl
      | some offer =>
        have req : (read.stream sid).req = message.requestHead :=
          congrArg StreamState.req grown.stands.still_stream
        have called := callRequestStartHandler_declines false (req ▸ declines)
        exact congrArg Prod.snd called
    rw [shape]
    have all := grown.moves.trans (moves_offered start sid false read)
    exact hears_before_end steady all (all.bounded (fun _ => rfl) steady.bounded)
      (fun reply member => absurd member List.not_mem_nil) (effort_pos f)
        (load_of_type other)
      ((answerCalls_offered start sid false read).trans (answerCalls_congr grown.calls))
      (grown.stands.offered start false) fun wrong => Progress.noConfusion wrong
  | true =>
    have marked := becomes_modifyStream grown.stands (fun state => { state with endStream := true })
      (fun _ => rfl) (fun _ => rfl) fun _ => rfl
    set ended := read.modifyStream sid fun state => { state with endStream := true } with endedEq
    have both := grown.trans marked
    have body : message.body = [] := by
      rw [Message.bare, Bool.and_eq_true] at bare
      exact List.isEmpty_iff.mp bare.1
    have shape : prepared.applyBlock (serverConfig handler start) sid message.headers true =
        (ended.offered start sid true).dispatchRequest (serverConfig handler start) sid := by
      cases start with
      | none => rfl
      | some offer =>
        have req : (ended.stream sid).req = message.requestHead :=
          (congrArg StreamState.req both.stands.still_stream).trans head
        have called := callRequestStartHandler_declines true (req ▸ declines)
        exact congrArg (fun answer : Bool × Connection =>
          if answer.1 then answer.2
          else answer.2.dispatchRequest (serverConfig handler (some offer)) sid) called
    rw [shape]
    have all := both.moves.trans (moves_offered start sid true ended)
    refine hears_end steady identifier all (all.bounded (fun _ => rfl) steady.bounded)
      (fun reply member => absurd member List.not_mem_nil) (load_of_type other)
      ((answerCalls_offered start sid true ended).trans (answerCalls_congr both.calls))
      (both.stands.offered start true) ?_
    rw [fresh, Message.request, body]
    rfl

/-- A frame of a request takes a server a step on. -/
theorem hears_advance {progress progress' : Progress}
    (advance : Advance sid message progress f progress') (single : message.trailers = none)
    (steady : Steady connection) (nonzero : sid ≠ 0) (identifier : sid < 2 ^ 31)
    (absent : progress = .start → connection.view sid = none)
    (present : progress ≠ .start → connection.view sid = some (serverStream sid message progress))
    (waiting : connection.continuationStream = waits sid progress)
    (declines : Declines start message.requestHead) :
    ∃ after, connection.processFrame (serverConfig handler start) f = .ok after ∧
      Hears handler start sid message f progress' connection after := by
  have noTrailers {trailers : Headers} (given : message.trailers = some trailers) : False :=
    absurd (single.symm.trans given) (Option.some_ne_none trailers).symm
  have notData {type : FrameType} (is : f.hdr.type = type) (other : type ≠ .data) :
      f.hdr.type ≠ .data := is ▸ other
  cases advance with
  | headersWhole begins decodes =>
    obtain ⟨prepared, opens, run⟩ := processFrame_request (serverConfig handler start) steady
      (absent rfl) waiting nonzero rfl begins
    obtain ⟨read, finished, reads⟩ := finishBlock_eq (serverConfig handler start) message.bare
      opens.stands decodes
    refine ⟨_, run.trans finished, ?_⟩
    exact hears_headers steady identifier (notData begins.type (by decide)) (opens.trans reads) rfl
      (fun _ => rfl) declines
  | @headersBegin f fragment begins =>
    obtain ⟨prepared, opens, run⟩ := processFrame_request (serverConfig handler start) steady
      (absent rfl) waiting nonzero rfl begins
    have awaits := opens.trans (becomes_awaitContinuation opens.stands fragment message.bare)
    refine ⟨_, run, ?_⟩
    exact hears_before_end steady awaits.moves
      (awaits.moves.bounded (fun _ => rfl) steady.bounded)
      (fun reply member => absurd member List.not_mem_nil) (effort_pos f)
      (load_of_type (notData begins.type (by decide))) (answerCalls_congr awaits.calls)
      awaits.stands
      fun wrong => Progress.noConfusion wrong
  | headersMore continues =>
    have stands : Stands sid sid _ connection :=
      ⟨present fun wrong => Progress.noConfusion wrong, waiting⟩
    obtain ⟨after, run, becomes⟩ := processFrame_more (serverConfig handler start) stands
      nonzero continues
    refine ⟨after, run, ?_⟩
    exact hears_before_end steady becomes.moves
      (becomes.moves.bounded (fun _ => rfl) steady.bounded)
      (fun reply member => absurd member List.not_mem_nil) (effort_pos f)
      (load_of_type (notData continues.type (by decide))) (answerCalls_congr becomes.calls)
      becomes.stands
      fun wrong => Progress.noConfusion wrong
  | headersLast continues decodes =>
    have stands : Stands sid sid _ connection :=
      ⟨present fun wrong => Progress.noConfusion wrong, waiting⟩
    obtain ⟨prepared, run, becomes⟩ := processFrame_last (serverConfig handler start) stands
      nonzero continues decodes
    refine ⟨_, run, ?_⟩
    exact hears_headers steady identifier (notData continues.type (by decide)) becomes rfl
      (fun more => more) declines
  | data isData =>
    have stands : Stands sid 0 _ connection :=
      ⟨present fun wrong => Progress.noConfusion wrong, waiting⟩
    obtain ⟨after, frames, run, controls, less, moves, bounded, keeps, stands'⟩ :=
      processFrame_data (serverConfig handler start) steady stands nonzero identifier rfl isData
    refine ⟨after, run, ?_⟩
    exact hears_before_end steady moves bounded controls less
      (load_of_isData isData) (answerCalls_congr keeps.calls) stands'
      fun wrong => Progress.noConfusion wrong
  | @dataLast f taken isData complete last =>
    have stands : Stands sid 0 _ connection :=
      ⟨present fun wrong => Progress.noConfusion wrong, waiting⟩
    obtain ⟨read, frames, run, controls, less, moves, bounded, keeps, stands'⟩ :=
      processFrame_data (serverConfig handler start) steady stands nonzero identifier rfl isData
    have marked := becomes_modifyStream stands' (fun state => { state with endStream := true })
      (fun _ => rfl) (fun _ => rfl) fun _ => rfl
    set ended := read.modifyStream sid fun state => { state with endStream := true } with endedEq
    have unhandled : (ended.stream sid).streamingHandled = false :=
      congrArg StreamState.streamingHandled marked.stands.still_stream
    have dispatched : read.endData (serverConfig handler start) sid =
        ended.dispatchRequest (serverConfig handler start) sid := by
      rw [endData, if_pos (show (serverConfig handler start).mode = .server from rfl), ← endedEq,
        if_neg (by rw [unhandled]; decide)]
    refine ⟨_, run.trans (congrArg Except.ok dispatched), ?_⟩
    refine hears_end steady identifier (moves.andThen marked.moves)
      (marked.moves.bounded (fun _ => rfl) bounded) controls (load_of_isData isData)
      (answerCalls_congr (marked.calls.trans keeps.calls)) marked.stands ?_
    show { message.requestHead with bd := taken ++ f.payload } = message.request
    rw [complete]
    rfl
  | trailersWhole given => exact (noTrailers given).elim
  | trailersBegin given => exact (noTrailers given).elim
  | trailersMore given => exact (noTrailers given).elim
  | trailersLast given => exact (noTrailers given).elim

end Server

end Connection

/-! ### Responses -/

/-- The response that the headers of a message make. -/
def Message.responseHead (message : Message) : Response :=
  { message.headers.foldl Connection.applyResponseHeader {} with ver := .http2 }

/-- The response that the promise is given for a message. -/
def Message.response (message : Message) : Response :=
  match message.trailers with
  | none => { message.responseHead with bd := message.body }
  | some trailers =>
      { trailers.foldl Connection.applyResponseHeader message.responseHead with
        ver := .http2
        bd := message.body }

/-- The stream of a request that waits for its response. -/
def awaiting (sid : Nat) (ref : PromiseRef) : StreamState :=
  { Connection.opened sid with promise := some ref }

/-- The stream of a response that has been read in part, without its windows. -/
def clientStream (sid : Nat) (ref : PromiseRef) (message : Message) : Progress → StreamState
  | .headers taken =>
      { awaiting sid ref with endStream := message.bare, pendingHeaderBlock := taken }
  | .body taken =>
      { awaiting sid ref with
        headersComplete := true, resp := message.responseHead, body := taken }
  | .trailers taken =>
      { awaiting sid ref with
        headersComplete := true
        resp := message.responseHead
        body := message.body
        endStream := true
        pendingHeaderBlock := taken }
  | _ => awaiting sid ref

/-- The promises when a message has been read up to a point: at its end, its own is completed. -/
def settle (ref : PromiseRef) (resp : Response) (promises : PromiseRef → ResponsePromise) :
    Progress → PromiseRef → ResponsePromise
  | .done => fun other =>
      if other = ref then { promises ref with resp := resp, complete := true } else promises other
  | _ => promises

namespace Connection

/-- A frame has taken a client to a point of a response. At the end the promise is completed. -/
structure Completes (ref : PromiseRef) (sid : Nat) (message : Message) (f : Frame)
    (progress : Progress) (before after : Connection) : Prop where
  receipt : ∃ replies, (∀ reply ∈ replies, IsControl reply) ∧ efforts replies < f.effort ∧
    Receipt f replies before after
  promises : after.promises = settle ref message.response before.promises progress
  view : progress ≠ .done → after.view sid = some (clientStream sid ref message progress)
  continuationStream : after.continuationStream = waits sid progress
  others : ∀ other, other ≠ sid → after.view other = before.view other

section Client

variable {ref : PromiseRef} {connection prepared : Connection} {sid : Nat} {message : Message}
  {f : Frame} {progress : Progress}

theorem completes_before_end {taken : Nat} {frames : List Frame} (steady : Steady connection)
    (moves : Moves sid taken frames connection prepared) (bounded : Bounded prepared)
    (controls : ∀ reply ∈ frames, IsControl reply) (less : efforts frames < f.effort)
    (load : ∀ scope, f.load scope = if scope = 0 ∨ scope = sid then taken else 0)
    (promises : prepared.promises = connection.promises)
    (stands : Stands sid (waits sid progress) (clientStream sid ref message progress) prepared)
    (unfinished : progress ≠ .done) :
    Completes ref sid message f progress connection prepared where
  receipt := ⟨frames, controls, less, moves.receipt steady bounded
    (fun reply member => proper_of_isControl (controls reply member)) load⟩
  promises := by
    cases progress with
    | done => exact absurd rfl unfinished
    | _ => exact promises
  view := fun _ => stands.view
  continuationStream := stands.continuationStream
  others := moves.others

/-- The same for a frame without data, which is answered by nothing. -/
theorem completes_becomes (steady : Steady connection) (other : f.hdr.type ≠ .data)
    (becomes : Becomes sid (waits sid progress) (clientStream sid ref message progress) connection
      prepared)
    (unfinished : progress ≠ .done) : Completes ref sid message f progress connection prepared :=
  completes_before_end steady becomes.moves (becomes.moves.bounded (fun _ => rfl) steady.bounded)
    (fun _ member => absurd member List.not_mem_nil) (effort_pos f) (load_of_type other)
    becomes.promises becomes.stands unfinished

/-- The response is complete and the promise is given it. -/
theorem completes_end {taken : Nat} {frames : List Frame} {state : StreamState}
    (steady : Steady connection) (moves : Moves sid taken frames connection prepared)
    (bounded : Bounded prepared) (controls : ∀ reply ∈ frames, IsControl reply)
    (less : efforts frames < f.effort)
    (load : ∀ scope, f.load scope = if scope = 0 ∨ scope = sid then taken else 0)
    (promises : prepared.promises = connection.promises) (stands : Stands sid 0 state prepared)
    (owned : state.promise = some ref)
    (complete : { state.resp with bd := state.body } = message.response) :
    Completes ref sid message f .done connection (prepared.completePromise sid) := by
  obtain ⟨completes, idle, settled⟩ := completePromise_eq stands owned
  have all : Moves sid taken frames connection _ := moves.andThen completes
  refine ⟨⟨frames, controls, less, all.receipt steady (completes.bounded (fun _ => rfl) bounded)
    (fun reply member => proper_of_isControl (controls reply member)) load⟩, ?_,
    fun wrong => absurd rfl wrong, idle, all.others⟩
  rw [settled, promises, complete]
  rfl

theorem applyResponseHeaders_unfinished {state : StreamState} (headers : Headers)
    (stands : Stands sid 0 state connection) :
    Becomes sid 0 { state with
        headersComplete := true
        resp := { headers.foldl applyResponseHeader state.resp with ver := .http2 } } connection
      (connection.applyResponseHeaders sid headers false) :=
  becomes_modifyStream stands (fun state =>
    { state with
      headersComplete := true
      resp := { headers.foldl applyResponseHeader state.resp with ver := .http2 } })
    (fun _ => rfl) (fun _ => rfl) fun _ => rfl

/-- A header block that ends the stream completes the promise. -/
theorem completes_block {state : StreamState} (headers : Headers) (steady : Steady connection)
    (other : f.hdr.type ≠ .data) (becomes : Becomes sid 0 state connection prepared)
    (owned : state.promise = some ref)
    (complete : { headers.foldl applyResponseHeader state.resp with
      ver := .http2, bd := state.body } = message.response) :
    Completes ref sid message f .done connection
      (prepared.applyResponseHeaders sid headers true) := by
  have applied := applyResponseHeaders_unfinished headers becomes.stands
  have marked := becomes_modifyStream applied.stands (fun state => { state with endStream := true })
    (fun _ => rfl) (fun _ => rfl) fun _ => rfl
  have all := becomes.trans (applied.trans marked)
  exact completes_end steady all.moves (all.moves.bounded (fun _ => rfl) steady.bounded)
    (fun reply member => absurd member List.not_mem_nil) (effort_pos f)
      (load_of_type other) all.promises
    all.stands owned complete

/-- The header block of a response is complete. -/
theorem completes_headers {state : StreamState} (steady : Steady connection)
    (other : f.hdr.type ≠ .data) (becomes : Becomes sid 0 state connection prepared)
    (fresh : state = { awaiting sid ref with endStream := state.endStream })
    (ends : message.bare = false → state.endStream = false) :
    Completes ref sid message f message.afterHeaders connection
      (prepared.applyBlock clientConfig sid message.headers message.bare) := by
  unfold Message.afterHeaders
  cases bare : message.bare with
  | false =>
    have grown := becomes.trans (applyResponseHeaders_unfinished message.headers becomes.stands)
    have state' : { state with
        headersComplete := true
        resp := { message.headers.foldl applyResponseHeader state.resp with ver := .http2 } } =
          clientStream sid ref message (.body []) := by
      rw [fresh, ends bare]
      rfl
    rw [state'] at grown
    exact completes_becomes steady other grown fun wrong => Progress.noConfusion wrong
  | true =>
    rw [Message.bare, Bool.and_eq_true] at bare
    have body : message.body = [] := List.isEmpty_iff.mp bare.1
    have trailers : message.trailers = none := Option.isNone_iff_eq_none.mp bare.2
    refine completes_block message.headers steady other becomes (by rw [fresh]; rfl) ?_
    rw [fresh, Message.response, trailers, body]
    rfl

/-- A frame of a response takes a client a step on. -/
theorem completes_advance {progress progress' : Progress}
    (advance : Advance sid message progress f progress') (steady : Steady connection)
    (nonzero : sid ≠ 0) (identifier : sid < 2 ^ 31)
    (present : connection.view sid = some (clientStream sid ref message progress))
    (waiting : connection.continuationStream = waits sid progress) :
    ∃ after, connection.processFrame clientConfig f = .ok after ∧
      Completes ref sid message f progress' connection after := by
  have notData {type : FrameType} (is : f.hdr.type = type) (other : type ≠ .data) :
      f.hdr.type ≠ .data := is ▸ other
  have stands : Stands sid _ _ connection := ⟨present, waiting⟩
  cases advance with
  | headersWhole begins decodes =>
    obtain ⟨prepared, becomes, run⟩ := processFrame_response clientConfig steady stands nonzero rfl
      rfl begins
    obtain ⟨read, finished, reads⟩ := finishBlock_eq clientConfig message.bare
      becomes.stands decodes
    refine ⟨_, run.trans finished, ?_⟩
    exact completes_headers steady (notData begins.type (by decide)) (becomes.trans reads) rfl
      fun _ => rfl
  | @headersBegin f fragment begins =>
    obtain ⟨prepared, becomes, run⟩ := processFrame_response clientConfig steady stands nonzero rfl
      rfl begins
    have awaits := becomes.trans (becomes_awaitContinuation becomes.stands fragment message.bare)
    refine ⟨_, run, ?_⟩
    exact completes_becomes steady (notData begins.type (by decide)) awaits
      fun wrong => Progress.noConfusion wrong
  | headersMore continues =>
    obtain ⟨after, run, becomes⟩ := processFrame_more clientConfig stands nonzero continues
    refine ⟨after, run, ?_⟩
    exact completes_becomes steady (notData continues.type (by decide)) becomes
      fun wrong => Progress.noConfusion wrong
  | headersLast continues decodes =>
    obtain ⟨prepared, run, becomes⟩ := processFrame_last clientConfig stands nonzero continues
      decodes
    refine ⟨_, run, ?_⟩
    exact completes_headers steady (notData continues.type (by decide)) becomes rfl fun more => more
  | data isData =>
    obtain ⟨after, frames, run, controls, less, moves, bounded, keeps, stands'⟩ :=
      processFrame_data clientConfig steady stands nonzero identifier rfl isData
    refine ⟨after, run, ?_⟩
    exact completes_before_end steady moves bounded controls less
      (load_of_isData isData) keeps.promises
      stands' fun wrong => Progress.noConfusion wrong
  | @dataLast f taken isData complete last =>
    obtain ⟨read, frames, run, controls, less, moves, bounded, keeps, stands'⟩ :=
      processFrame_data clientConfig steady stands nonzero identifier rfl isData
    have marked := becomes_modifyStream stands' (fun state => { state with endStream := true })
      (fun _ => rfl) (fun _ => rfl) fun _ => rfl
    refine ⟨_, run, ?_⟩
    refine completes_end steady (moves.andThen marked.moves)
      (marked.moves.bounded (fun _ => rfl) bounded) controls less (load_of_isData isData)
      (marked.promises.trans keeps.promises) marked.stands rfl ?_
    show { message.responseHead with bd := taken ++ f.payload } = message.response
    rw [complete, Message.response, last]
  | @trailersWhole f block trailers given begins decodes =>
    obtain ⟨prepared, becomes, run⟩ := processFrame_response clientConfig steady stands nonzero rfl
      rfl begins
    obtain ⟨read, finished, reads⟩ := finishBlock_eq clientConfig true becomes.stands decodes
    refine ⟨_, run.trans finished, ?_⟩
    refine completes_block trailers steady (notData begins.type (by decide)) (becomes.trans reads)
      rfl ?_
    rw [Message.response, given]
    rfl
  | @trailersBegin f fragment trailers given begins =>
    obtain ⟨prepared, becomes, run⟩ := processFrame_response clientConfig steady stands nonzero rfl
      rfl begins
    have awaits := becomes.trans (becomes_awaitContinuation becomes.stands fragment true)
    refine ⟨_, run, ?_⟩
    exact completes_becomes steady (notData begins.type (by decide)) awaits
      fun wrong => Progress.noConfusion wrong
  | trailersMore given continues =>
    obtain ⟨after, run, becomes⟩ := processFrame_more clientConfig stands nonzero continues
    refine ⟨after, run, ?_⟩
    exact completes_becomes steady (notData continues.type (by decide)) becomes
      fun wrong => Progress.noConfusion wrong
  | @trailersLast f taken trailers given continues decodes =>
    obtain ⟨prepared, run, becomes⟩ := processFrame_last clientConfig stands nonzero continues
      decodes
    refine ⟨_, run, ?_⟩
    refine completes_block trailers steady (notData continues.type (by decide)) becomes rfl ?_
    rw [Message.response, given]
    rfl

end Client

end Connection

end AsyncNet.Http
