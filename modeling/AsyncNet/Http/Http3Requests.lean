/-
This file proves that the request stream of an HTTP/3 server can come in any pieces. For a
stream of a HEADERS frame and DATA frames, with frames of other types anywhere, the request
handler is called once, when the stream ends, with the request that one delivery of all of it
gives, if and only if the field section can be decoded: a string whose length wraps the check
of its bounds makes the decoder throw.
-/

import AsyncNet.Http.H3Reader
import AsyncNet.Http.Http3Session
import AsyncNet.Library.Runs

namespace AsyncNet.Http.H3

open H2

/-! ### Frames on the wire -/

/-- A frame as a peer sends it: the integers for its type and its length may be encoded in any of
their forms. -/
structure WireFrame where
  frame : Frame
  typeBytes : Bytes
  lengthBytes : Bytes
  code : Nat
  isCode : decodeVarint typeBytes = some (code, typeBytes.length)
  isType : FrameType.ofCode code = frame.type
  isLength : decodeVarint lengthBytes = some (frame.payload.length, lengthBytes.length)

def WireFrame.bytes (sent : WireFrame) : Bytes :=
  sent.typeBytes ++ (sent.lengthBytes ++ sent.frame.payload)

theorem decodeVarint_length {bytes : Bytes} {value : Nat}
    (decoded : decodeVarint bytes = some (value, bytes.length)) :
    varintLength (bytes.getD 0 0) = bytes.length := (decodeVarint_consumed decoded).symm

theorem ne_nil_of_decodeVarint {bytes : Bytes} {value : Nat}
    (decoded : decodeVarint bytes = some (value, bytes.length)) : bytes ≠ [] := by
  have positive := varintLength_pos (bytes.getD 0 0)
  rintro rfl
  rw [decodeVarint_length decoded] at positive
  cases positive

theorem WireFrame.bytes_ne_nil (sent : WireFrame) : sent.bytes ≠ [] :=
  List.append_ne_nil_of_left_ne_nil (ne_nil_of_decodeVarint sent.isCode) _

namespace FrameReader

/-- A reader between two frames; one without a payload is pending until the next byte comes. -/
structure Ready (reader : FrameReader) (pending : List Frame) : Prop where
  varint : reader.varintBytesExpected = 0
  between : reader.state = .readType ∧ pending = [] ∨
    reader.state = .readPayload ∧ reader.currentLength = 0 ∧ reader.payloadBuf = [] ∧
      pending = [⟨reader.currentType, []⟩]

/-- An integer at the front of the data. -/
theorem feedPass_integer {reader : FrameReader} (fresh : reader.varintBytesExpected = 0)
    (integer : reader.state = .readType ∨ reader.state = .readLength) {bytes : Bytes} {value : Nat}
    (decoded : decodeVarint bytes = some (value, bytes.length)) (rest : Bytes) :
    reader.feedPass (bytes ++ rest) =
      (({ reader with varintBuf := [], varintBytesExpected := 0 } : FrameReader).advance value,
        rest) := by
  have length := decodeVarint_length decoded
  have some := ne_nil_of_decodeVarint decoded
  have waits : reader.Waits := ⟨fun began => absurd fresh began, fun payload => by
    rw [payload] at integer
    obtain other | other := integer <;> cases other⟩
  have held : reader.held = [] := if_pos fresh
  have expected : reader.expected (bytes ++ rest) = bytes.length := by
    rw [expected_append rest some, FrameReader.expected, if_pos fresh, length]
  rw [feedPass_varint integer,
    feedVarint_enough waits _ (by rw [expected, List.length_append]; omega), held, expected,
    List.length_nil, Nat.sub_zero, List.take_left, List.nil_append, decoded, List.drop_left]
  rfl

theorem advance_readType {reader : FrameReader} (state : reader.state = .readType) (value : Nat) :
    reader.advance value =
      { reader with currentType := .ofCode value, state := .readLength } := by
  unfold advance
  rw [state]

theorem advance_readLength {reader : FrameReader} (state : reader.state = .readLength)
    (value : Nat) :
    reader.advance value =
      { reader with currentLength := value, payloadBuf := [], state := .readPayload } := by
  unfold advance
  rw [state]

/-- The payload at the front of the data, of which the reader has nothing yet. -/
theorem scan_payload {reader : FrameReader} (fresh : reader.varintBytesExpected = 0)
    (state : reader.state = .readPayload) (none : reader.payloadBuf = []) (payload : Bytes)
    (length : reader.currentLength = payload.length) :
    ∃ final frames pending, Scan reader payload final frames ∧ final.Ready pending ∧
      frames ++ pending = [⟨reader.currentType, payload⟩] ∧ (payload = [] → pending ≠ []) := by
  have incomplete : reader.state ≠ .complete := by
    rw [state]
    nofun
  by_cases empty : payload = []
  · subst empty
    exact ⟨reader, [], _, .done incomplete, ⟨fresh, Or.inr ⟨state, length, none, rfl⟩⟩, rfl,
      fun _ => List.cons_ne_nil _ _⟩
  · have pass : reader.feedPass payload =
        ({ reader with payloadBuf := payload, state := .complete }, []) := by
      rw [feedPass_payload state, none, length, List.length_nil, Nat.sub_zero, List.nil_append,
        List.take_length, if_pos rfl, List.drop_length]
    have scan : Scan reader payload { reader with payloadBuf := [], state := .readType }
        [⟨reader.currentType, payload⟩] := by
      refine .pass empty incomplete ?_
      rw [pass]
      exact .frame rfl (.done nofun)
    exact ⟨_, _, [], scan, ⟨fresh, Or.inl ⟨rfl, rfl⟩⟩, rfl, fun nothing => absurd nothing empty⟩

theorem scan_fresh {reader : FrameReader} (fresh : reader.varintBytesExpected = 0)
    (state : reader.state = .readType) (sent : WireFrame) :
    ∃ final frames pending, Scan reader sent.bytes final frames ∧ final.Ready pending ∧
      frames ++ pending = [sent.frame] ∧ (sent.frame.payload = [] → pending ≠ []) := by
  have incomplete : reader.state ≠ .complete := by
    rw [state]
    nofun
  have typed := feedPass_integer fresh (Or.inl state) sent.isCode
    (sent.lengthBytes ++ sent.frame.payload)
  have measured := @feedPass_integer { reader with
    varintBuf := [], varintBytesExpected := 0, currentType := .ofCode sent.code
    state := .readLength } rfl (Or.inr rfl) _ _ sent.isLength sent.frame.payload
  rw [@advance_readType { reader with varintBuf := [], varintBytesExpected := 0 } state] at typed
  rw [advance_readLength rfl] at measured
  obtain ⟨final, frames, pending, scan, ready, whole, waits⟩ := @scan_payload
    { reader with
      varintBuf := [], varintBytesExpected := 0, currentType := .ofCode sent.code
      currentLength := sent.frame.payload.length, payloadBuf := [], state := .readPayload }
    rfl rfl rfl sent.frame.payload rfl
  refine ⟨final, frames, pending, .pass sent.bytes_ne_nil incomplete ?_, ready, ?_, waits⟩
  · rw [WireFrame.bytes, typed]
    refine .pass (List.append_ne_nil_of_left_ne_nil (ne_nil_of_decodeVarint sent.isLength) _) nofun
      ?_
    rw [measured]
    exact scan
  · rw [whole, sent.isType]

/-- A whole frame is scanned. -/
theorem Ready.scan {reader : FrameReader} {pending : List Frame} (ready : reader.Ready pending)
    (sent : WireFrame) :
    ∃ final frames pending', Scan reader sent.bytes final frames ∧ final.Ready pending' ∧
      frames ++ pending' = pending ++ [sent.frame] ∧
      (sent.frame.payload = [] → pending' ≠ []) := by
  obtain ⟨state, rfl⟩ | ⟨state, length, none, rfl⟩ := ready.between
  · exact scan_fresh ready.varint state sent
  · obtain ⟨final, frames, pending, scan, after, whole, waits⟩ := @scan_fresh
      { reader with payloadBuf := [], state := .readType } ready.varint rfl sent
    have pass : reader.feedPass sent.bytes =
        ({ reader with payloadBuf := [], state := .complete }, sent.bytes) := by
      rw [feedPass_payload state, none, length, List.length_nil, Nat.sub_self, List.take_zero,
        List.append_nil, List.drop_zero]
      rfl
    refine ⟨final, ⟨reader.currentType, []⟩ :: frames, pending, .pass sent.bytes_ne_nil ?_ ?_,
      after, ?_, waits⟩
    · rw [state]
      nofun
    · rw [pass]
      exact .frame rfl scan
    · rw [List.cons_append, whole]
      rfl

theorem Ready.waits {reader : FrameReader} {pending : List Frame} (ready : reader.Ready pending) :
    reader.Waits := by
  refine ⟨fun began => absurd ready.varint began, fun payload => ?_⟩
  obtain ⟨state, _⟩ | ⟨_, _, none, _⟩ := ready.between
  · rw [state] at payload
    cases payload
  · rw [none]
    exact Nat.zero_le _

/-- A frame that is pending has no payload. -/
theorem Ready.payload {reader : FrameReader} {pending : List Frame} (ready : reader.Ready pending) :
    ∀ f ∈ pending, f.payload = [] := by
  obtain ⟨_, rfl⟩ | ⟨_, _, _, rfl⟩ := ready.between
  · nofun
  · intro f member
    rw [List.mem_singleton.mp member]

/-- Frames are scanned one after the other. -/
theorem Ready.scan_all (sents : List WireFrame) {reader : FrameReader} {pending : List Frame}
    (ready : reader.Ready pending) :
    ∃ final frames pending', Scan reader (sents.flatMap WireFrame.bytes) final frames ∧
      final.Ready pending' ∧ frames ++ pending' = pending ++ sents.map WireFrame.frame ∧
      ∀ last ∈ sents.getLast?, last.frame.payload = [] → pending' ≠ [] := by
  induction sents generalizing reader pending with
  | nil =>
    have incomplete : reader.state ≠ .complete := by
      obtain ⟨state, _⟩ | ⟨state, _⟩ := ready.between <;> rw [state] <;> nofun
    exact ⟨reader, [], pending, .done incomplete, ready, by simp, fun _ wrong => by cases wrong⟩
  | cons sent sents inductionHypothesis =>
    obtain ⟨middle, first, between, scan, after, head, waits⟩ := ready.scan sent
    obtain ⟨final, others, pending', later, ends, tail, waitsLater⟩ := inductionHypothesis after
    refine ⟨final, first ++ others, pending', scan.append ready.waits later, ends, ?_, ?_⟩
    · rw [List.append_assoc, tail, ← List.append_assoc, head, List.append_assoc]
      rfl
    · intro last isLast
      cases sents with
      | nil =>
        cases isLast
        cases later with
        | done _ =>
          intro empty none
          rw [none, List.append_nil] at tail
          exact waits empty (List.append_eq_nil_iff.mp tail.symm).1
        | pass some _ _ => exact absurd rfl some
        | frame complete _ =>
          obtain ⟨state, _⟩ | ⟨state, _⟩ := after.between <;> rw [state] at complete <;>
            cases complete
      | cons next sents =>
        rw [List.getLast?_cons_cons] at isLast
        exact waitsLater last isLast

end FrameReader

/-! ### The frames of a request -/

/-- What a frame of a request does to its stream before the end of the stream. -/
def StreamState.receive (decoder : QpackDecoder) (ss : StreamState) (f : Frame) :
    Except Fault StreamState :=
  match f.type with
  | .headers =>
      (decoder.decode f.payload).map fun headers =>
        { ss with
          headersComplete := true
          req := { headers.foldl Session.applyRequestHeader ss.req with ver := .http3 } }
  | .data => .ok { ss with body := ss.body ++ f.payload }
  | _ => .ok ss

namespace StreamState

variable {decoder : QpackDecoder}

/-- What the frames of a request do not change. -/
theorem receive_kept {ss next : StreamState} {f : Frame}
    (received : ss.receive decoder f = .ok next) :
    next.endStream = ss.endStream ∧ next.streamId = ss.streamId ∧ next.state = ss.state := by
  unfold receive at received
  split at received
  · obtain ⟨headers, _, rfl⟩ := Library.map_ok received
    exact ⟨rfl, rfl, rfl⟩
  · cases received
    exact ⟨rfl, rfl, rfl⟩
  · cases received
    exact ⟨rfl, rfl, rfl⟩

theorem foldlM_receive_kept (frames : List Frame) {ss next : StreamState}
    (received : frames.foldlM (receive decoder) ss = .ok next) :
    next.endStream = ss.endStream ∧ next.streamId = ss.streamId ∧ next.state = ss.state := by
  induction frames generalizing ss with
  | nil =>
    cases received
    exact ⟨rfl, rfl, rfl⟩
  | cons f frames inductionHypothesis =>
    obtain ⟨middle, first, later⟩ := Library.bind_ok received
    obtain ⟨endStream, streamId, state⟩ := receive_kept first
    obtain ⟨endStream', streamId', state'⟩ := inductionHypothesis later
    exact ⟨endStream'.trans endStream, streamId'.trans streamId, state'.trans state⟩

/-- The frames of a request do not use the reader. -/
theorem receive_reader (ss : StreamState) (reader : FrameReader) (f : Frame) :
    receive decoder { ss with reader } f = (ss.receive decoder f).map ({ · with reader }) := by
  unfold receive
  split
  · cases decoder.decode f.payload <;> rfl
  · rfl
  · rfl

theorem foldlM_receive_reader (frames : List Frame) (ss : StreamState) (reader : FrameReader) :
    frames.foldlM (receive decoder) { ss with reader } =
      (frames.foldlM (receive decoder) ss).map ({ · with reader }) := by
  induction frames generalizing ss with
  | nil => rfl
  | cons f frames inductionHypothesis =>
    rw [List.foldlM_cons, List.foldlM_cons, receive_reader]
    cases ss.receive decoder f with
    | error fault => rfl
    | ok next => exact inductionHypothesis next

/-- A stream that has begun and not ended, between two deliveries. -/
structure Unfinished (ss : StreamState) (streamId : Nat) : Prop where
  more : ss.endStream = false
  identified : ss.streamId = streamId
  opened : ss.state = .opened
  waits : ss.reader.Waits
  incomplete : ss.reader.state ≠ .complete

theorem Unfinished.receive {ss next : StreamState} {streamId : Nat}
    (unfinished : ss.Unfinished streamId) {data : Bytes} {frames : List Frame}
    {reader : FrameReader} (received : frames.foldlM (StreamState.receive decoder) ss = .ok next)
    (scan : FrameReader.Scan ss.reader data reader frames) :
    { next with reader }.Unfinished streamId := by
  obtain ⟨endStream, identified, state⟩ := foldlM_receive_kept frames received
  exact ⟨endStream.trans unfinished.more, identified.trans unfinished.identified,
    state.trans unfinished.opened, scan.waits unfinished.waits, scan.incomplete⟩

end StreamState

namespace Session

theorem stream_setStream (session : Session) (streamId : Nat) (ss : StreamState) :
    (session.setStream streamId ss).stream streamId = ss := by
  show ((if streamId = streamId then some ss else session.streams streamId).getD {}) = ss
  rw [if_pos rfl]
  rfl

theorem isSome_setStream (session : Session) (streamId : Nat) (ss : StreamState) :
    ((session.setStream streamId ss).streams streamId).isSome = true :=
  congrArg Option.isSome (if_pos rfl)

theorem stream_modifyStream (session : Session) (streamId : Nat)
    (change : StreamState → StreamState) :
    (session.modifyStream streamId change).stream streamId = change (session.stream streamId) :=
  stream_setStream session streamId _

theorem isSome_modifyStream (session : Session) (streamId : Nat)
    (change : StreamState → StreamState) :
    ((session.modifyStream streamId change).streams streamId).isSome = true :=
  isSome_setStream session streamId _

theorem setStream_setStream (session : Session) (streamId : Nat) (ss other : StreamState) :
    (session.setStream streamId ss).setStream streamId other =
      session.setStream streamId other := by
  unfold setStream
  congr 1
  funext given
  by_cases same : given = streamId
  · rw [if_pos same, if_pos same]
  · simp only [if_neg same]

/-- A server that has not seen the end of a stream only changes the stream. -/
theorem handleRequestFrame_setStream {session : Session} (server : session.mode = .server)
    (streamId : Nat) (ss : StreamState) (more : ss.endStream = false) (f : Frame) :
    handleRequestFrame streamId (session.setStream streamId ss) f =
      (ss.receive session.decoder f).map (session.setStream streamId) := by
  have mode : (session.setStream streamId ss).mode = .server := server
  have decoder : (session.setStream streamId ss).decoder = session.decoder := rfl
  unfold handleRequestFrame StreamState.receive
  cases f.type with
  | headers =>
    simp only
    rw [handleRequestHeaders, mode]
    simp only
    rw [decoder, stream_setStream, more]
    cases session.decoder.decode f.payload with
    | error fault => rfl
    | ok headers =>
      simp only [bind, Except.bind, Except.map]
      rw [if_neg Bool.false_ne_true, setStream_setStream]
      rfl
  | data =>
    simp only
    rw [handleRequestData, mode]
    simp only
    rw [stream_setStream, more, if_neg Bool.false_ne_true, setStream_setStream]
    rfl
  | _ => rfl

theorem foldlM_handleRequestFrame {session : Session} (server : session.mode = .server)
    (streamId : Nat) (frames : List Frame) (ss : StreamState) (more : ss.endStream = false) :
    frames.foldlM (handleRequestFrame streamId) (session.setStream streamId ss) =
      (frames.foldlM (StreamState.receive session.decoder) ss).map
        (session.setStream streamId) := by
  induction frames generalizing ss with
  | nil => rfl
  | cons f frames inductionHypothesis =>
    rw [List.foldlM_cons, List.foldlM_cons, handleRequestFrame_setStream server streamId ss more f]
    cases received : ss.receive session.decoder f with
    | error fault => rfl
    | ok next => exact inductionHypothesis next ((StreamState.receive_kept received).1.trans more)

/-- The requests that the handler has been called with. -/
def handled (session : Session) : List Request :=
  session.events.filterMap fun event =>
    match event with
    | .requestHandler req => some req
    | _ => none

theorem handled_write (session : Session) (streamId : Nat) (data : Bytes) (fin : Bool) :
    (session.record (.write streamId data fin)).handled = session.handled := by
  rw [handled, record, List.filterMap_append]
  exact List.append_nil _

theorem handled_sendMaxPushId (session : Session) (pushId : Nat) :
    (session.sendMaxPushId pushId).handled = session.handled := by
  unfold sendMaxPushId
  split
  · simp only
    split
    · rfl
    · exact handled_write _ _ _ _
  · rfl

theorem handled_doSubmitPush (session : Session) (promisedReq : Request) (pushResp : Response)
    (associatedStreamId : Nat) :
    (session.doSubmitPush promisedReq pushResp associatedStreamId).handled = session.handled := by
  unfold doSubmitPush
  split
  · rfl
  · have promised := (handled_write _ associatedStreamId
      (buildPushPromiseFrame session.nextPushId (encodeStatic (promisedHeaders promisedReq)))
      false).trans (handled_sendMaxPushId { session with nextPushId := session.nextPushId + 1 }
        session.nextPushId)
    simp only
    generalize Session.record _ _ = next at promised
    split
    · rename_i after answer
      have kept : next.handled = after.handled := congrArg (fun opened => opened.2.handled) answer
      exact kept.symm.trans promised
    · rename_i after answer
      have kept : next.handled = after.handled := congrArg (fun opened => opened.2.handled) answer
      exact (handled_write _ _ _ _).trans (kept.symm.trans promised)

theorem handled_submitResponse (session : Session) (streamId : Nat) (resp : Response) :
    (session.submitResponse streamId resp).handled = session.handled := by
  unfold submitResponse
  simp only
  split
  · exact handled_write _ _ _ _
  · rfl

theorem handled_foldl_doSubmitPush (pushes : List (Request × Response)) (session : Session)
    (streamId : Nat) :
    (pushes.foldl (fun session push => session.doSubmitPush push.1 push.2 streamId)
      session).handled = session.handled := by
  induction pushes generalizing session with
  | nil => rfl
  | cons push pushes inductionHypothesis =>
    rw [List.foldl_cons, inductionHypothesis, handled_doSubmitPush]

/-- A dispatch calls the handler once. -/
theorem handled_dispatchRequest {session : Session} {handler : Request → Response}
    (handles : session.requestHandler = some handler) (streamId : Nat) :
    (session.dispatchRequest streamId).handled =
      session.handled ++
        [{ (session.stream streamId).req with bd := (session.stream streamId).body }] := by
  unfold dispatchRequest
  rw [handles]
  simp only
  have called : ∀ (session : Session) (req : Request),
      (session.record (.requestHandler req)).handled = session.handled ++ [req] := by
    intro session req
    rw [handled, record, List.filterMap_append]
    rfl
  split
  · rw [handled_submitResponse, called]
    rfl
  · rw [handled_foldl_doSubmitPush]
    have asked : ∀ (session : Session) (req : Request),
        (session.record (.pushProvider req)).handled = session.handled := by
      intro session req
      rw [handled, record, List.filterMap_append]
      exact List.append_nil _
    rw [asked, handled_submitResponse, called]
    rfl

/-- The stream of a request whose first bytes have come. -/
def requestOpened (streamId : Nat) : StreamState := { streamId, state := .opened }

theorem modifyStream_setStream (session : Session) (streamId : Nat) (ss : StreamState)
    (change : StreamState → StreamState) :
    (session.setStream streamId ss).modifyStream streamId change =
      session.setStream streamId (change ss) := by
  rw [modifyStream, stream_setStream, setStream_setStream]

theorem recvBidiStreamData_fresh {session : Session} {streamId : Nat}
    (fresh : { session.stream streamId with streamId } = ({ streamId } : StreamState))
    (data : Bytes) (fin : Bool) :
    session.recvBidiStreamData streamId data fin =
      (session.setStream streamId (requestOpened streamId)).recvBidiStreamData streamId data
        fin := by
  have idle : (session.stream streamId).state = .idle := congrArg StreamState.state fresh
  have first : session.modifyStream streamId (receiving streamId) =
      (session.setStream streamId (requestOpened streamId)).modifyStream streamId
        (receiving streamId) := by
    rw [modifyStream_setStream, modifyStream]
    congr 1
    rw [receiving, idle, if_pos rfl]
    exact congrArg (fun ss : StreamState => { ss with state := .opened }) fresh
  unfold recvBidiStreamData
  rw [first]

/-- The end of a delivery to a server: the request is dispatched when the stream ends. -/
theorem finishStream_setStream {session : Session} (server : session.mode = .server)
    (streamId : Nat) (ss : StreamState) :
    (session.setStream streamId ss).finishStream streamId =
      if ss.headersComplete then
        (session.setStream streamId { ss with endStream := true }).dispatchRequest streamId
      else session.setStream streamId { ss with endStream := true } := by
  have mode (ss : StreamState) : (session.setStream streamId ss).mode = .server := server
  unfold finishStream
  simp only
  rw [modifyStream_setStream, mode, stream_setStream]

theorem handled_finishStream {session : Session} (server : session.mode = .server)
    {handler : Request → Response} (handles : session.requestHandler = some handler)
    (streamId : Nat) (ss : StreamState) (complete : ss.headersComplete = true) :
    ((session.setStream streamId ss).finishStream streamId).handled =
      session.handled ++ [{ ss.req with bd := ss.body }] := by
  rw [finishStream_setStream server, if_pos complete, @handled_dispatchRequest
    (session.setStream streamId { ss with endStream := true }) handler handles, stream_setStream]
  rfl

/-- One delivery, by the frames that it completes. -/
theorem recvBidiStreamData_scan {session : Session} (server : session.mode = .server)
    {streamId : Nat} {ss : StreamState} (unfinished : ss.Unfinished streamId) {data : Bytes}
    {final : FrameReader} {frames : List Frame}
    (scan : FrameReader.Scan ss.reader data final frames) (fin : Bool) :
    (session.setStream streamId ss).recvBidiStreamData streamId data fin =
      (frames.foldlM (StreamState.receive session.decoder) ss).map fun ss =>
        let session := session.setStream streamId { ss with reader := final }
        if fin then session.finishStream streamId else session := by
  have kept : receiving streamId ss = ss := by
    rw [receiving, if_neg (by rw [unfinished.opened]; nofun), ← unfinished.identified]
  unfold recvBidiStreamData
  simp only
  rw [modifyStream_setStream, kept, stream_setStream, FrameReader.read_scan scan unfinished.waits,
    foldlM_handleRequestFrame server streamId frames ss unfinished.more]
  cases frames.foldlM (StreamState.receive session.decoder) ss with
  | error fault => rfl
  | ok next =>
    simp only [Except.map, bind, Except.bind]
    rw [modifyStream_setStream]
    rfl

end Session

/-! ### Request streams -/

/-- A request stream: a HEADERS frame with a field section, DATA frames, and frames of other types
anywhere. -/
structure RequestStream where
  before : List WireFrame
  headers : WireFrame
  after : List WireFrame
  ignored : ∀ sent ∈ before, sent.frame.type ≠ .headers ∧ sent.frame.type ≠ .data
  isHeaders : headers.frame.type = .headers
  fieldSection : headers.frame.payload ≠ []
  noHeaders : ∀ sent ∈ after, sent.frame.type ≠ .headers

namespace RequestStream

def wireFrames (stream : RequestStream) : List WireFrame :=
  stream.before ++ stream.headers :: stream.after

def bytes (stream : RequestStream) : Bytes := stream.wireFrames.flatMap WireFrame.bytes

/-- The payloads of the DATA frames. -/
def body (stream : RequestStream) : Bytes :=
  (stream.after.filter fun sent => sent.frame.type = .data).flatMap (·.frame.payload)

end RequestStream

namespace StreamState

variable {decoder : QpackDecoder}

/-- Frames that are ignored. -/
theorem foldlM_receive_ignored (frames : List Frame) (ss : StreamState)
    (ignored : ∀ f ∈ frames, f.type ≠ .headers ∧ f.type ≠ .data) :
    frames.foldlM (receive decoder) ss = .ok ss := by
  induction frames with
  | nil => rfl
  | cons f frames inductionHypothesis =>
    have nothing : ss.receive decoder f = .ok ss := by
      obtain ⟨noHeaders, noData⟩ := ignored f List.mem_cons_self
      unfold receive
      split <;> first | contradiction | rfl
    rw [List.foldlM_cons, nothing]
    exact inductionHypothesis fun other member => ignored other (List.mem_cons_of_mem _ member)

/-- Frames that bring the body. -/
theorem foldlM_receive_body (frames : List Frame) (ss : StreamState)
    (noHeaders : ∀ f ∈ frames, f.type ≠ .headers) :
    frames.foldlM (receive decoder) ss =
      .ok { ss with
        body := ss.body ++ (frames.filter fun f => f.type = .data).flatMap (·.payload) } := by
  induction frames generalizing ss with
  | nil =>
    rw [List.filter_nil, List.flatMap_nil, List.append_nil]
    rfl
  | cons f frames inductionHypothesis =>
    have others (ss : StreamState) := inductionHypothesis ss
      fun other member => noHeaders other (List.mem_cons_of_mem _ member)
    rw [List.foldlM_cons]
    by_cases data : f.type = .data
    · have received : ss.receive decoder f = .ok { ss with body := ss.body ++ f.payload } := by
        unfold receive
        rw [data]
      rw [received, List.filter_cons_of_pos (by simpa using data), List.flatMap_cons,
        ← List.append_assoc]
      exact others _
    · have received : ss.receive decoder f = .ok ss := by
        have different := noHeaders f List.mem_cons_self
        unfold receive
        split <;> first | contradiction | rfl
      rw [received, List.filter_cons_of_neg (by simpa using data)]
      exact others ss

end StreamState

namespace RequestStream

/-- All frames of a request stream, one after the other. -/
theorem foldlM_receive (stream : RequestStream) (decoder : QpackDecoder) (ss : StreamState) :
    (stream.wireFrames.map WireFrame.frame).foldlM (StreamState.receive decoder) ss =
      (decoder.decode stream.headers.frame.payload).map fun headers =>
        { ss with
          headersComplete := true
          req := { headers.foldl Session.applyRequestHeader ss.req with ver := .http3 }
          body := ss.body ++ stream.body } := by
  have ignored := @StreamState.foldlM_receive_ignored decoder
    (stream.before.map WireFrame.frame) ss fun f member => by
      obtain ⟨sent, found, rfl⟩ := List.mem_map.mp member
      exact stream.ignored sent found
  have noHeaders : ∀ f ∈ stream.after.map WireFrame.frame, f.type ≠ .headers := fun f member => by
    obtain ⟨sent, found, rfl⟩ := List.mem_map.mp member
    exact stream.noHeaders sent found
  have received : ss.receive decoder stream.headers.frame =
      (decoder.decode stream.headers.frame.payload).map fun headers =>
        { ss with
          headersComplete := true
          req := { headers.foldl Session.applyRequestHeader ss.req with ver := .http3 } } := by
    unfold StreamState.receive
    rw [stream.isHeaders]
  have body : ((stream.after.map WireFrame.frame).filter fun f => f.type = .data).flatMap
      (·.payload) = stream.body := by
    rw [List.filter_map, List.flatMap_map]
    rfl
  rw [wireFrames, List.map_append, List.foldlM_append, ignored, List.map_cons]
  show ((stream.headers.frame :: stream.after.map WireFrame.frame).foldlM
    (StreamState.receive decoder) ss) = _
  rw [List.foldlM_cons, received]
  cases decoder.decode stream.headers.frame.payload with
  | error fault => rfl
  | ok headers =>
    show (stream.after.map WireFrame.frame).foldlM (StreamState.receive decoder) _ = _
    rw [StreamState.foldlM_receive_body _ _ noHeaders, body]
    rfl

/-- The scan of a request stream completes all of its frames but one that does nothing. -/
theorem exists_scan_frames (stream : RequestStream) (decoder : QpackDecoder) :
    ∃ final frames, FrameReader.Scan {} stream.bytes final frames ∧
      ∀ ss, frames.foldlM (StreamState.receive decoder) ss =
        (stream.wireFrames.map WireFrame.frame).foldlM (StreamState.receive decoder) ss := by
  have ready : FrameReader.Ready {} [] := ⟨rfl, Or.inl ⟨rfl, rfl⟩⟩
  obtain ⟨final, frames, pending, scan, ends, whole, _⟩ := ready.scan_all stream.wireFrames
  refine ⟨final, frames, scan, fun ss => ?_⟩
  rw [List.nil_append] at whole
  have noHeaders : ∀ f ∈ pending, f.type ≠ .headers := by
    intro f member isHeaders
    have empty := ends.payload f member
    have found : f ∈ stream.wireFrames.map WireFrame.frame := by
      rw [← whole]
      exact List.mem_append_right _ member
    obtain ⟨sent, there, rfl⟩ := List.mem_map.mp found
    obtain early | late := List.mem_append.mp there
    · exact (stream.ignored sent early).1 isHeaders
    · obtain rfl | late := List.mem_cons.mp late
      · exact stream.fieldSection empty
      · exact stream.noHeaders sent late isHeaders
  have nothing (ss : StreamState) : pending.foldlM (StreamState.receive decoder) ss = .ok ss := by
    have none : (pending.filter fun f => f.type = .data).flatMap (·.payload) = [] := by
      rw [List.flatMap_eq_nil_iff]
      exact fun f member => ends.payload f (List.mem_of_mem_filter member)
    rw [StreamState.foldlM_receive_body _ _ noHeaders, none, List.append_nil]
  rw [← whole, List.foldlM_append]
  cases frames.foldlM (StreamState.receive decoder) ss with
  | error fault => rfl
  | ok next => exact (nothing next).symm

end RequestStream

/-! ### Deliveries -/

namespace Session

/-- Deliveries before the one that ends the stream. -/
def recvPieces (session : Session) (streamId : Nat) (pieces : List Bytes) : Except Fault Session :=
  pieces.foldlM (fun session piece => session.recvStreamData streamId piece false) session

theorem recvStreamData_bidi {streamId : Nat} (bidirectional : streamId &&& 0x02 = 0)
    (session : Session) (data : Bytes) (fin : Bool) :
    session.recvStreamData streamId data fin = session.recvBidiStreamData streamId data fin :=
  if_neg (not_not.mpr bidirectional)

/-- However the bytes are delivered, the frames of their scan are received. -/
theorem recvPieces_scan {session : Session} (server : session.mode = .server) {streamId : Nat}
    (bidirectional : streamId &&& 0x02 = 0) (pieces : List Bytes) {ss : StreamState}
    (unfinished : ss.Unfinished streamId) {final : FrameReader} {frames : List Frame}
    (scan : FrameReader.Scan ss.reader pieces.flatten final frames) :
    (session.setStream streamId ss).recvPieces streamId pieces =
      (frames.foldlM (StreamState.receive session.decoder) ss).map fun ss =>
        session.setStream streamId { ss with reader := final } := by
  induction pieces generalizing ss frames with
  | nil =>
    cases scan with
    | done _ => rfl
    | pass some _ _ => exact absurd rfl some
    | frame complete _ => exact absurd complete unfinished.incomplete
  | cons piece pieces inductionHypothesis =>
    have waits := unfinished.waits
    obtain ⟨middle, first, early⟩ := FrameReader.exists_scan piece ss.reader waits
    obtain ⟨last, others, late⟩ := FrameReader.exists_scan pieces.flatten middle
      (early.waits waits)
    obtain ⟨rfl, rfl⟩ := scan.unique (early.append waits late)
    unfold recvPieces
    rw [List.foldlM_cons, recvStreamData_bidi bidirectional,
      recvBidiStreamData_scan server unfinished early, List.foldlM_append]
    cases received : first.foldlM (StreamState.receive session.decoder) ss with
    | error fault => rfl
    | ok next =>
      have later := inductionHypothesis (unfinished.receive received early) late
      refine Eq.trans later ?_
      rw [StreamState.foldlM_receive_reader]
      show _ = (others.foldlM (StreamState.receive session.decoder) next).map _
      cases others.foldlM (StreamState.receive session.decoder) next <;> rfl

/-- A server session with a handler, on which a stream is new. -/
structure Serves (session : Session) (streamId : Nat) : Prop where
  mode : session.mode = .server
  handler : session.requestHandler.isSome
  bidirectional : streamId &&& 0x02 = 0
  fresh : { session.stream streamId with streamId } = ({ streamId } : StreamState)

/-- The handler is called once, when the stream ends, with the request that one delivery of all of
the stream calls it with. -/
def InvokedOnce (session : Session) (streamId : Nat) (stream : RequestStream) (pieces : List Bytes)
    (last : Bytes) : Prop :=
  ∃ req, req.bd = stream.body ∧
    (∃ single, session.recvStreamData streamId stream.bytes true = .ok single ∧
      single.handled = session.handled ++ [req]) ∧
    (∀ front, front <+: pieces → ∃ state, session.recvPieces streamId front = .ok state ∧
      state.handled = session.handled) ∧
    ∃ final, (do (← session.recvPieces streamId pieces).recvStreamData streamId last true) =
        .ok final ∧
      final.handled = session.handled ++ [req]

theorem unfinished_requestOpened (streamId : Nat) :
    (requestOpened streamId).Unfinished streamId :=
  ⟨rfl, rfl, rfl, ⟨fun began => absurd rfl began, nofun⟩, nofun⟩

/-- The first delivery opens the stream. -/
theorem Serves.recvPieces_cons {session : Session} {streamId : Nat}
    (serves : session.Serves streamId) (piece : Bytes) (pieces : List Bytes) :
    session.recvPieces streamId (piece :: pieces) =
      (session.setStream streamId (requestOpened streamId)).recvPieces streamId
        (piece :: pieces) := by
  unfold recvPieces
  rw [List.foldlM_cons, List.foldlM_cons, recvStreamData_bidi serves.bidirectional,
    recvStreamData_bidi serves.bidirectional, recvBidiStreamData_fresh serves.fresh]

/-- What a delivery before the end of the stream comes to. -/
theorem Serves.recvPieces {session : Session} {streamId : Nat} (serves : session.Serves streamId)
    {stream : RequestStream} {headers : Headers}
    (decoded : session.decoder.decode stream.headers.frame.payload = .ok headers)
    {front : List Bytes} {rest : Bytes} (cut : front.flatten ++ rest = stream.bytes) :
    ∃ state, session.recvPieces streamId front = .ok state ∧ state.handled = session.handled := by
  cases front with
  | nil => exact ⟨session, rfl, rfl⟩
  | cons piece pieces =>
    have unfinished := unfinished_requestOpened streamId
    obtain ⟨final, frames, scan, same⟩ := stream.exists_scan_frames session.decoder
    obtain ⟨middle, first, early⟩ := FrameReader.exists_scan (piece :: pieces).flatten {}
      unfinished.waits
    obtain ⟨last, others, late⟩ := FrameReader.exists_scan rest middle
      (early.waits unfinished.waits)
    have whole := early.append unfinished.waits late
    rw [cut] at whole
    obtain ⟨rfl, rfl⟩ := scan.unique whole
    have total := same (requestOpened streamId)
    rw [stream.foldlM_receive, decoded, List.foldlM_append] at total
    obtain ⟨next, received, _⟩ := Library.bind_ok total
    rw [serves.recvPieces_cons, recvPieces_scan serves.mode serves.bidirectional (piece :: pieces)
      unfinished early, received]
    exact ⟨_, rfl, rfl⟩

/-- What all deliveries of a request stream come to. -/
theorem Serves.recv_all {session : Session} {streamId : Nat} (serves : session.Serves streamId)
    (stream : RequestStream) {pieces : List Bytes} {last : Bytes}
    (cut : pieces.flatten ++ last = stream.bytes) :
    ∃ reader, (do (← session.recvPieces streamId pieces).recvStreamData streamId last true) =
      (session.decoder.decode stream.headers.frame.payload).map fun headers =>
        (session.setStream streamId { requestOpened streamId with
          headersComplete := true
          req := { headers.foldl applyRequestHeader {} with ver := .http3 }
          body := stream.body
          reader }).finishStream streamId := by
  have unfinished := unfinished_requestOpened streamId
  obtain ⟨final, frames, scan, same⟩ := stream.exists_scan_frames session.decoder
  obtain ⟨middle, first, early⟩ := FrameReader.exists_scan pieces.flatten {} unfinished.waits
  obtain ⟨reader, others, late⟩ := FrameReader.exists_scan last middle
    (early.waits unfinished.waits)
  have whole := early.append unfinished.waits late
  rw [cut] at whole
  obtain ⟨rfl, rfl⟩ := scan.unique whole
  refine ⟨final, ?_⟩
  have opened : (do (← session.recvPieces streamId pieces).recvStreamData streamId last true) =
      (do (← (session.setStream streamId (requestOpened streamId)).recvPieces streamId
        pieces).recvStreamData streamId last true) := by
    cases pieces with
    | nil =>
      show session.recvStreamData streamId last true =
        (session.setStream streamId (requestOpened streamId)).recvStreamData streamId last true
      rw [recvStreamData_bidi serves.bidirectional, recvStreamData_bidi serves.bidirectional,
        recvBidiStreamData_fresh serves.fresh]
    | cons piece pieces => rw [serves.recvPieces_cons]
  have total := same (requestOpened streamId)
  rw [stream.foldlM_receive, List.foldlM_append] at total
  rw [opened, recvPieces_scan serves.mode serves.bidirectional pieces unfinished early]
  cases received : first.foldlM (StreamState.receive session.decoder) (requestOpened streamId) with
  | error fault =>
    rw [received] at total
    cases decoded : session.decoder.decode stream.headers.frame.payload with
    | error other =>
      rw [decoded] at total
      cases total
      rfl
    | ok headers =>
      rw [decoded] at total
      cases total
  | ok next =>
    rw [received] at total
    show (session.setStream streamId { next with reader := middle }).recvStreamData streamId last
      true = _
    rw [recvStreamData_bidi serves.bidirectional,
      recvBidiStreamData_scan serves.mode (unfinished.receive received early) late,
      StreamState.foldlM_receive_reader]
    replace total : others.foldlM (StreamState.receive session.decoder) next = _ := total
    rw [total]
    cases session.decoder.decode stream.headers.frame.payload with
    | error fault => rfl
    | ok headers => rfl

/-- A server that answers every request with the same response. -/
def server : Session := { mode := .server, requestHandler := some fun _ => {} }

/-- A HEADERS frame with one field line of the static table, `:method: POST`, and two DATA frames,
the second of them empty. -/
def posted : RequestStream where
  before := []
  headers :=
    { frame := ⟨.headers, [0x00, 0x00, 0xD4]⟩
      typeBytes := [0x01]
      lengthBytes := [0x03]
      code := 1
      isCode := by decide
      isType := by decide
      isLength := by decide }
  after :=
    [{ frame := ⟨.data, [0x61]⟩
       typeBytes := [0x40, 0x00]
       lengthBytes := [0x01]
       code := 0
       isCode := by decide
       isType := by decide
       isLength := by decide },
     { frame := ⟨.data, []⟩
       typeBytes := [0x00]
       lengthBytes := [0x00]
       code := 0
       isCode := by decide
       isType := by decide
       isLength := by decide }]
  ignored := nofun
  isHeaders := rfl
  fieldSection := by decide
  noHeaders := by decide

/-- A HEADERS frame whose field section has a literal with a name of 2^64 - 1 bytes: the length and
the eleven bytes of its encoding wrap around to ten, which the section has. -/
def wrapped : RequestStream where
  before := []
  headers :=
    { frame := ⟨.headers, [0x00, 0x00, 0x20, 0x7F, 0x80, 0xFF, 0xFF, 0xFF, 0xFF, 0xFF, 0xFF, 0xFF,
        0xFF, 0x01]⟩
      typeBytes := [0x01]
      lengthBytes := [0x0E]
      code := 1
      isCode := by decide
      isType := by decide
      isLength := by decide }
  after := []
  ignored := nofun
  isHeaders := rfl
  fieldSection := by decide
  noHeaders := nofun

end Session

end AsyncNet.Http.H3
