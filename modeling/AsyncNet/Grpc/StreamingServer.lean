/-
This file says what a server sends on a stream of messages. The start handler sends the headers
of the response, every `write` of the writer a message in DATA frames, and `finish` the status in
trailers. Each of them takes the response on the stream as many steps on as it sends frames, and
none of them touches another stream.
-/

import AsyncNet.Grpc.StreamingClient

namespace AsyncNet.Grpc

open AsyncNet.Http AsyncNet.Http.H2 AsyncNet.Library

/-! ### Header blocks -/

/-- A block is little longer than its headers. -/
theorem length_encodeHeader_le (header : Header) :
    (encodeHeader header).length ≤ 48 + header.1.length + header.2.length := by
  have name := length_encodeString_le header.1
  have value := length_encodeString_le header.2
  unfold encodeHeader
  dsimp only
  split
  · exact (length_hpackEncodeInt_le 16 _ 7 0x80).trans (by omega)
  · have mark := length_hpackEncodeInt_le 16 0 4 0x00
    rw [List.length_append, List.length_append]
    omega

theorem length_encode_le (encoder : HpackEncoder) (headers : Headers) :
    (encoder.encode headers).1.length ≤ 16 + (headers.flatMap encodeHeader).length := by
  unfold HpackEncoder.encode
  dsimp only
  rw [List.length_append]
  refine Nat.add_le_add_right ?_ _
  split
  · exact length_hpackEncodeInt_le 16 _ 5 0x20
  · exact Nat.zero_le 16

/-- A string can be sent if it is not extremely long. -/
theorem fits_of_short {header : Header} (name : header.1.length ≤ 2 ^ 30)
    (value : header.2.length ≤ 2 ^ 30) : Fits header := by
  have nameEncoded := length_encodeString_le header.1
  have valueEncoded := length_encodeString_le header.2
  exact ⟨by omega, by omega⟩

/-! ### Trailers -/

/-- A status that a writer can send in one frame: the code is an `int`, and the text is 7-bit and
leaves room for the rest of the frame. -/
structure Tellable (status : Status) : Prop where
  low : -2147483648 ≤ status.code.code
  high : status.code.code ≤ 2147483647
  isAscii : IsAscii status.message
  short : status.message.length ≤ 16000

instance (status : Status) : Decidable (Tellable status) :=
  decidable_of_iff (-2147483648 ≤ status.code.code ∧ status.code.code ≤ 2147483647 ∧
    IsAscii status.message ∧ status.message.length ≤ 16000)
    ⟨fun ⟨low, high, isAscii, short⟩ => ⟨low, high, isAscii, short⟩,
      fun tellable => ⟨tellable.low, tellable.high, tellable.isAscii, tellable.short⟩⟩

/-- The trailers of a status, as they are sent. -/
def statusTrailers (status : Status) : Headers :=
  (grpcStatus, Http.toString status.code.code) ::
    if status.message = [] then [] else [(grpcMessage, status.message)]

theorem copiedHeaders_finishTrailers (status : Status) :
    Http.Connection.copiedHeaders [] (finishTrailers status.code status.message) =
      statusTrailers status := by
  unfold finishTrailers statusTrailers
  dsimp only
  split <;> rfl

theorem length_toString_le {code : Int} (low : -2147483648 ≤ code) (high : code ≤ 2147483647) :
    (Http.toString code).length ≤ 11 := by
  have digits : (decimal code.natAbs).length ≤ 10 :=
    length_decimal_le (by decide) (by show code.natAbs < 10000000000; omega)
  unfold Http.toString
  split
  · rw [List.length_append]
    exact Nat.add_le_add (by decide) digits
  · exact digits.trans (by decide)

/-- An `int` is read back from what is written for it. -/
theorem fromChars_toString_int {code : Int} (low : -2147483648 ≤ code) (high : code ≤ 2147483647) :
    fromChars (Http.toString code) = code := by
  unfold Http.toString
  split
  · rename_i negative
    have digits : (decimal code.natAbs).takeWhile isDigit = decimal code.natAbs := by
      have all := @takeWhile_decimal_append code.natAbs [] nofun
      rwa [List.append_nil] at all
    show fromChars (45 :: decimal code.natAbs) = code
    unfold fromChars
    simp only [List.head?_cons, List.tail_cons, if_true, digits, decimal_ne_nil, if_false,
      digitsValue_decimal]
    rw [if_pos (by omega)]
    omega
  · rw [fromChars_decimal _ (by omega)]
    omega

section Trailers

variable {status : Status} (tellable : Tellable status)
include tellable

theorem Tellable.asciiHeaders : AsciiHeaders (statusTrailers status) := by
  intro header member
  rcases List.mem_cons.mp member with rfl | later
  · exact ⟨show IsAscii grpcStatus by decide, isAscii_toString _⟩
  · split at later
    · exact absurd later List.not_mem_nil
    · rw [List.mem_singleton.mp later]
      exact ⟨show IsAscii grpcMessage by decide, tellable.isAscii⟩

theorem Tellable.fits : ∀ header ∈ statusTrailers status, Fits header := by
  have digits := length_toString_le tellable.low tellable.high
  have short := tellable.short
  intro header member
  rcases List.mem_cons.mp member with rfl | later
  · exact fits_of_short (show grpcStatus.length ≤ 2 ^ 30 by decide)
      (show (Http.toString status.code.code).length ≤ 2 ^ 30 by omega)
  · split at later
    · exact absurd later List.not_mem_nil
    · rw [List.mem_singleton.mp later]
      exact fits_of_short (show grpcMessage.length ≤ 2 ^ 30 by decide)
        (show status.message.length ≤ 2 ^ 30 by omega)

/-- The trailers take one frame. -/
theorem Tellable.length_encode (encoder : HpackEncoder) :
    (encoder.encode (statusTrailers status)).1.length ≤ 16384 := by
  have digits := length_toString_le tellable.low tellable.high
  have short := tellable.short
  have code := length_encodeHeader_le (grpcStatus, Http.toString status.code.code)
  have text := length_encodeHeader_le (grpcMessage, status.message)
  have names : grpcStatus.length = 11 ∧ grpcMessage.length = 12 := by decide
  refine (length_encode_le encoder _).trans ?_
  unfold statusTrailers
  rw [List.flatMap_cons, List.length_append]
  dsimp only at code text
  split
  · show 16 + ((encodeHeader _).length + 0) ≤ _
    omega
  · rw [List.flatMap_singleton]
    omega

/-- The client reads the status that was sent. -/
theorem Tellable.extractGrpcStatus :
    extractGrpcStatus (streamMessage (statusTrailers status)).response = status := by
  have plain : PlainNames (statusTrailers status) := by
    intro header member
    rcases List.mem_cons.mp member with rfl | later
    · exact show grpcStatus.head? ≠ some 58 by decide
    · split at later
      · exact absurd later List.not_mem_nil
      · rw [List.mem_singleton.mp later]
        exact show grpcMessage.head? ≠ some 58 by decide
  have hdrs : (streamMessage (statusTrailers status)).response.hdrs =
      [(ascii "content-type", contentType), (ascii "grpc-encoding", grpcEncoding)] ++
        statusTrailers status := by
    show ((statusTrailers status).foldl Http.Connection.applyResponseHeader _).hdrs = _
    rw [Http.Connection.foldl_applyResponseHeader_plain _ _ plain]
    rfl
  unfold Grpc.extractGrpcStatus
  rw [hdrs]
  have code : Headers.get ([(ascii "content-type", contentType),
      (ascii "grpc-encoding", grpcEncoding)] ++ statusTrailers status) grpcStatus =
      some (Http.toString status.code.code) := rfl
  rw [code]
  dsimp only
  rw [fromChars_toString_int tellable.low tellable.high]
  have text : (Headers.get ([(ascii "content-type", contentType),
      (ascii "grpc-encoding", grpcEncoding)] ++ statusTrailers status) grpcMessage).getD [] =
      status.message := by
    unfold statusTrailers
    split
    · rename_i empty
      rw [empty]
      rfl
    · rfl
  rw [text]

end Trailers

/-! ### Frames of a stream -/

/-- The data that frames carry for a stream. -/
def dataOf (sid : Nat) (frames : List Frame) : Bytes :=
  frames.flatMap fun f => if f.hdr.type = .data ∧ f.hdr.streamId = sid then f.payload else []

theorem dataOf_append (sid : Nat) (frames more : List Frame) :
    dataOf sid (frames ++ more) = dataOf sid frames ++ dataOf sid more := List.flatMap_append

theorem dataOf_eq_nil {sid : Nat} {frames : List Frame}
    (none : ∀ f ∈ frames, frameStream f ≠ some sid) : dataOf sid frames = [] := by
  refine List.flatMap_eq_nil_iff.mpr fun f member => if_neg fun both => none f member ?_
  rw [frameStream, both.1, ← both.2]

/-- A frame of a stream grants no credit. -/
theorem credits_of_streams {sid : Nat} {frames : List Frame}
    (own : ∀ f ∈ frames, frameStream f = some sid) (scope : Nat) : credits scope frames = 0 := by
  refine credits_of_ne scope frames fun f member windowUpdate => ?_
  have mine := own f member
  rw [frameStream, windowUpdate] at mine
  cases mine

/-- Frames have been sent on a stream, which take its response from a stage to another and carry
some data. -/
structure Emits (sid : Nat) (stage : StreamStage) (data : Bytes) (stage' : StreamStage)
    (frames : List Frame) (before after : Http.Connection) : Prop where
  run : Run (StreamStep sid) stage frames stage'
  own : ∀ f ∈ frames, frameStream f = some sid
  proper : ∀ f ∈ frames, f.Proper
  data : dataOf sid frames = data
  outputBuf : after.outputBuf = before.outputBuf ++ frames.flatMap Frame.wire
  peerMaxFrameSize : after.peerMaxFrameSize = before.peerMaxFrameSize
  maxTableSize : after.encoder.maxTableSize = before.encoder.maxTableSize

section Emitting

variable {sid : Nat} {server : Http.Connection} (identifier : sid < 2 ^ 31)
include identifier

/-- The frame of a short header block. -/
theorem emits_sendHeaders {stage stage' : StreamStage} {headers : Headers} (endStream : Bool)
    (size : server.peerMaxFrameSize = 16384)
    (short : (server.encoder.encode headers).1.length ≤ 16384)
    (taken : ∀ f, BeginsBlock sid true endStream f (server.encoder.encode headers).1 →
      StreamStep sid stage f stage') :
    ∃ frames, Emits sid stage [] stage' frames server
      (server.sendHeaders sid (if endStream then Flag.endStream else 0) headers) := by
  have moves := Http.Connection.moves_sendHeaders server sid
    (if endStream then Flag.endStream else 0) headers
  rw [size, headerFrames, if_pos short, (blockFlags_eq endStream).1] at moves
  have begins := begins_ofPayload sid true endStream (server.encoder.encode headers).1
  refine ⟨_, .singleton (taken _ begins), fun f member => ?_, fun f member => ?_, ?_,
    moves.outputBuf, moves.peerMaxFrameSize, moves.maxTableSize⟩
  · rw [List.mem_singleton.mp member]
    rfl
  · rw [List.mem_singleton.mp member]
    exact proper_ofPayload .headers sid rfl _ _ identifier (by omega)
  · rw [dataOf, List.flatMap_singleton]
    exact if_neg fun both => FrameType.noConfusion both.1

/-- The frames of a message. -/
theorem emits_data (size : server.peerMaxFrameSize = 16384) {data : Bytes} (some : data ≠ []) :
    ∃ frames, Emits sid .streaming data .streaming frames server
      (server.doSubmitData sid data false) := by
  have split (count : Nat) (rest : Bytes) (enough : rest.length ≤ count) :
      Run (StreamStep sid) .streaming (splitInto .data 0 sid 16384 count rest) .streaming ∧
        dataOf sid (splitInto .data 0 sid 16384 count rest) = rest := by
    induction count generalizing rest with
    | zero =>
      rw [List.length_eq_zero_iff.mp (Nat.le_zero.mp enough)]
      exact ⟨.nil _, rfl⟩
    | succ count inductionHypothesis =>
      unfold splitInto
      by_cases empty : rest = []
      · rw [if_pos empty, empty]
        exact ⟨.nil _, rfl⟩
      · rw [if_neg empty, ite_self]
        have less : (rest.drop 16384).length ≤ count := by
          rw [List.length_drop]
          omega
        obtain ⟨run, later⟩ := inductionHypothesis (rest.drop 16384) less
        refine ⟨.cons (.data (isData_ofPayload false _ (List.length_take_le _ _))) run, ?_⟩
        rw [dataOf, List.flatMap_cons, if_pos ⟨rfl, rfl⟩]
        refine Eq.trans (congrArg (rest.take 16384 ++ ·) later) ?_
        exact List.take_append_drop 16384 rest
  obtain ⟨run, carried⟩ := split data.length data le_rfl
  refine ⟨_, run, fun f member => ?_, proper_splitInto .data 0 sid 16384 rfl identifier (by decide)
    _ _, carried, ?_, rfl, rfl⟩
  · obtain ⟨flags, piece, -, rfl⟩ := mem_splitInto _ _ _ _ _ _ member
    rfl
  · rw [← splitFrames_eq, ← size]
    show (server.enqueue _).outputBuf = _
    rw [if_neg some, if_neg Bool.false_ne_true]
    rfl

/-! ### Calls -/

/-- The start handler sends the headers of the response. -/
theorem emits_responseHeaders (size : server.peerMaxFrameSize = 16384)
    (word : server.encoder.maxTableSize < 2 ^ 64) :
    ∃ frames, Emits sid .start [] .streaming frames server
      (server.command (.submitResponseHeaders sid streamResponse)) :=
  emits_sendHeaders identifier false size
    ((length_encode_le _ streamHeaders).trans (by decide)) fun f begins =>
    .headers begins (decodes_encode _ streamHeaders word (by decide) (by decide))

/-- A message is sent. -/
theorem emits_write (size : server.peerMaxFrameSize = 16384) (message : Bytes) :
    ∃ frames, Emits sid .streaming (encodeGrpcMessage message) .streaming frames server
      (server.command (.submitData sid (encodeGrpcMessage message) false)) :=
  emits_data identifier size (List.cons_ne_nil _ _)

/-- A status is sent. -/
theorem emits_finish (size : server.peerMaxFrameSize = 16384)
    (word : server.encoder.maxTableSize < 2 ^ 64) {status : Status} (tellable : Tellable status) :
    ∃ frames, Emits sid .streaming [] (.done (statusTrailers status)) frames server
      (server.command (.submitTrailers sid (finishTrailers status.code status.message))) := by
  obtain ⟨frames, emits⟩ := emits_sendHeaders identifier true size
    (tellable.length_encode server.encoder) fun f begins =>
      StreamStep.trailers begins
        (decodes_encode _ _ word tellable.asciiHeaders tellable.fits)
  refine ⟨frames, ?_⟩
  show Emits _ _ _ _ _ _ ((server.sendHeaders sid Flag.endStream _).closeStream sid)
  rw [copiedHeaders_finishTrailers]
  exact { emits with }

end Emitting

end AsyncNet.Grpc
