/-
This file describes the frames that `do_submit_response` enqueues: one header block, the
body in DATA frames and the trailers in a header block of their own, each of which may
take several frames. It says which of the frames ends the stream, what the blocks are
decoded to, and that the frames can be read off the bytes.

Only the strings of the two header lists can spoil this. The decoder counts the octets
of a string in an `int`, so it loses its place behind a string of 2^31 octets or more.
-/

import AsyncNet.Http.HpackLongString
import AsyncNet.Http.Http2HeaderFields

namespace AsyncNet.Http

open H2

/-! ### What the frames of a response should be -/

/-- The headers of a list with their names in lower case. -/
def lowerNames (headers : Headers) : Headers :=
  headers.map fun header => (toLower header.1, header.2)

/-- The fields that a response is announced with: the status, the content type, the length of a
body, and the other headers but for those that concern the connection. -/
def responseFields (resp : Response) : Headers :=
  [(ascii ":status", toString resp.status.code)] ++
    ((lowerNames resp.hdrs).filter fun header => header.1 = ascii "content-type").take 1 ++
    (if resp.bd = [] then [] else [(ascii "content-length", decimal resp.bd.length)]) ++
    (lowerNames resp.hdrs).filter fun header => header.1 ∉
      [ascii "content-type", ascii "content-length", ascii "connection",
        ascii "transfer-encoding"]

/-- A header block in frames: a HEADERS frame and the CONTINUATION frames right behind it, of
which the last one ends the block. -/
inductive SpellsBlock (sid : Nat) (endStream : Bool) : List Frame → Bytes → Prop
  | whole {f : Frame} {block : Bytes} (begins : BeginsBlock sid true endStream f block) :
      SpellsBlock sid endStream [f] block
  | continued {f : Frame} {frames : List Frame} {fragment tail : Bytes}
      (begins : BeginsBlock sid false endStream f fragment)
      (continues : ContinuesBlock sid frames tail) :
      SpellsBlock sid endStream (f :: frames) (fragment ++ tail)

/-- The frame ends its stream. -/
def H2.Frame.endsStream (f : Frame) : Bool := f.hdr.hasFlag Flag.endStream

/-- A frame of the kinds that may end a stream. -/
def H2.Frame.mayEnd (f : Frame) : Bool := f.hdr.type = .headers || f.hdr.type = .data

/-- Just one of the frames ends the stream: the last HEADERS or DATA frame. -/
def EndsOnce (frames : List Frame) : Prop :=
  frames.filter Frame.endsStream = (frames.filter Frame.mayEnd).getLast?.toList

/-- A response on its stream in three parts: a header block, the body in DATA frames, and a header
block for the trailers if there are any. The blocks may be any. -/
structure ResponseShape (sid : Nat) (resp : Response) (opening data closing : List Frame)
    (block trailersBlock : Bytes) : Prop where
  opens : SpellsBlock sid (resp.bd = [] ∧ resp.trailers = []) opening block
  carries : ∀ f ∈ data, f.hdr.type = .data ∧ f.hdr.streamId = sid ∧
    f.hdr.hasFlag Flag.padded = false
  body : data.flatMap Frame.payload = resp.bd
  closes : if resp.trailers = [] then closing = []
    else SpellsBlock sid true closing trailersBlock
  endsOnce : EndsOnce (opening ++ data ++ closing)

/-- The frames are those of a response that is complete. -/
def CompleteResponse (sid : Nat) (resp : Response) (frames : List Frame) : Prop :=
  ∃ opening data closing block trailersBlock, frames = opening ++ data ++ closing ∧
    ResponseShape sid resp opening data closing block trailersBlock

/-- The frames are those of a response, and its fields and its trailers can be read off. -/
def FramesResponse (sid : Nat) (resp : Response) (frames : List Frame) : Prop :=
  ∃ opening data closing block trailersBlock, frames = opening ++ data ++ closing ∧
    ResponseShape sid resp opening data closing block trailersBlock ∧
    Decodes block (responseFields resp) ∧
    (resp.trailers ≠ [] → Decodes trailersBlock (lowerNames resp.trailers))

namespace Connection

/-- The bytes that a call has added to the output. -/
def enqueued (before after : Connection) : Bytes := after.outputBuf.drop before.outputBuf.length

/-- The frames in them. -/
def enqueuedFrames (before after : Connection) : List Frame :=
  parseFrames (enqueued before after).length (enqueued before after)

/-- `do_submit_response` enqueues the frames of the response and nothing else. -/
def SubmitsFramed (connection : Connection) (sid : Nat) (resp : Response) : Prop :=
  (connection.doSubmitResponse sid resp).outputBuf = connection.outputBuf ++
      (enqueuedFrames connection (connection.doSubmitResponse sid resp)).flatMap Frame.wire ∧
    FramesResponse sid resp (enqueuedFrames connection (connection.doSubmitResponse sid resp))

/-! ### The header lists -/

theorem copiedHeaders_nil (headers : Headers) :
    copiedHeaders [] headers = lowerNames headers := by
  refine List.filter_eq_self.mpr fun header _ => ?_
  exact decide_eq_true List.not_mem_nil

/-- The first header of a name, with its name in lower case. -/
theorem take_filter_lowerNames (headers : Headers) (name lowered : Bytes)
    (lower : toLower name = lowered) :
    ((lowerNames headers).filter fun header => header.1 = lowered).take 1 =
      match Headers.get headers name with
      | none => []
      | some value => [(lowered, value)] := by
  rw [List.take_one, List.head?_filter, lowerNames, List.find?_map, Headers.get, lower]
  show ((headers.find? fun header => decide (toLower header.1 = lowered)).map _).toList = _
  cases found : headers.find? fun header => decide (toLower header.1 = lowered) with
  | none => rfl
  | some header =>
    have same := List.find?_some found
    show [(toLower header.1, header.2)] = [(lowered, header.2)]
    rw [of_decide_eq_true same]

theorem responseHeaders_eq_responseFields (resp : Response) :
    responseHeaders resp = responseFields resp := by
  unfold responseHeaders responseStart responseFields
  rw [take_filter_lowerNames resp.hdrs (ascii "Content-Type") _ (by decide), ite_not]
  rfl

end Connection

/-! ### The parts of the frames -/

section Parts

variable (sid size : Nat) (positive : 0 < size)

theorem endsStream_ofPayload (type : FrameType) (flags : UInt8) (payload : Bytes) :
    (Frame.ofPayload type flags sid payload).endsStream = (flags &&& Flag.endStream != 0) := rfl

theorem splitInto_nil (type : FrameType) (lastFlags : UInt8) (count : Nat) :
    splitInto type lastFlags sid size count [] = [] := by
  cases count <;> rfl

theorem splitInto_ne_nil (type : FrameType) (lastFlags : UInt8) (count : Nat) (rest : Bytes)
    (enough : rest.length ≤ count) (nonempty : rest ≠ []) :
    splitInto type lastFlags sid size count rest ≠ [] := by
  cases count with
  | zero => exact absurd (List.length_eq_zero_iff.mp (Nat.le_zero.mp enough)) nonempty
  | succ count =>
    rw [splitInto, if_neg nonempty]
    exact List.cons_ne_nil _ _

include positive

theorem length_drop_le (count : Nat) (rest : Bytes) (enough : rest.length ≤ count + 1) :
    (rest.drop size).length ≤ count := by
  rw [List.length_drop]
  omega

/-- Of the frames that something is split into the last one ends the stream, if its flags say
so. -/
theorem filter_endsStream_splitInto (type : FrameType) (lastFlags : UInt8) (count : Nat)
    (rest : Bytes) (enough : rest.length ≤ count) :
    (splitInto type lastFlags sid size count rest).filter Frame.endsStream =
      if lastFlags &&& Flag.endStream != 0 then
        (splitInto type lastFlags sid size count rest).getLast?.toList else [] := by
  induction count generalizing rest with
  | zero => exact (ite_self []).symm
  | succ count inductionHypothesis =>
    have fewer := length_drop_le size positive count rest enough
    unfold splitInto
    by_cases nonempty : rest = []
    · rw [if_pos nonempty]
      exact (ite_self []).symm
    · rw [if_neg nonempty]
      by_cases last : rest.drop size = []
      · rw [if_pos last, last, splitInto_nil, List.filter_singleton, endsStream_ofPayload,
          Bool.cond_eq_ite]
        rfl
      · have more := splitInto_ne_nil sid size type lastFlags count _ fewer last
        rw [if_neg last, List.filter_cons_of_neg (by rw [endsStream_ofPayload]; decide),
          inductionHypothesis (rest.drop size) fewer, List.getLast?_cons_of_ne_nil more]

omit positive in
theorem filter_mayEnd_splitInto (type : FrameType) (lastFlags : UInt8) (count : Nat)
    (rest : Bytes) :
    (splitInto type lastFlags sid size count rest).filter Frame.mayEnd =
      if type = .headers ∨ type = .data then splitInto type lastFlags sid size count rest
        else [] := by
  have same : ∀ f ∈ splitInto type lastFlags sid size count rest, f.hdr.type = type := by
    intro f member
    obtain ⟨flags, piece, _, rfl⟩ := mem_splitInto _ _ _ _ _ _ member
    rfl
  split
  · rename_i may
    refine List.filter_eq_self.mpr fun f member => ?_
    rw [Frame.mayEnd, same f member]
    simpa using may
  · rename_i never
    refine List.filter_eq_nil_iff.mpr fun f member => ?_
    rw [Frame.mayEnd, same f member]
    simpa using never

/-- Of the frames of a header block only the first one may end the stream. -/
theorem filter_headerFrames (endStream : Bool) (block : Bytes) :
    ∃ first,
      (headerFrames sid (if endStream then Flag.endStream else 0) size block).filter
          Frame.endsStream = (if endStream then [first] else []) ∧
        (headerFrames sid (if endStream then Flag.endStream else 0) size block).filter
          Frame.mayEnd = [first] := by
  have whole := (blockFlags_spec true endStream).2.1
  have cut := (blockFlags_spec false endStream).2.1
  unfold headerFrames
  split
  · rw [(blockFlags_eq endStream).1]
    refine ⟨.ofPayload .headers (blockFlags true endStream) sid block, ?_, rfl⟩
    rw [List.filter_singleton, endsStream_ofPayload, whole, Bool.cond_eq_ite]
  · have rest := filter_endsStream_splitInto sid size positive .continuation Flag.endHeaders
      block.length (block.drop size) (by rw [List.length_drop]; omega)
    rw [if_neg (by decide)] at rest
    rw [(blockFlags_eq endStream).2]
    refine ⟨.ofPayload .headers (blockFlags false endStream) sid (block.take size), ?_, ?_⟩
    · rw [List.filter_cons, endsStream_ofPayload, cut, rest]
    · rw [List.filter_cons_of_pos rfl, filter_mayEnd_splitInto, if_neg (by decide)]

/-- Of the DATA frames only the last one ends the stream, and none does when trailers follow. -/
theorem filter_bodyFrames (noEndStream : Bool) (body : Bytes) :
    (bodyFrames sid noEndStream size body).filter Frame.endsStream =
        (if noEndStream then [] else (bodyFrames sid noEndStream size body).getLast?.toList) ∧
      (bodyFrames sid noEndStream size body).filter Frame.mayEnd =
        bodyFrames sid noEndStream size body := by
  unfold bodyFrames
  rw [filter_endsStream_splitInto sid size positive _ _ _ body le_rfl, filter_mayEnd_splitInto,
    if_pos (Or.inr rfl)]
  cases noEndStream <;> exact ⟨rfl, rfl⟩

/-- The payloads of what is split are the whole again. -/
theorem flatMap_payload_splitInto (type : FrameType) (lastFlags : UInt8) (count : Nat)
    (rest : Bytes) (enough : rest.length ≤ count) :
    (splitInto type lastFlags sid size count rest).flatMap Frame.payload = rest := by
  induction count generalizing rest with
  | zero => exact (List.length_eq_zero_iff.mp (Nat.le_zero.mp enough)).symm
  | succ count inductionHypothesis =>
    unfold splitInto
    split
    · rename_i empty
      rw [empty]
      rfl
    · rw [List.flatMap_cons,
        inductionHypothesis _ (length_drop_le size positive count rest enough)]
      exact List.take_append_drop size rest

/-- A header block that is sent is spelled out by its frames. -/
theorem spellsBlock_headerFrames (endStream : Bool) (block : Bytes) :
    SpellsBlock sid endStream
      (headerFrames sid (if endStream then Flag.endStream else 0) size block) block := by
  unfold headerFrames
  split
  · rw [(blockFlags_eq endStream).1]
    exact .whole (begins_ofPayload sid true endStream block)
  · rename_i long
    rw [(blockFlags_eq endStream).2]
    have rest : ContinuesBlock sid _ (block.drop size) := continues_drop positive block long
    have spelled := SpellsBlock.continued
      (begins_ofPayload sid false endStream (block.take size)) rest
    rwa [List.take_append_drop] at spelled

/-- A message ends its stream once, with its last HEADERS or DATA frame. -/
theorem endsOnce_messageFrames (message : Message) (block trailersBlock : Bytes) :
    EndsOnce (messageFrames sid size message block trailersBlock) := by
  obtain ⟨first, firstEnds, firstMay⟩ := filter_headerFrames sid size positive message.bare block
  obtain ⟨bodyEnds, bodyMay⟩ :=
    filter_bodyFrames sid size positive message.trailers.isSome message.body
  obtain ⟨last, lastEnds, lastMay⟩ := filter_headerFrames sid size positive true trailersBlock
  simp only [if_true] at lastEnds lastMay
  unfold EndsOnce messageFrames
  rw [List.filter_append, List.filter_append, List.filter_append, List.filter_append, firstEnds,
    firstMay, bodyEnds, bodyMay]
  -- The trailers end the stream if there are any, else the body, else the header block.
  cases present : message.trailers.isSome with
  | true =>
    have open' : message.bare = false := by
      rw [Message.bare, ← Option.not_isSome, present, Bool.not_true, Bool.and_false]
    simp only [open', if_true, lastEnds, lastMay, Bool.false_eq_true, if_false, List.nil_append,
      List.getLast?_append_cons, List.getLast?_singleton, Option.toList_some]
  | false =>
    have bare : message.bare = message.body.isEmpty := by
      rw [Message.bare, ← Option.not_isSome, present, Bool.not_false, Bool.and_true]
    simp only [bare, Bool.false_eq_true, if_false, List.filter_nil, List.append_nil]
    cases empty : message.body with
    | nil => rfl
    | cons byte rest =>
      have nonempty : bodyFrames sid false size (byte :: rest) ≠ [] :=
        splitInto_ne_nil sid size _ _ _ _ le_rfl (List.cons_ne_nil byte rest)
      rw [List.isEmpty_cons, if_neg Bool.false_ne_true, List.nil_append,
        List.getLast?_append_of_ne_nil _ nonempty]

omit positive in
theorem flags_of_mem_splitInto (type : FrameType) (lastFlags : UInt8) (count : Nat) (rest : Bytes)
    (f : Frame) (member : f ∈ splitInto type lastFlags sid size count rest) :
    f.hdr.flags = lastFlags ∨ f.hdr.flags = 0 := by
  induction count generalizing rest with
  | zero => exact absurd member List.not_mem_nil
  | succ count inductionHypothesis =>
    unfold splitInto at member
    split at member
    · exact absurd member List.not_mem_nil
    · rcases List.mem_cons.mp member with rfl | later
      · exact ite_eq_or_eq _ _ _
      · exact inductionHypothesis _ later

omit positive in
theorem isData_of_mem_bodyFrames (noEndStream : Bool) (body : Bytes) (f : Frame)
    (member : f ∈ bodyFrames sid noEndStream size body) :
    f.hdr.type = .data ∧ f.hdr.streamId = sid ∧ f.hdr.hasFlag Flag.padded = false := by
  have unpadded : ∀ noEndStream : Bool,
      ((if noEndStream then 0 else Flag.endStream) &&& Flag.padded != 0) = false := by decide
  have flags := flags_of_mem_splitInto sid size _ _ _ _ f member
  obtain ⟨_, piece, _, rfl⟩ := mem_splitInto _ _ _ _ _ _ member
  refine ⟨rfl, rfl, ?_⟩
  rw [FrameHeader.hasFlag]
  rcases flags with is | is
  · rw [is]
    exact unpadded noEndStream
  · rw [is]
    rfl

/-- What is sent for a response has its shape. -/
theorem responseShape_messageFrames (resp : Response) (block trailersBlock : Bytes) :
    ∃ opening data closing,
      messageFrames sid size (responseMessage resp) block trailersBlock =
        opening ++ data ++ closing ∧
      ResponseShape sid resp opening data closing block trailersBlock := by
  refine ⟨_, _, _, rfl, ?_⟩
  have bare : decide (resp.bd = [] ∧ resp.trailers = []) = (responseMessage resp).bare := by
    rw [Bool.eq_iff_iff, Connection.bare_responseMessage, decide_eq_true_eq]
    simp only [ne_eq, not_or, not_not]
  refine ⟨?_, ?_, ?_, ?_, endsOnce_messageFrames sid size positive _ block trailersBlock⟩
  · rw [bare]
    exact spellsBlock_headerFrames sid size positive _ block
  · exact isData_of_mem_bodyFrames sid size _ _
  · exact flatMap_payload_splitInto sid size positive _ _ _ _ le_rfl
  · rw [Connection.isSome_trailers]
    split
    · rename_i none
      rw [decide_eq_false (not_not.mpr none)]
      rfl
    · rename_i some'
      rw [decide_eq_true some', if_pos rfl]
      exact spellsBlock_headerFrames sid size positive true trailersBlock

end Parts

/-! ### Frames and bytes -/

theorem length_le_flatMap_wire (frames : List Frame) :
    frames.length ≤ (frames.flatMap Frame.wire).length := by
  induction frames with
  | nil => exact Nat.zero_le _
  | cons f frames inductionHypothesis =>
    have nine : f.wire.length = 9 + f.payload.length := List.length_append
    rw [List.flatMap_cons, List.length_append, List.length_cons, nine]
    omega

/-- What is enqueued in proper frames is read as these frames. -/
theorem Connection.enqueuedFrames_eq {before after : Connection} {frames : List Frame}
    (output : after.outputBuf = before.outputBuf ++ frames.flatMap Frame.wire)
    (proper : ∀ f ∈ frames, f.Proper) : enqueuedFrames before after = frames := by
  have bytes : enqueued before after = frames.flatMap Frame.wire := by
    rw [enqueued, output, List.drop_left]
  rw [enqueuedFrames, bytes]
  exact parseFrames_flatMap_wire frames proper _ (length_le_flatMap_wire frames)

/-! ### The strings of the blocks -/

theorem asciiHeaders_lowerNames (headers : Headers) (isAscii : AsciiHeaders headers) :
    AsciiHeaders (lowerNames headers) := by
  rw [← Connection.copiedHeaders_nil]
  exact asciiHeaders_copiedHeaders [] headers isAscii

theorem asciiHeaders_responseFields (resp : Response) (isAscii : AsciiHeaders resp.hdrs) :
    AsciiHeaders (responseFields resp) := by
  rw [← Connection.responseHeaders_eq_responseFields]
  exact asciiHeaders_responseHeaders resp isAscii

/-- The strings of the two header lists of a response take fewer than 2^31 octets each. -/
def Response.StringsFit (resp : Response) : Prop :=
  ∀ header ∈ responseFields resp ++ lowerNames resp.trailers, Fits header

instance (resp : Response) : Decidable resp.StringsFit :=
  inferInstanceAs (Decidable (∀ header ∈ responseFields resp ++ lowerNames resp.trailers, _))

/-- The decoder counts the octets of the string wrongly, whatever follows it. -/
def Misread (text : Bytes) : Prop :=
  ∀ rest, decodeString (encodeString text ++ rest) ≠ .ok (text, ((encodeString text).length : Int))

theorem wrapInt32_lt (value : Int) : wrapInt32 value < 2 ^ 31 := by
  unfold wrapInt32
  omega

/-- The count of octets that the decoder returns is an `int`. -/
theorem decodeString_count_lt (data text : Bytes) (count : Int)
    (read : decodeString data = .ok (text, count)) : count < 2 ^ 31 := by
  cases found : hpackDecodeInt data 7 with
  | none =>
    rw [decodeString, found] at read
    obtain ⟨-, rfl⟩ := Prod.mk.inj (Except.ok.inj read)
    decide
  | some header =>
    obtain ⟨strLen, consumed⟩ := header
    rw [decodeString, found] at read
    dsimp only at read
    split at read
    · obtain ⟨-, rfl⟩ := Prod.mk.inj (Except.ok.inj read)
      decide
    · split at read
      · split at read
        · split at read
          · obtain ⟨-, rfl⟩ := Prod.mk.inj (Except.ok.inj read)
            exact wrapInt32_lt _
          · cases read
        · cases read
      · obtain ⟨-, rfl⟩ := Prod.mk.inj (Except.ok.inj read)
        exact wrapInt32_lt _

theorem misread_of_long (text : Bytes) (long : ¬ (encodeString text).length < 2 ^ 31) :
    Misread text := by
  intro rest read
  have small := decodeString_count_lt _ _ _ read
  omega

/-- A list that does not fit has such a string. -/
theorem exists_misread {headers : Headers} (overlong : ¬ ∀ header ∈ headers, Fits header) :
    ∃ header ∈ headers, Misread header.1 ∨ Misread header.2 := by
  simp only [not_forall] at overlong
  obtain ⟨header, member, long⟩ := overlong
  refine ⟨header, member, ?_⟩
  rcases not_and_or.mp long with name | value
  · exact Or.inl (misread_of_long header.1 name)
  · exact Or.inr (misread_of_long header.2 value)

/-! ### Responses -/

/-- Whatever the response, its frames are those of a response unless one of its strings takes 2^31
octets or more in its block, and such a string the decoder cannot get past. -/
theorem submitsFramed_doSubmitResponse (connection : Connection) (sid : Nat) (resp : Response)
    (identifier : sid < 2 ^ 31) (word : connection.encoder.maxTableSize < 2 ^ 64)
    (least : 16384 ≤ connection.peerMaxFrameSize)
    (most : connection.peerMaxFrameSize ≤ 16777215)
    (isAscii : AsciiHeaders resp.hdrs) (trailersAscii : AsciiHeaders resp.trailers) :
    (resp.StringsFit → connection.SubmitsFramed sid resp) ∧
      (¬ resp.StringsFit → ∃ header ∈ responseFields resp ++ lowerNames resp.trailers,
        Misread header.1 ∨ Misread header.2) := by
  refine ⟨fun fits => ?_, exists_misread⟩
  obtain ⟨encoder, sameSize, moves⟩ := connection.moves_doSubmitResponse sid resp
  have frames := Connection.enqueuedFrames_eq moves.outputBuf
    (proper_messageFrames sid _ _ _ _ identifier (by omega))
  unfold Connection.SubmitsFramed
  rw [frames]
  obtain ⟨opening, data, closing, parts, shape⟩ :=
    responseShape_messageFrames sid connection.peerMaxFrameSize (by omega) resp _ _
  refine ⟨moves.outputBuf, opening, data, closing, _, _, parts, shape, ?_, fun _ => ?_⟩
  · rw [Connection.responseHeaders_eq_responseFields]
    exact decodes_encode _ _ word (asciiHeaders_responseFields resp isAscii)
      fun header member => fits header (List.mem_append_left _ member)
  · rw [Connection.copiedHeaders_nil]
    exact decodes_encode _ _ (sameSize ▸ word) (asciiHeaders_lowerNames _ trailersAscii)
      fun header member => fits header (List.mem_append_right _ member)

/-- A response with a content type, a body and a trailer on a new server. -/
theorem submitsFramed_greeting :
    let resp : Response :=
      { hdrs := [(ascii "Content-Type", ascii "text/plain"), (ascii "X-Id", ascii "7")]
        bd := ascii "hello"
        trailers := [(ascii "X-Sum", ascii "5d")] }
    (Connection.create .server).SubmitsFramed 1 resp :=
  (submitsFramed_doSubmitResponse (Connection.create .server) 1 _ (by decide) (by decide)
    (by decide) (by decide) (by decide) (by decide)).1 (by decide +kernel)

/-! ### A string that is too long -/

theorem ContinuesBlock.ne_nil {sid : Nat} {frames : List Frame} {tail : Bytes}
    (continues : ContinuesBlock sid frames tail) : frames ≠ [] := by
  cases continues <;> exact List.cons_ne_nil _ _

theorem ContinuesBlock.unique {sid : Nat} {frames : List Frame} {first second : Bytes}
    (one : ContinuesBlock sid frames first) (other : ContinuesBlock sid frames second) :
    first = second := by
  induction one generalizing second with
  | last f =>
    cases other with
    | last => rfl
    | more _ _ _ _ next => exact absurd rfl next.ne_nil
  | more f _ _ _ next inductionHypothesis =>
    cases other with
    | last => exact absurd rfl next.ne_nil
    | more _ _ _ _ later => rw [inductionHypothesis later]

/-- Frames spell out one block. -/
theorem SpellsBlock.unique {sid : Nat} {endStream endStream' : Bool} {frames : List Frame}
    {first second : Bytes} (one : SpellsBlock sid endStream frames first)
    (other : SpellsBlock sid endStream' frames second) : first = second := by
  cases one with
  | whole begins =>
    cases other with
    | whole begins' => exact Except.ok.inj (begins.fragment.symm.trans begins'.fragment)
    | continued _ continues => exact absurd rfl continues.ne_nil
  | continued begins continues =>
    cases other with
    | whole => exact absurd rfl continues.ne_nil
    | continued begins' continues' =>
      rw [Except.ok.inj (begins.fragment.symm.trans begins'.fragment),
        continues.unique continues']

/-- The frames of a response without body and trailers are those of its header block. -/
theorem FramesResponse.decodes {sid size : Nat} {resp : Response} {block : Bytes}
    (framed : FramesResponse sid resp (headerFrames sid Flag.endStream size block))
    (positive : 0 < size) (bare : resp.trailers = []) :
    Decodes block (responseFields resp) := by
  obtain ⟨opening, data, closing, block', trailersBlock, split, parts, fields, -⟩ := framed
  have closed : closing = [] := by
    have closes := parts.closes
    rwa [if_pos bare] at closes
  have noData : data = [] := by
    refine List.eq_nil_iff_forall_not_mem.mpr fun f member => ?_
    have inside : f ∈ headerFrames sid Flag.endStream size block := by
      rw [split]
      exact List.mem_append_left _ (List.mem_append_right _ member)
    obtain ⟨type, flags, piece, kind, -, rfl⟩ := mem_headerFrames _ _ _ _ inside
    have isData : type = .data := (parts.carries _ member).1
    rcases kind with rfl | rfl
    · cases isData
    · cases isData
  rw [closed, noData, List.append_nil, List.append_nil] at split
  have spelled := spellsBlock_headerFrames sid size positive true block
  rw [if_pos rfl, split] at spelled
  rw [spelled.unique parts.opens]
  exact fields

theorem responseFields_single (value : Bytes) :
    responseFields { hdrs := [(ascii "a", value)] } =
      [(ascii ":status", ascii "200")] ++ [(ascii "a", value)] := by
  have lowered : lowerNames [(ascii "a", value)] = [(ascii "a", value)] := by
    rw [lowerNames, List.map_singleton, show toLower (ascii "a") = ascii "a" by decide]
  have other : decide (ascii "a" = ascii "content-type") = false := by decide
  have kept : decide (ascii "a" ∉ [ascii "content-type", ascii "content-length",
      ascii "connection", ascii "transfer-encoding"]) = true := by decide
  unfold responseFields
  dsimp only
  rw [lowered, List.filter_singleton, List.filter_singleton]
  dsimp only
  rw [other, kept, if_pos rfl, show toString 200 = ascii "200" by decide]
  rfl

/-- A response with one header is not framed if the decoder makes nothing of its block. -/
theorem not_submitsFramed_of_rejected (connection : Connection) (sid : Nat) (value : Bytes)
    (identifier : sid < 2 ^ 31) (least : 16384 ≤ connection.peerMaxFrameSize)
    (most : connection.peerMaxFrameSize ≤ 16777215) (decoder : HpackDecoder)
    (rejected : ∃ after, decoder.decode (connection.encoder.encode
      ([(ascii ":status", ascii "200")] ++ [(ascii "a", value)])).1 = .ok ([], after)) :
    ¬ connection.SubmitsFramed sid { hdrs := [(ascii "a", value)] } := by
  intro framed
  obtain ⟨encoder, -, moves⟩ := connection.moves_doSubmitResponse sid
    { hdrs := [(ascii "a", value)] }
  have frames := Connection.enqueuedFrames_eq moves.outputBuf
    (proper_messageFrames sid _ _ _ _ identifier (by omega))
  have bare := framed.2
  rw [frames, Connection.responseHeaders_eq_responseFields] at bare
  have opening : messageFrames sid connection.peerMaxFrameSize
      (responseMessage { hdrs := [(ascii "a", value)] })
      (connection.encoder.encode (responseFields { hdrs := [(ascii "a", value)] })).1
      (encoder.encode (Connection.copiedHeaders [] [])).1 =
      headerFrames sid Flag.endStream connection.peerMaxFrameSize
        (connection.encoder.encode (responseFields { hdrs := [(ascii "a", value)] })).1 :=
    (List.append_nil _).trans (List.append_nil _)
  rw [opening] at bare
  obtain ⟨after, decoded⟩ := bare.decodes (by omega) rfl decoder
  obtain ⟨after', rejects⟩ := rejected
  rw [responseFields_single, rejects] at decoded
  exact absurd (Prod.mk.inj (Except.ok.inj decoded)).1 (List.cons_ne_nil _ _).symm

/-- The decoder rejects the header block of a response with a header of 2^32 letters. -/
theorem not_submitsFramed_overlong :
    AsciiHeaders [(ascii "a", letters (2 ^ 32))] ∧
      ¬ (Connection.create .server).SubmitsFramed 1
        { hdrs := [(ascii "a", letters (2 ^ 32))] } := by
  refine ⟨fun header member => ?_, ?_⟩
  · rw [List.mem_singleton.mp member]
    exact ⟨show IsAscii (ascii "a") by decide, isAscii_letters (2 ^ 32)⟩
  · refine not_submitsFramed_of_rejected _ 1 _ (by decide) (by decide) (by decide) {} ?_
    exact decode_overlong _ {} [(ascii ":status", ascii "200")] (by decide) (by decide)
      (by decide +kernel)

end AsyncNet.Http
