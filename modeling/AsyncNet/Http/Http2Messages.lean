/-
This file describes what two sessions send each other: messages, each of which is a
header block, a body and perhaps trailers in consecutive frames on one stream, and
between the messages the frames that only concern the connection. The frames that a
session has still to read spell out a list of messages, the first of which may have
been read in part. What a session sends for a request or a response spells out that
message.
-/

import AsyncNet.Http.Http2Continuation
import AsyncNet.Http.Http2Wire

namespace AsyncNet.Http

open H2

/-! ### Messages -/

/-- A request or a response on its stream. -/
structure Message where
  headers : Headers
  body : Bytes
  trailers : Option Headers

/-- Whether the header block ends the stream. -/
def Message.bare (message : Message) : Bool := message.body.isEmpty && message.trailers.isNone

/-- How much of a message has been read: so many bytes of the header block, or the header block and
so many bytes of the body, or the body and so many bytes of the trailers. -/
inductive Progress where
  | start
  | headers (taken : Bytes)
  | body (taken : Bytes)
  | trailers (taken : Bytes)
  | done

/-- What follows the header block. -/
def Message.afterHeaders (message : Message) : Progress :=
  if message.bare then .done else .body []

/-- Every decoder reads the block as these headers. -/
def Decodes (block : Bytes) (headers : Headers) : Prop :=
  ∀ decoder : HpackDecoder, ∃ after, decoder.decode block = .ok (headers, after)

/-- A DATA frame without padding. -/
structure IsData (sid : Nat) (endStream : Bool) (f : Frame) : Prop where
  type : f.hdr.type = .data
  streamId : f.hdr.streamId = sid
  endStream : f.hdr.hasFlag Flag.endStream = endStream
  padded : f.hdr.hasFlag Flag.padded = false
  short : f.payload.length ≤ 16384

/-- A CONTINUATION frame. -/
structure IsContinuation (sid : Nat) (endHeaders : Bool) (f : Frame) : Prop where
  type : f.hdr.type = .continuation
  streamId : f.hdr.streamId = sid
  endHeaders : f.hdr.hasFlag Flag.endHeaders = endHeaders

/-- A frame takes the reader of a message a step on. -/
inductive Advance (sid : Nat) (message : Message) : Progress → Frame → Progress → Prop
  | headersWhole {f : Frame} {block : Bytes} (begins : BeginsBlock sid true message.bare f block)
      (decodes : Decodes block message.headers) : Advance sid message .start f message.afterHeaders
  | headersBegin {f : Frame} {fragment : Bytes}
      (begins : BeginsBlock sid false message.bare f fragment) :
      Advance sid message .start f (.headers fragment)
  | headersMore {f : Frame} {taken : Bytes} (continues : IsContinuation sid false f) :
      Advance sid message (.headers taken) f (.headers (taken ++ f.payload))
  | headersLast {f : Frame} {taken : Bytes} (continues : IsContinuation sid true f)
      (decodes : Decodes (taken ++ f.payload) message.headers) :
      Advance sid message (.headers taken) f message.afterHeaders
  | data {f : Frame} {taken : Bytes} (isData : IsData sid false f) :
      Advance sid message (.body taken) f (.body (taken ++ f.payload))
  | dataLast {f : Frame} {taken : Bytes} (isData : IsData sid true f)
      (complete : taken ++ f.payload = message.body) (last : message.trailers = none) :
      Advance sid message (.body taken) f .done
  | trailersWhole {f : Frame} {block : Bytes} {trailers : Headers}
      (given : message.trailers = some trailers) (begins : BeginsBlock sid true true f block)
      (decodes : Decodes block trailers) : Advance sid message (.body message.body) f .done
  | trailersBegin {f : Frame} {fragment : Bytes} {trailers : Headers}
      (given : message.trailers = some trailers) (begins : BeginsBlock sid false true f fragment) :
      Advance sid message (.body message.body) f (.trailers fragment)
  | trailersMore {f : Frame} {taken : Bytes} {trailers : Headers}
      (given : message.trailers = some trailers) (continues : IsContinuation sid false f) :
      Advance sid message (.trailers taken) f (.trailers (taken ++ f.payload))
  | trailersLast {f : Frame} {taken : Bytes} {trailers : Headers}
      (given : message.trailers = some trailers) (continues : IsContinuation sid true f)
      (decodes : Decodes (taken ++ f.payload) trailers) :
      Advance sid message (.trailers taken) f .done

theorem advance_ne_start {sid : Nat} {message : Message} {f : Frame} {before after : Progress}
    (advance : Advance sid message before f after) : after ≠ .start := by
  have afterHeaders : message.afterHeaders ≠ .start := by
    unfold Message.afterHeaders
    split <;> exact fun wrong => Progress.noConfusion wrong
  cases advance with
  | headersWhole => exact afterHeaders
  | headersLast => exact afterHeaders
  | _ => exact fun wrong => Progress.noConfusion wrong

/-! ### Frames of the connection -/

/-- The settings that a session sends first. -/
def initialSettings : List SettingEntry :=
  [⟨.maxConcurrentStreams, 100⟩, ⟨.initialWindowSize, 65535⟩, ⟨.maxHeaderListSize, 8192⟩,
    ⟨.enablePush, 1⟩]

def settingsFrame : Frame := .ofPayload .settings Flag.none 0 (initialSettings.flatMap putSetting)

def settingsAck : Frame := .ofPayload .settings Flag.ack 0 []

def windowUpdateFrame (sid increment : Nat) : Frame :=
  .ofPayload .windowUpdate 0 sid (putUint32 (increment % 2 ^ 31))

/-- The frames that two sessions exchange besides messages. -/
inductive IsControl : Frame → Prop
  | settings : IsControl settingsFrame
  | ack : IsControl settingsAck
  | windowUpdate {sid increment : Nat} (identifier : sid < 2 ^ 31) (positive : 0 < increment)
      (small : increment < 2 ^ 31) : IsControl (windowUpdateFrame sid increment)

/-! ### What frames spell out -/

/-- A message that has been read in part, if there is one. -/
abbrev Reading := Option (Nat × Message × Progress)

/-- What is being read when a message has been read up to a point: nothing once it is done. -/
def current (sid : Nat) (message : Message) : Progress → Reading
  | .done => none
  | progress => some (sid, message, progress)

/-- The frames take the message that has been read in part to its end, and then spell out the
messages of a list. -/
inductive Spells : Reading → List Frame → List (Nat × Message) → Prop
  | nothing : Spells none [] []
  | control {f : Frame} {frames : List Frame} {messages : List (Nat × Message)}
      (control : IsControl f) (later : Spells none frames messages) :
      Spells none (f :: frames) messages
  | start {sid : Nat} {message : Message} {f : Frame} {progress : Progress} {frames : List Frame}
      {messages : List (Nat × Message)} (advance : Advance sid message .start f progress)
      (later : Spells (current sid message progress) frames messages) :
      Spells none (f :: frames) ((sid, message) :: messages)
  | next {sid : Nat} {message : Message} {f : Frame} {before after : Progress}
      {frames : List Frame} {messages : List (Nat × Message)}
      (advance : Advance sid message before f after)
      (later : Spells (current sid message after) frames messages) :
      Spells (some (sid, message, before)) (f :: frames) messages

theorem Spells.append {reading : Reading} {frames more : List Frame}
    {messages others : List (Nat × Message)} (first : Spells reading frames messages)
    (second : Spells none more others) :
    Spells reading (frames ++ more) (messages ++ others) := by
  induction first with
  | nothing => exact second
  | control control later inductionHypothesis => exact .control control inductionHypothesis
  | start advance later inductionHypothesis => exact .start advance inductionHypothesis
  | next advance later inductionHypothesis => exact .next advance inductionHypothesis

theorem Spells.of_controls (frames : List Frame) (controls : ∀ f ∈ frames, IsControl f) :
    Spells none frames [] := by
  induction frames with
  | nil => exact .nothing
  | cons f frames inductionHypothesis =>
    exact .control (controls f List.mem_cons_self)
      (inductionHypothesis fun g member => controls g (List.mem_cons_of_mem f member))

/-- Nothing is left to be read when no frame is. -/
theorem Spells.eq_nil {reading : Reading}
    {messages : List (Nat × Message)} (spells : Spells reading [] messages) :
    reading = none ∧ messages = [] := by
  cases spells
  exact ⟨rfl, rfl⟩

/-! ### The frames of a message -/

/-- The frames that `splitFrames` writes. -/
def splitInto (type : FrameType) (lastFlags : UInt8) (sid size : Nat) : Nat → Bytes → List Frame
  | 0, _ => []
  | count + 1, rest =>
      if rest = [] then []
      else
        .ofPayload type (if rest.drop size = [] then lastFlags else 0) sid (rest.take size) ::
          splitInto type lastFlags sid size count (rest.drop size)

/-- The frames that `build_headers_frame` writes. -/
def headerFrames (sid : Nat) (flags : UInt8) (size : Nat) (block : Bytes) : List Frame :=
  if block.length ≤ size then [.ofPayload .headers (flags ||| Flag.endHeaders) sid block]
  else
    .ofPayload .headers flags sid (block.take size) ::
      splitInto .continuation Flag.endHeaders sid size block.length (block.drop size)

/-- The frames that `build_data_frames` writes for a body, if there is one. -/
def bodyFrames (sid : Nat) (noEndStream : Bool) (size : Nat) (body : Bytes) : List Frame :=
  splitInto .data (if noEndStream then 0 else Flag.endStream) sid size body.length body

/-- The frames of a message whose blocks are given. -/
def messageFrames (sid size : Nat) (message : Message) (block trailersBlock : Bytes) : List Frame :=
  headerFrames sid (if message.bare then Flag.endStream else 0) size block ++
    bodyFrames sid message.trailers.isSome size message.body ++
    if message.trailers.isSome then headerFrames sid Flag.endStream size trailersBlock else []

section Sending

variable (type : FrameType) (lastFlags : UInt8) (sid size : Nat)

theorem splitFrames_eq (count : Nat) (rest : Bytes) :
    Connection.splitFrames type lastFlags sid size count rest =
      (splitInto type lastFlags sid size count rest).flatMap Frame.wire := by
  induction count generalizing rest with
  | zero => rfl
  | succ count inductionHypothesis =>
    unfold Connection.splitFrames splitInto
    split
    · rfl
    · rw [List.flatMap_cons, inductionHypothesis]
      rfl

theorem proper_ofPayload (known : FrameType.ofByte type.toByte = type) (flags : UInt8)
    (payload : Bytes) (identifier : sid < 2 ^ 31) (short : payload.length < 2 ^ 24) :
    (Frame.ofPayload type flags sid payload).Proper :=
  ⟨rfl, short, identifier, known⟩

/-- What is split comes in frames of one type that carry pieces of at most the size. -/
theorem mem_splitInto (count : Nat) (rest : Bytes) {f : Frame}
    (member : f ∈ splitInto type lastFlags sid size count rest) :
    ∃ flags piece, piece.length ≤ size ∧ f = .ofPayload type flags sid piece := by
  induction count generalizing rest with
  | zero => exact absurd member List.not_mem_nil
  | succ count inductionHypothesis =>
    unfold splitInto at member
    split at member
    · exact absurd member List.not_mem_nil
    · rcases List.mem_cons.mp member with first | later
      · exact ⟨_, _, List.length_take_le size rest, first⟩
      · exact inductionHypothesis _ later

/-- A header block comes in HEADERS and CONTINUATION frames of at most the size. -/
theorem mem_headerFrames (flags : UInt8) (block : Bytes) {f : Frame}
    (member : f ∈ headerFrames sid flags size block) :
    ∃ type flags piece, (type = .headers ∨ type = .continuation) ∧ piece.length ≤ size ∧
      f = .ofPayload type flags sid piece := by
  unfold headerFrames at member
  split at member
  · rename_i fits
    exact ⟨_, _, _, Or.inl rfl, fits, List.mem_singleton.mp member⟩
  · rcases List.mem_cons.mp member with first | later
    · exact ⟨_, _, _, Or.inl rfl, List.length_take_le size block, first⟩
    · obtain ⟨flags, piece, short, is⟩ := mem_splitInto _ _ _ _ _ _ later
      exact ⟨_, flags, piece, Or.inr rfl, short, is⟩

theorem proper_splitInto (known : FrameType.ofByte type.toByte = type) (identifier : sid < 2 ^ 31)
    (small : size < 2 ^ 24) (count : Nat) (rest : Bytes) :
    ∀ f ∈ splitInto type lastFlags sid size count rest, f.Proper := by
  intro f member
  obtain ⟨flags, piece, short, rfl⟩ := mem_splitInto _ _ _ _ _ _ member
  exact proper_ofPayload type sid known flags piece identifier (short.trans_lt small)

theorem proper_headerFrames (flags : UInt8) (block : Bytes) (identifier : sid < 2 ^ 31)
    (small : size < 2 ^ 24) : ∀ f ∈ headerFrames sid flags size block, f.Proper := by
  intro f member
  obtain ⟨type, flags, piece, kind, short, rfl⟩ := mem_headerFrames _ _ _ _ member
  have known : FrameType.ofByte type.toByte = type := by
    rcases kind with rfl | rfl <;> rfl
  exact proper_ofPayload type sid known flags piece identifier (short.trans_lt small)

theorem proper_messageFrames (message : Message) (block trailersBlock : Bytes)
    (identifier : sid < 2 ^ 31) (small : size < 2 ^ 24) :
    ∀ f ∈ messageFrames sid size message block trailersBlock, f.Proper := by
  intro f member
  rcases List.mem_append.mp member with front | trailers
  · rcases List.mem_append.mp front with headers | body
    · exact proper_headerFrames sid size _ _ identifier small f headers
    · exact proper_splitInto .data _ sid size rfl identifier small _ _ f body
  · split at trailers
    · exact proper_headerFrames sid size _ _ identifier small f trailers
    · exact absurd trailers List.not_mem_nil

/-- What is cut off a block comes in CONTINUATION frames. -/
theorem continues_splitInto (positive : 0 < size) (count : Nat) (rest : Bytes)
    (nonempty : rest ≠ [])
    (enough : rest.length ≤ count) :
    ContinuesBlock sid (splitInto .continuation Flag.endHeaders sid size count rest) rest := by
  have set : ∀ last : Bool, ((if last then Flag.endHeaders else 0) &&& Flag.endHeaders != 0) =
    last := by
    decide
  induction count generalizing rest with
  | zero => exact absurd (List.length_eq_zero_iff.mp (Nat.le_zero.mp enough)) nonempty
  | succ count inductionHypothesis =>
    unfold splitInto
    rw [if_neg nonempty]
    by_cases last : rest.drop size = []
    · rw [last, if_pos rfl]
      have all : rest.take size = rest := List.take_of_length_le (List.drop_eq_nil_iff.mp last)
      have none : splitInto .continuation Flag.endHeaders sid size count [] = [] := by
        cases count <;> rfl
      rw [none, all]
      exact continues_ofPayload sid rest
    · rw [if_neg last]
      have joined := ContinuesBlock.more (.ofPayload .continuation 0 sid (rest.take size)) rfl rfl
        (set false) (inductionHypothesis (rest.drop size) last (by rw [List.length_drop]; omega))
      rw [show (Frame.ofPayload .continuation 0 sid (rest.take size)).payload ++ rest.drop size =
        rest from List.take_append_drop size rest] at joined
      exact joined

end Sending

/-! ### A message is spelled out by its frames -/

section Spelling

variable {sid size : Nat} {message : Message} {more : List Frame} {messages : List (Nat × Message)}

theorem spells_headers_continued {frames : List Frame} {tail : Bytes}
    (continues : ContinuesBlock sid frames tail) (taken : Bytes)
    (decodes : Decodes (taken ++ tail) message.headers)
    (later : Spells (current sid message message.afterHeaders) more messages) :
    Spells (some (sid, message, .headers taken)) (frames ++ more) messages := by
  induction continues generalizing taken with
  | last f type streamId complete =>
    exact .next (.headersLast ⟨type, streamId, complete⟩ decodes) later
  | more f type streamId incomplete next inductionHypothesis =>
    exact .next (.headersMore ⟨type, streamId, incomplete⟩)
      (inductionHypothesis (taken ++ f.payload) (by rw [List.append_assoc]; exact decodes))

theorem spells_trailers_continued {frames : List Frame} {tail : Bytes} {trailers : Headers}
    (given : message.trailers = some trailers) (continues : ContinuesBlock sid frames tail)
    (taken : Bytes) (decodes : Decodes (taken ++ tail) trailers)
    (later : Spells none more messages) :
    Spells (some (sid, message, .trailers taken)) (frames ++ more) messages := by
  induction continues generalizing taken with
  | last f type streamId complete =>
    exact .next (.trailersLast given ⟨type, streamId, complete⟩ decodes) later
  | more f type streamId incomplete next inductionHypothesis =>
    exact .next (.trailersMore given ⟨type, streamId, incomplete⟩)
      (inductionHypothesis (taken ++ f.payload) (by rw [List.append_assoc]; exact decodes))

theorem blockFlags_eq : ∀ endStream : Bool,
    ((if endStream then Flag.endStream else 0) ||| Flag.endHeaders) = blockFlags true endStream ∧
      (if endStream then Flag.endStream else 0) = blockFlags false endStream := by
  decide

/-- The rest of a block that does not fit into one frame. -/
theorem continues_drop (positive : 0 < size) (block : Bytes) (long : ¬ block.length ≤ size) :
    ContinuesBlock sid (splitInto .continuation Flag.endHeaders sid size block.length
      (block.drop size)) (block.drop size) := by
  refine continues_splitInto sid size positive block.length _ ?_ ?_
  · exact fun none => long (List.drop_eq_nil_iff.mp none)
  · rw [List.length_drop]
    exact Nat.sub_le _ _

theorem spells_headerFrames (positive : 0 < size) (block : Bytes)
    (decodes : Decodes block message.headers)
    (later : Spells (current sid message message.afterHeaders) more messages) :
    Spells none (headerFrames sid (if message.bare then Flag.endStream else 0) size block ++ more)
      ((sid, message) :: messages) := by
  unfold headerFrames
  split
  · rw [(blockFlags_eq message.bare).1]
    exact .start (.headersWhole (begins_ofPayload sid true message.bare block) decodes) later
  · rename_i long
    rw [(blockFlags_eq message.bare).2]
    refine .start (.headersBegin (begins_ofPayload sid false message.bare (block.take size))) ?_
    refine spells_headers_continued (continues_drop positive block long) (block.take size) ?_ later
    rw [List.take_append_drop]
    exact decodes

theorem spells_trailerFrames (positive : 0 < size) (block : Bytes) {trailers : Headers}
    (given : message.trailers = some trailers) (decodes : Decodes block trailers)
    (later : Spells none more messages) :
    Spells (some (sid, message, .body message.body))
      (headerFrames sid Flag.endStream size block ++ more) messages := by
  have flags := blockFlags_eq true
  rw [if_pos rfl] at flags
  unfold headerFrames
  split
  · rw [flags.1]
    exact .next (.trailersWhole given (begins_ofPayload sid true true block) decodes) later
  · rename_i long
    rw [flags.2]
    refine .next (.trailersBegin given (begins_ofPayload sid false true (block.take size))) ?_
    refine spells_trailers_continued given (continues_drop positive block long) (block.take size) ?_
      later
    rw [List.take_append_drop]
    exact decodes

theorem isData_ofPayload (endStream : Bool) (payload : Bytes) (short : payload.length ≤ 16384) :
    IsData sid endStream (.ofPayload .data
      (if endStream then Flag.endStream else 0) sid payload) := by
  have flags : ∀ endStream : Bool,
      ((if endStream then Flag.endStream else 0) &&& Flag.endStream != 0) = endStream ∧
        ((if endStream then Flag.endStream else 0) &&& Flag.padded != 0) = false := by
    decide
  exact ⟨rfl, rfl, (flags endStream).1, (flags endStream).2, short⟩

/-- What follows the body. -/
def afterBody (sid : Nat) (message : Message) : Reading :=
  if message.trailers.isSome then some (sid, message, .body message.body) else none

theorem spells_data (positive : 0 < size) (small : size ≤ 16384) (count : Nat) (rest taken : Bytes)
    (nonempty : rest ≠ []) (enough : rest.length ≤ count) (complete : taken ++ rest = message.body)
    (later : Spells (afterBody sid message) more messages) :
    Spells (some (sid, message, .body taken))
      (splitInto .data (if message.trailers.isSome then 0 else Flag.endStream) sid size
        count rest ++
        more) messages := by
  induction count generalizing rest taken with
  | zero => exact absurd (List.length_eq_zero_iff.mp (Nat.le_zero.mp enough)) nonempty
  | succ count inductionHypothesis =>
    unfold splitInto
    rw [if_neg nonempty]
    by_cases last : rest.drop size = []
    · have all : rest.take size = rest := List.take_of_length_le (List.drop_eq_nil_iff.mp last)
      have short : rest.length ≤ 16384 := all ▸ (List.length_take_le size rest).trans small
      have none : splitInto .data (if message.trailers.isSome then 0 else Flag.endStream) sid size
          count [] = [] := by
        cases count <;> rfl
      rw [last, if_pos rfl, none, all]
      unfold afterBody at later
      cases trailers : message.trailers with
      | none =>
        rw [trailers] at later
        exact .next (.dataLast (isData_ofPayload true rest short) complete trailers) later
      | some given =>
        rw [trailers] at later
        refine .next (.data (isData_ofPayload false rest short)) ?_
        show Spells (some (sid, message, .body (taken ++ rest))) _ _
        rw [complete]
        exact later
    · rw [if_neg last]
      refine .next (.data (isData_ofPayload false (rest.take size)
        ((List.length_take_le size rest).trans small))) ?_
      refine inductionHypothesis (rest.drop size) (taken ++ rest.take size) last ?_ ?_
      · rw [List.length_drop]
        omega
      · rw [List.append_assoc, List.take_append_drop, complete]

/-- The frames of a message spell it out. -/
theorem spells_messageFrames (positive : 0 < size) (small : size ≤ 16384) (message : Message)
    (block trailersBlock : Bytes) (decodes : Decodes block message.headers)
    (trailersDecode : ∀ trailers, message.trailers = some trailers →
      Decodes trailersBlock trailers) :
    Spells none (messageFrames sid size message block trailersBlock) [(sid, message)] := by
  have ends : Spells (afterBody sid message)
      (if message.trailers.isSome then headerFrames sid Flag.endStream size trailersBlock else [])
      [] := by
    unfold afterBody
    cases trailers : message.trailers with
    | none => exact .nothing
    | some given =>
      have spelled := @spells_trailerFrames sid size message [] [] positive trailersBlock
        given trailers
        (trailersDecode given trailers) .nothing
      rw [List.append_nil] at spelled
      exact spelled
  unfold messageFrames
  rw [List.append_assoc]
  refine spells_headerFrames positive block decodes ?_
  unfold Message.afterHeaders Message.bare bodyFrames
  cases body : message.body with
  | nil =>
    unfold afterBody at ends
    cases trailers : message.trailers with
    | none => exact .nothing
    | some given =>
      rw [trailers, body] at ends
      exact ends
  | cons byte rest =>
    have spelled := spells_data positive small (byte :: rest).length (byte :: rest) []
      (List.cons_ne_nil _ _) le_rfl body.symm ends
    exact spelled

end Spelling

end AsyncNet.Http
