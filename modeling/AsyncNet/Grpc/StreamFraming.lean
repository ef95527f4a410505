/-
This file proves that a `stream_deframer` takes the messages out of their frames however
the stream is cut into pieces: every message is delivered once, in order, with the piece
that brings its last byte, to the callback if there is one and to the reader otherwise.
-/

import AsyncNet.Grpc.Wire
import AsyncNet.Http.Http2Wire
import AsyncNet.Library.Framing

namespace AsyncNet.Grpc

open AsyncNet.Http AsyncNet.Http.H2 AsyncNet.Library

/-! ### Frames -/

theorem length_encodeGrpcMessage (message : Bytes) :
    (encodeGrpcMessage message).length = 5 + message.length := by
  rw [encodeGrpcMessage, List.length_append]
  rfl

/-- The length in the header of a frame. -/
theorem getUint32_header (length : Nat) (small : length < 2 ^ 32) (tail : Bytes) :
    getUint32 ([0x00] ++ putUint32 length ++ tail) 1 = length := by
  have bytes := getUint32_putUint32 [0x00] length small
  unfold getUint32 at bytes ⊢
  exact bytes

theorem encodeGrpcMessage_eq {message : Bytes} (small : message.length < 2 ^ 32 - 5) :
    encodeGrpcMessage message = [0x00] ++ putUint32 message.length ++ message := by
  rw [encodeGrpcMessage, Nat.mod_eq_of_lt (by omega)]

/-- A frame without compression whose length is that of its message. -/
theorem decodeGrpcMessage_frame (message : Bytes) (small : message.length < 2 ^ 32) :
    decodeGrpcMessage ([0x00] ++ putUint32 message.length ++ message) = .ok (some message) := by
  have length : ([0x00] ++ putUint32 message.length ++ message).length = 5 + message.length :=
    List.length_append
  have fits : (5 + message.length) % 2 ^ 32 ≤ 5 + message.length := Nat.mod_le _ _
  unfold decodeGrpcMessage
  rw [getUint32_header _ small, length, if_neg (by omega), if_neg (by omega), if_neg (by omega)]
  show Except.ok (some (message.take message.length)) = _
  rw [List.take_length]

namespace StreamDeframer

/-- The message of the frame at the front of the buffer and what follows the frame. -/
def takeMessage (buf : Bytes) : Except Fault (Option (Bytes × Bytes)) := do
  match ← takeFrame buf with
  | none => return none
  | some (frameData, rest) =>
      return (← decodeGrpcMessage frameData).map fun proto => (proto, rest)

theorem takeMessage_taken {buf frameData rest : Bytes} {found : Option Bytes}
    (taken : takeFrame buf = .ok (some (frameData, rest)))
    (decoded : decodeGrpcMessage frameData = .ok found) :
    takeMessage buf = .ok (found.map fun proto => (proto, rest)) := by
  rw [takeMessage, taken]
  show (decodeGrpcMessage frameData >>= fun found => _) = _
  rw [decoded]
  rfl

theorem takeMessage_waits {buf : Bytes} (waits : takeFrame buf = .ok none) :
    takeMessage buf = .ok none := by
  rw [takeMessage, waits]
  rfl

theorem getUint32_take (buf : Bytes) {count : Nat} (enough : 5 ≤ count) :
    getUint32 (buf.take count) 1 = getUint32 buf 1 := by
  unfold getUint32
  simp only [List.getD_eq_getElem?_getD]
  rw [List.getElem?_take_of_lt (by omega), List.getElem?_take_of_lt (by omega),
    List.getElem?_take_of_lt (by omega), List.getElem?_take_of_lt (by omega)]

/-- A frame that is taken off the buffer decodes. -/
theorem decodes_of_takeFrame {buf frameData rest : Bytes}
    (taken : takeFrame buf = .ok (some (frameData, rest))) :
    ∃ proto, decodeGrpcMessage frameData = .ok (some proto) := by
  unfold takeFrame at taken
  simp only at taken
  split at taken
  · cases taken
  · split at taken
    · cases taken
    · split at taken
      · cases taken
      · rename_i _ _ whole
        cases taken
        have length : (buf.take (5 + getUint32 buf 1)).length = 5 + getUint32 buf 1 := by
          rw [List.length_take]
          omega
        have fits : (5 + getUint32 buf 1) % 2 ^ 32 ≤ 5 + getUint32 buf 1 := Nat.mod_le _ _
        unfold decodeGrpcMessage
        rw [getUint32_take buf (by omega), length, if_neg (by omega), if_neg (by omega),
          if_neg (lt_irrefl _)]
        exact ⟨_, rfl⟩

/-- Messages go to the callback or into the reader, all of them. -/
theorem foldl_deliver (messages : List Bytes) (deframer : StreamDeframer) :
    messages.foldl deliver deframer =
      { deframer with
        pushed := deframer.pushed ++ if deframer.onMsg then [] else messages
        passed := deframer.passed ++ if deframer.onMsg then messages else [] } := by
  obtain ⟨buf, onMsg, pushed, passed⟩ := deframer
  induction messages generalizing pushed passed with
  | nil => cases onMsg <;> simp
  | cons message messages inductionHypothesis =>
    cases onMsg <;> simp [deliver, inductionHypothesis]

/-- The loop takes the messages off the buffer and delivers them one by one. -/
theorem feedLoop_eq (passes : Nat) (deframer : StreamDeframer) :
    feedLoop passes deframer =
      (drain takeMessage passes deframer.buf).map fun found =>
        { found.1.foldl deliver deframer with buf := found.2 } := by
  induction passes generalizing deframer with
  | zero => rfl
  | succ passes inductionHypothesis =>
    rw [feedLoop, drain, takeMessage]
    cases taken : takeFrame deframer.buf with
    | error fault => rfl
    | ok found =>
      cases found with
      | none => rfl
      | some found =>
        obtain ⟨frameData, rest⟩ := found
        obtain ⟨proto, decoded⟩ := decodes_of_takeFrame taken
        simp only [bind, Except.bind, decoded, pure, Except.pure, Option.map_some]
        have buf : (({ deframer with buf := rest } : StreamDeframer).deliver proto).buf = rest := by
          unfold deliver
          split <;> rfl
        rw [inductionHypothesis, buf]
        cases drain takeMessage passes rest with
        | error fault => rfl
        | ok later =>
          simp only [Except.map, ← List.foldl_cons, foldl_deliver]

/-! ### Streams -/

/-- A buffer that begins with the header of a frame whose length does not wrap. -/
theorem takeFrame_header {buf : Bytes} {msgLen : Nat} (header : 5 ≤ buf.length)
    (length : getUint32 buf 1 = msgLen) (small : 5 + msgLen < 2 ^ 32) :
    takeFrame buf =
      .ok (if buf.length < 5 + msgLen then none
        else some (buf.take (5 + msgLen), buf.drop (5 + msgLen))) := by
  unfold takeFrame
  rw [length, if_neg header.not_gt, Nat.mod_eq_of_lt small]
  split
  · rfl
  · rfl

theorem frames_encodeGrpcMessage {message : Bytes} (small : message.length < 2 ^ 32 - 5) :
    Frames takeMessage message (encodeGrpcMessage message) where
  whole := fun rest => by
    have length : (encodeGrpcMessage message ++ rest).length =
        5 + message.length + rest.length := by
      rw [List.length_append, length_encodeGrpcMessage]
    have header : getUint32 (encodeGrpcMessage message ++ rest) 1 = message.length := by
      rw [encodeGrpcMessage_eq small, List.append_assoc]
      exact getUint32_header _ (by omega) _
    have taken : takeFrame (encodeGrpcMessage message ++ rest) =
        .ok (some (encodeGrpcMessage message, rest)) := by
      rw [takeFrame_header (by omega) header (by omega), if_neg (by omega),
        ← length_encodeGrpcMessage, List.take_left, List.drop_left]
    have decoded : decodeGrpcMessage (encodeGrpcMessage message) = .ok (some message) := by
      rw [encodeGrpcMessage_eq small]
      exact decodeGrpcMessage_frame message (by omega)
    exact takeMessage_taken taken decoded
  incomplete := fun front more whole unfinished => by
    have positive := List.length_pos_of_ne_nil unfinished
    have length := congrArg List.length whole
    rw [List.length_append, length_encodeGrpcMessage] at length
    refine takeMessage_waits ?_
    by_cases header : front.length < 5
    · unfold takeFrame
      rw [if_pos header]
    · have bytes : getUint32 front 1 = message.length := by
        have read := getUint32_take (encodeGrpcMessage message) (show 5 ≤ front.length by omega)
        rw [← whole, List.take_left, whole, encodeGrpcMessage_eq small,
          getUint32_header _ (by omega)] at read
        exact read
      rw [takeFrame_header (not_lt.mp header) bytes (by omega), if_pos (by omega)]

theorem takeMessage_nil : takeMessage [] = .ok none := rfl

/-- A deframer has delivered the first of the messages and holds the beginning of the next. -/
structure Holds (messages : List Bytes) (callback : Bool) (count : Nat) (rest : Bytes)
    (deframer : StreamDeframer) : Prop where
  onMsg : deframer.onMsg = callback
  pushed : deframer.pushed = if callback then [] else arrived encodeGrpcMessage messages count
  passed : deframer.passed = if callback then arrived encodeGrpcMessage messages count else []
  stream : ∃ left, messages = arrived encodeGrpcMessage messages count ++ left ∧
    deframer.buf ++ rest = left.flatMap encodeGrpcMessage ∧
    count = ((arrived encodeGrpcMessage messages count).flatMap encodeGrpcMessage).length +
      deframer.buf.length

/-- A piece of the stream brings the messages that end in it. -/
theorem Holds.feed {messages : List Bytes} {callback : Bool} {count : Nat} {piece rest : Bytes}
    {deframer : StreamDeframer} (holds : Holds messages callback count (piece ++ rest) deframer)
    (small : ∀ message ∈ messages, message.length < 2 ^ 32 - 5) :
    ∃ next, deframer.feed piece = .ok next ∧
      Holds messages callback (count + piece.length) rest next := by
  obtain ⟨left, whole, stream, total⟩ := holds.stream
  have pushed := holds.pushed
  have passed := holds.passed
  generalize arrived encodeGrpcMessage messages count = before at whole total pushed passed
  obtain ⟨taken, later, buf, rfl, split, run, short⟩ := drain_frames left
    (fun message member => frames_encodeGrpcMessage
      (small message (whole ▸ List.mem_append_right before member)))
    takeMessage_nil _ (deframer.buf ++ piece) rest (by rw [List.append_assoc, stream]) le_rfl
  have lengths := congrArg List.length split
  rw [List.length_append, List.length_append] at lengths
  have now : arrived encodeGrpcMessage messages (count + piece.length) = before ++ taken := by
    have reached := arrived_append (before ++ taken) later buf.length short
    rw [List.append_assoc, ← whole, List.flatMap_append, List.length_append] at reached
    rw [← reached]
    congr 1
    omega
  refine ⟨{ taken.foldl deliver { deframer with buf := deframer.buf ++ piece } with buf }, ?_, ?_⟩
  · rw [StreamDeframer.feed, feedLoop_eq, run]
    rfl
  · rw [foldl_deliver]
    refine ⟨holds.onMsg, ?_, ?_, later, ?_, ?_, ?_⟩
    · rw [now, pushed, holds.onMsg]
      cases callback <;> rfl
    · rw [now, passed, holds.onMsg]
      cases callback <;> rfl
    · rw [now, List.append_assoc]
      exact whole
    · rw [← List.append_assoc, split, List.flatMap_append, List.append_assoc] at stream
      exact List.append_cancel_left stream
    · rw [now, List.flatMap_append, List.length_append]
      show count + piece.length = _ + buf.length
      omega

/-- The pieces of a stream, fed one after the other to a new deframer. -/
theorem holds_pieces (messages : List Bytes) (callback : Bool)
    (small : ∀ message ∈ messages, message.length < 2 ^ 32 - 5) (pieces : List Bytes) (rest : Bytes)
    (cut : pieces.flatten ++ rest = messages.flatMap encodeGrpcMessage) :
    ∃ final, pieces.foldlM StreamDeframer.feed { onMsg := callback } = .ok final ∧
      Holds messages callback pieces.flatten.length rest final := by
  induction pieces using List.reverseRecOn generalizing rest with
  | nil =>
    have nothing : arrived encodeGrpcMessage messages 0 = [] := by
      cases messages with
      | nil => rfl
      | cons message messages =>
        rw [arrived, if_neg]
        rw [length_encodeGrpcMessage]
        omega
    refine ⟨_, rfl, rfl, ?_, ?_, messages, ?_, cut, ?_⟩
    · rw [List.flatten_nil, List.length_nil, nothing, ite_self]
    · rw [List.flatten_nil, List.length_nil, nothing, ite_self]
    · rw [List.flatten_nil, List.length_nil, nothing, List.nil_append]
    · rw [List.flatten_nil, List.length_nil, nothing]
      rfl
  | append_singleton pieces piece inductionHypothesis =>
    rw [List.flatten_append, List.flatten_singleton, List.append_assoc] at cut
    obtain ⟨state, run, holds⟩ := inductionHypothesis (piece ++ rest) cut
    obtain ⟨final, fed, holds'⟩ := holds.feed small
    refine ⟨final, ?_, ?_⟩
    · rw [List.foldlM_append, run]
      show List.foldlM StreamDeframer.feed state [piece] = _
      rw [List.foldlM_cons, fed]
      rfl
    · rw [List.flatten_append, List.flatten_singleton, List.length_append]
      exact holds'

/-- Messages cross a stream that is cut into any pieces. After every piece those have been delivered
whose frames have arrived, and in the end all of them. -/
theorem delivers_messages (messages : List Bytes) (callback : Bool) (pieces : List Bytes)
    (small : ∀ message ∈ messages, message.length < 2 ^ 32 - 5)
    (cut : pieces.flatten = messages.flatMap encodeGrpcMessage) :
    (∀ front, front <+: pieces →
      ∃ state, front.foldlM StreamDeframer.feed { onMsg := callback } = .ok state ∧
        state.pushed =
          (if callback then [] else arrived encodeGrpcMessage messages front.flatten.length) ∧
        state.passed =
          if callback then arrived encodeGrpcMessage messages front.flatten.length else []) ∧
      ∃ final, pieces.foldlM StreamDeframer.feed { onMsg := callback } = .ok final ∧
        final.pushed = (if callback then [] else messages) ∧
        final.passed = if callback then messages else [] := by
  have reaches (front : List Bytes) (isPrefix : front <+: pieces) :
      ∃ state, front.foldlM StreamDeframer.feed { onMsg := callback } = .ok state ∧
        state.pushed =
          (if callback then [] else arrived encodeGrpcMessage messages front.flatten.length) ∧
        state.passed =
          if callback then arrived encodeGrpcMessage messages front.flatten.length else [] := by
    obtain ⟨later, rfl⟩ := isPrefix
    rw [List.flatten_append] at cut
    obtain ⟨state, run, holds⟩ := holds_pieces messages callback small front later.flatten cut
    exact ⟨state, run, holds.pushed, holds.passed⟩
  have all : arrived encodeGrpcMessage messages pieces.flatten.length = messages := by
    have whole : arrived encodeGrpcMessage _ _ = messages := arrived_append messages [] 0 nofun
    rw [List.append_nil, Nat.add_zero, ← cut] at whole
    exact whole
  obtain ⟨final, run, pushed, passed⟩ := reaches pieces List.prefix_rfl
  rw [all] at pushed passed
  exact ⟨reaches, final, run, pushed, passed⟩

/-- An empty message and one of a byte, in three pieces that cut both headers. -/
theorem delivers_messages_two :
    (∀ front, front <+: [[0x00, 0x00], [0x00, 0x00, 0x00, 0x00], [0x00, 0x00, 0x00, 0x01, 0x78]] →
      ∃ state, front.foldlM StreamDeframer.feed {} = .ok state ∧
        state.pushed = arrived encodeGrpcMessage [[], [0x78]] front.flatten.length ∧
        state.passed = []) ∧
      ∃ final, [[0x00, 0x00], [0x00, 0x00, 0x00, 0x00],
          [0x00, 0x00, 0x00, 0x01, 0x78]].foldlM StreamDeframer.feed {} = .ok final ∧
        final.pushed = [[], [0x78]] ∧ final.passed = [] :=
  delivers_messages [[], [0x78]] false _ (by decide) (by decide)

end StreamDeframer

end AsyncNet.Grpc
