/-
This file is about the two copies of the header parser of gRPC messages on buffers of any content.
Both add the five bytes of the header to a length of 32 bits and compare the sum, which has 32 bits
too, with the length of the buffer. From `2 ^ 32 - 5` on the sum wraps to less than five: the whole
header is there, so the message is taken for complete, and what follows is read past the buffer, or
all but a few bytes of a frame stay in it.
-/

import AsyncNet.Grpc.StreamFraming

namespace AsyncNet.Grpc

open AsyncNet.Http AsyncNet.Http.H2 AsyncNet.Library

/-! ### What is meant -/

/-- A buffer that begins with a header and all of the message that the header declares. -/
def Whole (buf : Bytes) : Prop := 5 ≤ buf.length ∧ 5 + getUint32 buf 1 ≤ buf.length

instance (buf : Bytes) : Decidable (Whole buf) :=
  inferInstanceAs (Decidable (5 ≤ buf.length ∧ 5 + getUint32 buf 1 ≤ buf.length))

/-- A buffer that begins with a header whose length wraps the sum. -/
def Wide (buf : Bytes) : Prop := 5 ≤ buf.length ∧ 2 ^ 32 - 5 ≤ getUint32 buf 1

instance (buf : Bytes) : Decidable (Wide buf) :=
  inferInstanceAs (Decidable (5 ≤ buf.length ∧ 2 ^ 32 - 5 ≤ getUint32 buf 1))

/-- The message of a frame at the front of a buffer. -/
def messageOf (buf : Bytes) : Bytes := (buf.drop 5).take (getUint32 buf 1)

/-- What follows the frame. -/
def behindFrame (buf : Bytes) : Bytes := buf.drop (5 + getUint32 buf 1)

/-- A message is returned if and only if all of it is there, and then exactly this one. -/
def DecodesExactly (data : Bytes) : Prop :=
  decodeGrpcMessage data = .ok (if Whole data then some (messageOf data) else none)

/-- The frames that a buffer holds whole, with their messages, and what is left of it. -/
inductive Unframes : Bytes → List Bytes → Bytes → Prop where
  | waits {buf : Bytes} (incomplete : ¬ Whole buf) : Unframes buf [] buf
  | takes {buf rest : Bytes} {messages : List Bytes} (whole : Whole buf)
      (later : Unframes (behindFrame buf) messages rest) :
      Unframes buf (messageOf buf :: messages) rest

/-- The messages that have come whole are delivered, and exactly their frames leave the buffer. -/
def FeedsExactly (deframer : StreamDeframer) (data : Bytes) : Prop :=
  ∃ messages rest, Unframes (deframer.buf ++ data) messages rest ∧
    deframer.feed data =
      .ok { messages.foldl StreamDeframer.deliver deframer with buf := rest }

/-- What stands in a buffer behind frames that it holds whole. -/
inductive Behind : Bytes → Bytes → Prop where
  | here {buf : Bytes} : Behind buf buf
  | frame {buf rest : Bytes} (whole : Whole buf) (later : Behind (behindFrame buf) rest) :
      Behind buf rest

/-- No header that is reached in a buffer declares a length that wraps the sum. -/
def Narrow (buf : Bytes) : Prop := ∀ rest, Behind buf rest → ¬ Wide rest

/-! ### Lengths -/

section Buffers

variable {buf : Bytes}

theorem length_messageOf (whole : Whole buf) : (messageOf buf).length = getUint32 buf 1 := by
  have fits := whole.2
  rw [messageOf, List.length_take, List.length_drop]
  omega

theorem length_behindFrame (whole : Whole buf) :
    (behindFrame buf).length + (5 + (messageOf buf).length) = buf.length := by
  have fits := whole.2
  rw [length_messageOf whole, behindFrame, List.length_drop]
  omega

/-- Every buffer is a list of whole frames and a rest that begins with none. -/
theorem exists_unframes (buf : Bytes) : ∃ messages rest, Unframes buf messages rest := by
  induction length : buf.length using Nat.strong_induction_on generalizing buf with
  | _ size inductionHypothesis =>
    by_cases whole : Whole buf
    · have shorter := length_behindFrame whole
      obtain ⟨messages, rest, later⟩ :=
        inductionHypothesis (behindFrame buf).length (by omega) (behindFrame buf) rfl
      exact ⟨_, _, .takes whole later⟩
    · exact ⟨_, _, .waits whole⟩

/-- The two tests of a header, as they are written: the second one is the first one with a sum that
does not wrap. -/
theorem test_header {Result : Type} (buf : Bytes) (nothing fault result : Result) :
    (if buf.length < 5 then nothing
      else if buf.length < (5 + getUint32 buf 1) % 2 ^ 32 then nothing
      else if buf.length < 5 + getUint32 buf 1 then fault else result) =
      if Whole buf then result else if Wide buf then fault else nothing :=
  test_wrapping_sum (getUint32_lt buf 1) (by decide) buf.length nothing fault result

theorem decodeGrpcMessage_eq (data : Bytes) :
    decodeGrpcMessage data =
      if Whole data then .ok (some (messageOf data))
      else if Wide data then .error .outOfBounds else .ok none :=
  test_header data _ _ _

/-- The sum wraps while the message is not complete, or the message is decoded as it should be. -/
theorem decodesExactly_iff (data : Bytes) : DecodesExactly data ↔ Wide data → Whole data := by
  unfold DecodesExactly
  rw [decodeGrpcMessage_eq]
  by_cases whole : Whole data
  · rw [if_pos whole, if_pos whole]
    exact iff_of_true rfl fun _ => whole
  · rw [if_neg whole, if_neg whole]
    by_cases wide : Wide data
    · rw [if_pos wide]
      exact iff_of_false nofun fun sound => whole (sound wide)
    · rw [if_neg wide]
      exact iff_of_true rfl fun wide' => absurd wide' wide

/-! ### The loop -/

/-- The frame that the loop takes: all of it goes to the decoder, but the sum that is erased
wraps. -/
theorem takeMessage_eq (buf : Bytes) :
    StreamDeframer.takeMessage buf =
      if Whole buf then
        .ok (some (messageOf buf, buf.drop ((5 + getUint32 buf 1) % 2 ^ 32)))
      else if Wide buf then .error .outOfBounds else .ok none := by
  have taken : StreamDeframer.takeFrame buf =
      if Whole buf then
        .ok (some (buf.take (5 + getUint32 buf 1), buf.drop ((5 + getUint32 buf 1) % 2 ^ 32)))
      else if Wide buf then .error .outOfBounds else .ok none :=
    test_header buf _ _ _
  by_cases whole : Whole buf
  · have length : (buf.take (5 + getUint32 buf 1)).length = 5 + getUint32 buf 1 :=
      List.length_take_of_le whole.2
    have header := StreamDeframer.getUint32_take buf (Nat.le_add_right 5 (getUint32 buf 1))
    have frame : Whole (buf.take (5 + getUint32 buf 1)) := by
      rw [Whole, header, length]
      exact ⟨Nat.le_add_right _ _, le_rfl⟩
    have message : messageOf (buf.take (5 + getUint32 buf 1)) = messageOf buf := by
      unfold messageOf
      rw [header, List.drop_take, Nat.add_sub_cancel_left, List.take_take, min_self]
    have decoded : decodeGrpcMessage (buf.take (5 + getUint32 buf 1)) =
        .ok (some (messageOf buf)) := by
      rw [decodeGrpcMessage_eq, if_pos frame, message]
    rw [if_pos whole] at taken ⊢
    exact StreamDeframer.takeMessage_taken taken decoded
  · rw [if_neg whole] at taken ⊢
    by_cases wide : Wide buf
    · rw [if_pos wide] at taken ⊢
      unfold StreamDeframer.takeMessage
      rw [taken]
      rfl
    · rw [if_neg wide] at taken ⊢
      exact StreamDeframer.takeMessage_waits taken

/-- The bytes of the frames of some messages. -/
def framesLength (messages : List Bytes) : Nat :=
  (messages.map fun message => 5 + message.length).sum

theorem framesLength_cons (message : Bytes) (messages : List Bytes) :
    framesLength (message :: messages) = 5 + message.length + framesLength messages := by
  rw [framesLength, List.map_cons, List.sum_cons]
  rfl

theorem Unframes.length {messages : List Bytes} {rest : Bytes}
    (unframes : Unframes buf messages rest) :
    rest.length + framesLength messages = buf.length := by
  induction unframes with
  | waits incomplete => rfl
  | takes whole later inductionHypothesis =>
    have shorter := length_behindFrame whole
    rw [framesLength_cons]
    omega

variable {passes : Nat} {messages : List Bytes} {rest : Bytes}

theorem drain_whole (whole : Whole buf) (passes : Nat) :
    drain StreamDeframer.takeMessage (passes + 1) buf =
      (drain StreamDeframer.takeMessage passes
        (buf.drop ((5 + getUint32 buf 1) % 2 ^ 32))).map fun found =>
          (messageOf buf :: found.1, found.2) := by
  rw [drain, takeMessage_eq, if_pos whole]
  show (drain StreamDeframer.takeMessage passes _ >>= _) = _
  cases drain StreamDeframer.takeMessage passes _ <;> rfl

theorem drain_waits (incomplete : ¬ Whole buf) (fits : ¬ Wide buf) (passes : Nat) :
    drain StreamDeframer.takeMessage (passes + 1) buf = .ok ([], buf) := by
  rw [drain, takeMessage_eq, if_neg incomplete, if_neg fits]
  rfl

theorem drain_wide (incomplete : ¬ Whole buf) (wide : Wide buf) (passes : Nat) :
    drain StreamDeframer.takeMessage (passes + 1) buf = .error .outOfBounds := by
  rw [drain, takeMessage_eq, if_neg incomplete, if_pos wide]
  rfl

/-- No more leaves the buffer than the frames of the messages that are delivered. -/
theorem length_le_of_drain
    (run : drain StreamDeframer.takeMessage passes buf = .ok (messages, rest)) :
    buf.length ≤ rest.length + framesLength messages := by
  induction passes generalizing buf messages with
  | zero =>
    cases run
    exact Nat.le_add_right _ _
  | succ passes inductionHypothesis =>
    by_cases whole : Whole buf
    · rw [drain_whole whole] at run
      obtain ⟨found, later, same⟩ := map_ok run
      cases same
      have fewer := inductionHypothesis later
      have most : (5 + getUint32 buf 1) % 2 ^ 32 ≤ 5 + getUint32 buf 1 := Nat.mod_le _ _
      rw [List.length_drop] at fewer
      rw [framesLength_cons, length_messageOf whole]
      omega
    · by_cases wide : Wide buf
      · rw [drain_wide whole wide] at run
        cases run
      · rw [drain_waits whole wide] at run
        cases run
        exact Nat.le_add_right _ _

theorem narrow_of_waits (incomplete : ¬ Whole buf) (fits : ¬ Wide buf) : Narrow buf := by
  intro rest behind
  cases behind with
  | here => exact fits
  | frame whole later => exact absurd whole incomplete

theorem narrow_of_behind (fits : ¬ Wide buf) (later : Narrow (behindFrame buf)) :
    Narrow buf := by
  intro rest behind
  cases behind with
  | here => exact fits
  | frame _ behind => exact later rest behind

theorem Narrow.behindFrame (narrow : Narrow buf) (whole : Whole buf) :
    Narrow (behindFrame buf) := fun rest behind => narrow rest (.frame whole behind)

/-- A header that is not wide is erased with its message. -/
theorem drop_of_fits (whole : Whole buf) (fits : ¬ Wide buf) :
    buf.drop ((5 + getUint32 buf 1) % 2 ^ 32) = behindFrame buf := by
  have small : 5 + getUint32 buf 1 < 2 ^ 32 := by
    have less : getUint32 buf 1 < 2 ^ 32 - 5 := Nat.not_le.mp fun large => fits ⟨whole.1, large⟩
    omega
  rw [Nat.mod_eq_of_lt small, Grpc.behindFrame]

/-- If all of the frames have left the buffer, none of their headers has wrapped. -/
theorem narrow_of_drain (enough : buf.length < passes)
    (run : drain StreamDeframer.takeMessage passes buf = .ok (messages, rest))
    (equal : rest.length + framesLength messages = buf.length) : Narrow buf := by
  induction passes generalizing buf messages with
  | zero => exact absurd enough (Nat.not_lt_zero _)
  | succ passes inductionHypothesis =>
    by_cases whole : Whole buf
    · rw [drain_whole whole] at run
      obtain ⟨found, later, same⟩ := map_ok run
      cases same
      have most := length_le_of_drain later
      have shorter := length_behindFrame whole
      rw [framesLength_cons, length_messageOf whole] at equal
      rw [length_messageOf whole] at shorter
      have fits : ¬ Wide buf := by
        rintro ⟨-, large⟩
        have small := getUint32_lt buf 1
        rw [List.length_drop] at most
        omega
      rw [drop_of_fits whole fits] at later
      exact narrow_of_behind fits (inductionHypothesis (by omega) later (by omega))
    · by_cases wide : Wide buf
      · rw [drain_wide whole wide] at run
        cases run
      · exact narrow_of_waits whole wide

/-- Without such a header the loop takes the frames that the buffer holds whole. -/
theorem drain_of_unframes (unframes : Unframes buf messages rest) (narrow : Narrow buf)
    (enough : buf.length < passes) :
    drain StreamDeframer.takeMessage passes buf = .ok (messages, rest) := by
  obtain ⟨passes, rfl⟩ := Nat.exists_eq_add_one_of_ne_zero (Nat.ne_zero_of_lt enough)
  induction unframes generalizing passes with
  | @waits buf incomplete => exact drain_waits incomplete (narrow buf .here) passes
  | @takes buf rest messages whole later inductionHypothesis =>
    have shorter := length_behindFrame whole
    obtain ⟨fewer, rfl⟩ := Nat.exists_eq_add_one_of_ne_zero (show passes ≠ 0 by omega)
    rw [drain_whole whole, drop_of_fits whole (narrow buf .here),
      inductionHypothesis (narrow.behindFrame whole) fewer (by omega)]
    rfl

end Buffers

/-! ### The deframer -/

section Deframers

variable {deframer : StreamDeframer} {messages others : List Bytes} {rest other : Bytes}

/-- What has been delivered tells the messages. -/
theorem messages_of_foldl_deliver
    (same : { messages.foldl StreamDeframer.deliver deframer with buf := rest } =
      { others.foldl StreamDeframer.deliver deframer with buf := other }) :
    messages = others ∧ rest = other := by
  rw [StreamDeframer.foldl_deliver, StreamDeframer.foldl_deliver, StreamDeframer.mk.injEq] at same
  obtain ⟨rfl, -, pushed, passed⟩ := same
  refine ⟨?_, rfl⟩
  cases callback : deframer.onMsg with
  | false =>
    rw [callback] at pushed
    exact List.append_cancel_left pushed
  | true =>
    rw [callback] at passed
    exact List.append_cancel_left passed

theorem feed_eq (deframer : StreamDeframer) (data : Bytes) :
    deframer.feed data =
      (drain StreamDeframer.takeMessage ((deframer.buf ++ data).length + 1)
        (deframer.buf ++ data)).map fun found =>
          { found.1.foldl StreamDeframer.deliver deframer with buf := found.2 } := by
  rw [StreamDeframer.feed, StreamDeframer.feedLoop_eq]
  congr 1
  funext found
  rw [StreamDeframer.foldl_deliver, StreamDeframer.foldl_deliver]

/-- Exactly the frames leave the buffer, if and only if no header that is reached in it is too
large. -/
theorem feedsExactly_iff (deframer : StreamDeframer) (data : Bytes) :
    FeedsExactly deframer data ↔ Narrow (deframer.buf ++ data) := by
  unfold FeedsExactly
  rw [feed_eq]
  constructor
  · rintro ⟨messages, rest, unframes, run⟩
    obtain ⟨found, drained, same⟩ := map_ok run
    obtain ⟨rfl, rfl⟩ := messages_of_foldl_deliver same
    exact narrow_of_drain (Nat.lt_succ_self _) drained unframes.length
  · intro narrow
    obtain ⟨messages, rest, unframes⟩ := exists_unframes (deframer.buf ++ data)
    refine ⟨messages, rest, unframes, ?_⟩
    rw [drain_of_unframes unframes narrow (Nat.lt_succ_self _)]
    rfl

end Deframers

/-- Both copies of the parser are exact, if and only if the sum does not wrap where it matters: for
one message it may if all of the message is there, for a stream it must not. -/
theorem decodes_feeds_exactly_iff (deframer : StreamDeframer) (data : Bytes) :
    (DecodesExactly data ↔ (Wide data → Whole data)) ∧
      (FeedsExactly deframer data ↔ Narrow (deframer.buf ++ data)) :=
  ⟨decodesExactly_iff data, feedsExactly_iff deframer data⟩

/-- Five bytes that declare the largest length are read past their end. -/
theorem not_decodesExactly_largest :
    decodeGrpcMessage [0x00, 0xFF, 0xFF, 0xFF, 0xFF] = .error .outOfBounds ∧
      ¬ DecodesExactly [0x00, 0xFF, 0xFF, 0xFF, 0xFF] ∧
      ({} : StreamDeframer).feed [0x00, 0xFF, 0xFF, 0xFF, 0xFF] = .error .outOfBounds ∧
      ¬ FeedsExactly {} [0x00, 0xFF, 0xFF, 0xFF, 0xFF] := by
  have decoded : decodeGrpcMessage [0x00, 0xFF, 0xFF, 0xFF, 0xFF] = .error .outOfBounds := by
    decide +kernel
  have fed : ({} : StreamDeframer).feed [0x00, 0xFF, 0xFF, 0xFF, 0xFF] =
      .error .outOfBounds := by
    decide +kernel
  refine ⟨decoded, fun sound => ?_, fed, ?_⟩
  · rw [DecodesExactly, decoded] at sound
    cases sound
  · rintro ⟨messages, rest, -, sound⟩
    rw [fed] at sound
    cases sound

end AsyncNet.Grpc
