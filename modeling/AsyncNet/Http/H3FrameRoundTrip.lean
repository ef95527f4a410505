/-
This file is about the frames of HTTP/3 that `build_frame` writes and the `frame_reader` that reads
them, fed in any pieces. The frames come out in order and unchanged, all but possibly the last one:
the reader looks whether a payload is complete only when it has a byte to put there, so that a frame
with an empty payload waits for the first byte of the next frame. If nothing comes behind it, it is
never produced.
-/

import AsyncNet.Http.Http2Wire
import AsyncNet.Http.Http3UniStreams

namespace AsyncNet.Http.H3

open H2 Library

/-! ### Integers -/

/-- The first byte of an integer, with the two bits that say how long it is. -/
theorem varint_tags : ∀ top < 64,
    (varintLength (UInt8.ofNat top) = 1 ∧ (UInt8.ofNat top &&& 0x3F).toNat = top) ∧
    (varintLength (UInt8.ofNat top ||| 0x40) = 2 ∧
      ((UInt8.ofNat top ||| 0x40) &&& 0x3F).toNat = top) ∧
    (varintLength (UInt8.ofNat top ||| 0x80) = 4 ∧
      ((UInt8.ofNat top ||| 0x80) &&& 0x3F).toNat = top) ∧
    (varintLength (UInt8.ofNat top ||| 0xC0) = 8 ∧
      ((UInt8.ofNat top ||| 0xC0) &&& 0x3F).toNat = top) := by decide

/-- An integer whose first byte says its length and carries the top of the value. -/
theorem decodeVarint_cons {first : UInt8} {top value : Nat} {rest : Bytes}
    (length : varintLength first = rest.length + 1) (tag : (first &&& 0x3F).toNat = top)
    (whole : rest.foldl (fun value byte => value * 2 ^ 8 + byte.toNat) top = value) :
    decodeVarint (first :: rest) = some (value, (first :: rest).length) := by
  unfold decodeVarint
  simp only [List.getD_cons_zero, length, List.length_cons, Nat.lt_irrefl, if_false, List.tail_cons,
    Nat.add_sub_cancel, List.take_length, tag, whole]

/-- A byte of a value goes behind what is above it. -/
theorem shiftRight_byteAt (value shift : Nat) :
    value >>> (shift + 8) * 2 ^ 8 + (byteAt value shift).toNat = value >>> shift := by
  rw [toNat_byteAt, Nat.shiftRight_add, Nat.shiftRight_eq_div_pow (value >>> shift),
    ← Nat.shiftRight_eq_div_pow value]
  exact Nat.div_add_mod' _ _

theorem decodeVarint_encodeVarint (value : Nat) (small : value < 2 ^ 62) :
    decodeVarint (encodeVarint value) = some (value, (encodeVarint value).length) := by
  have top (shift : Nat) (high : value / 2 ^ shift < 64) := varint_tags (value >>> shift)
    (by rw [Nat.shiftRight_eq_div_pow]; exact high)
  unfold encodeVarint
  split
  · rename_i one
    obtain ⟨⟨length, tag⟩, -⟩ := varint_tags value one
    exact decodeVarint_cons length tag rfl
  · split
    · obtain ⟨-, ⟨length, tag⟩, -⟩ := top 8 (by omega)
      refine decodeVarint_cons length tag ?_
      exact shiftRight_byteAt value 0
    · split
      · obtain ⟨-, -, ⟨length, tag⟩, -⟩ := top 24 (by omega)
        refine decodeVarint_cons length tag ?_
        simp only [List.foldl_cons, List.foldl_nil, shiftRight_byteAt value 16,
          shiftRight_byteAt value 8]
        exact shiftRight_byteAt value 0
      · split
        · obtain ⟨-, -, -, length, tag⟩ := top 56 (by omega)
          refine decodeVarint_cons length tag ?_
          simp only [List.foldl_cons, List.foldl_nil, shiftRight_byteAt value 48,
            shiftRight_byteAt value 40, shiftRight_byteAt value 32, shiftRight_byteAt value 24,
            shiftRight_byteAt value 16, shiftRight_byteAt value 8]
          exact shiftRight_byteAt value 0
        · omega

/-- A type is the number with which it goes over the wire. -/
theorem code_ofCode (code : Nat) : (FrameType.ofCode code).code = code := by
  unfold FrameType.ofCode
  repeat' split
  all_goals first | rfl | (subst_vars; rfl)

/-! ### Frames -/

/-- The frame that `build_frame` is called for, by the number of its type. -/
def frameOf (sent : Nat × Bytes) : Frame := ⟨.ofCode sent.1, sent.2⟩

def Frame.built (f : Frame) : Bytes := buildFrame f.type f.payload

/-- A frame of `build_frame` is a frame on the wire, with the shortest forms of its integers. -/
def WireFrame.ofBuilt (sent : Nat × Bytes) (code : sent.1 < 2 ^ 62)
    (length : sent.2.length < 2 ^ 62) : WireFrame where
  frame := frameOf sent
  typeBytes := encodeVarint sent.1
  lengthBytes := encodeVarint sent.2.length
  code := sent.1
  isCode := decodeVarint_encodeVarint sent.1 code
  isType := rfl
  isLength := decodeVarint_encodeVarint sent.2.length length

theorem WireFrame.bytes_ofBuilt (sent : Nat × Bytes) (code : sent.1 < 2 ^ 62)
    (length : sent.2.length < 2 ^ 62) :
    (WireFrame.ofBuilt sent code length).bytes = (frameOf sent).built := by
  show encodeVarint sent.1 ++ (encodeVarint sent.2.length ++ sent.2) =
    encodeVarint (FrameType.ofCode sent.1).code ++ encodeVarint sent.2.length ++ sent.2
  rw [code_ofCode, List.append_assoc]

theorem exists_wireFrames (sent : List (Nat × Bytes))
    (small : ∀ each ∈ sent, each.1 < 2 ^ 62 ∧ each.2.length < 2 ^ 62) :
    ∃ sents : List WireFrame, sents.map WireFrame.frame = sent.map frameOf ∧
      sents.flatMap WireFrame.bytes = sent.flatMap fun each => (frameOf each).built := by
  induction sent with
  | nil => exact ⟨[], rfl, rfl⟩
  | cons first sent inductionHypothesis =>
    obtain ⟨code, length⟩ := small first List.mem_cons_self
    obtain ⟨sents, frames, bytes⟩ :=
      inductionHypothesis fun each inside => small each (List.mem_cons_of_mem _ inside)
    refine ⟨.ofBuilt first code length :: sents, ?_, ?_⟩
    · rw [List.map_cons, List.map_cons, frames]
      rfl
    · rw [List.flatMap_cons, List.flatMap_cons, bytes, WireFrame.bytes_ofBuilt]

/-! ### Pieces -/

namespace FrameReader

/-- Pieces are fed to a reader as the session feeds them, and its frames are collected. -/
def readPieces (reader : FrameReader) (frames : List Frame) (pieces : List Bytes) :
    Except Fault (FrameReader × List Frame) :=
  pieces.foldlM (fun state piece =>
    state.1.read (fun frames f => .ok (frames ++ [f])) piece state.2) (reader, frames)

/-- The frames that are collected are those of one scan of all pieces. -/
theorem readPieces_scan (pieces : List Bytes) {reader final : FrameReader} {frames : List Frame}
    (scan : Scan reader pieces.flatten final frames) (waits : reader.Waits)
    (incomplete : reader.state ≠ .complete) (before : List Frame) :
    readPieces reader before pieces = .ok (final, before ++ frames) := by
  induction pieces generalizing reader frames before with
  | nil =>
    obtain ⟨rfl, rfl⟩ := scan.unique (.done incomplete)
    rw [List.append_nil]
    rfl
  | cons piece pieces inductionHypothesis =>
    obtain ⟨middle, first, front⟩ := exists_scan piece reader waits
    obtain ⟨last, others, back⟩ := exists_scan pieces.flatten middle (front.waits waits)
    obtain ⟨rfl, rfl⟩ := scan.unique (front.append waits back)
    have collected : reader.read (fun frames f => .ok (frames ++ [f])) piece before =
        .ok (middle, before ++ first) := by
      rw [read_scan front waits, Session.foldlM_collect]
      rfl
    rw [readPieces, List.foldlM_cons, collected]
    show readPieces middle (before ++ first) pieces = _
    rw [inductionHypothesis back (front.waits waits) front.incomplete, List.append_assoc]

/-- The frames of `build_frame` come out of a new reader in order and unchanged, in whatever pieces
they are fed. What can be missing is the last one, if its payload is empty. -/
theorem readPieces_built (sent : List (Nat × Bytes))
    (small : ∀ each ∈ sent, each.1 < 2 ^ 62 ∧ each.2.length < 2 ^ 62) (pieces : List Bytes)
    (cut : pieces.flatten = sent.flatMap fun each => (frameOf each).built) :
    ∃ reader frames pending, readPieces {} [] pieces = .ok (reader, frames) ∧
      frames ++ pending = sent.map frameOf ∧ (∀ f ∈ pending, f.payload = []) ∧
      (pending ≠ [] ↔ ∃ last ∈ sent.getLast?, last.2 = []) := by
  obtain ⟨sents, whole, bytes⟩ := exists_wireFrames sent small
  have ready : Ready {} [] := ⟨rfl, Or.inl ⟨rfl, rfl⟩⟩
  obtain ⟨final, frames, pending, scan, ends, split, waits⟩ := ready.scan_all sents
  rw [bytes, ← cut] at scan
  rw [List.nil_append, whole] at split
  have lasts : sents.getLast?.map WireFrame.frame = sent.getLast?.map frameOf := by
    rw [← List.getLast?_map, ← List.getLast?_map, whole]
  refine ⟨final, frames, pending, ?_, split, ends.payload, ?_, ?_⟩
  · refine readPieces_scan pieces scan Session.fresh_waits ?_ []
    intro wrong
    cases wrong
  · intro held
    have isLast : sent.getLast?.map frameOf = some (pending.getLast held) := by
      rw [← List.getLast?_map, ← split, List.getLast?_append_of_ne_nil _ held,
        List.getLast?_eq_some_getLast held]
    obtain ⟨last, isSent, same⟩ := Option.map_eq_some_iff.mp isLast
    refine ⟨last, isSent, ?_⟩
    rw [← ends.payload _ (List.getLast_mem held), ← same]
    rfl
  · rintro ⟨last, isLast, empty⟩
    rw [isLast] at lasts
    obtain ⟨sentLast, isSent, same⟩ := Option.map_eq_some_iff.mp lasts
    refine waits sentLast isSent ?_
    rw [same]
    exact empty

/-- All frames of `build_frame` have been produced when the last byte has been fed, in whatever
pieces, exactly when the last of them has a payload. -/
theorem producesAll_iff (sent : List (Nat × Bytes))
    (small : ∀ each ∈ sent, each.1 < 2 ^ 62 ∧ each.2.length < 2 ^ 62) (pieces : List Bytes)
    (cut : pieces.flatten = sent.flatMap fun each => (frameOf each).built) :
    (∃ reader, readPieces {} [] pieces = .ok (reader, sent.map frameOf)) ↔
      ∀ last ∈ sent.getLast?, last.2 ≠ [] := by
  obtain ⟨reader, frames, pending, run, split, -, held⟩ := readPieces_built sent small pieces cut
  constructor
  · rintro ⟨other, all⟩ last isLast empty
    rw [run] at all
    cases all
    exact held.mpr ⟨last, isLast, empty⟩ (List.append_right_eq_self.mp split)
  · intro full
    refine ⟨reader, ?_⟩
    have none : pending = [] := by
      by_contra some
      obtain ⟨last, isLast, empty⟩ := held.mp some
      exact full last isLast empty
    rw [run, ← split, none, List.append_nil]

/-- An empty `SETTINGS` frame is followed by a `DATA` frame, and they are cut within the second. -/
theorem producesAll_settingsThenData :
    ∃ reader, readPieces {} [] [[0x04, 0x00, 0x00], [0x02, 0x68], [0x69]] =
      .ok (reader, [(0x04, []), (0x00, [0x68, 0x69])].map frameOf) :=
  (producesAll_iff [(0x04, []), (0x00, [0x68, 0x69])] (by decide)
    [[0x04, 0x00, 0x00], [0x02, 0x68], [0x69]] (by decide)).mpr (by
      intro last isLast
      cases isLast
      exact List.cons_ne_nil _ _)

/-- An empty `SETTINGS` frame at the end of the bytes is never produced. -/
theorem not_producesAll_settings :
    ¬ ∀ (sent : List (Nat × Bytes)),
      (∀ each ∈ sent, each.1 < 2 ^ 62 ∧ each.2.length < 2 ^ 62) → ∀ pieces : List Bytes,
      (pieces.flatten = sent.flatMap fun each => (frameOf each).built) →
      ∃ reader, readPieces {} [] pieces = .ok (reader, sent.map frameOf) := by
  intro produces
  obtain ⟨reader, all⟩ := produces [(0x04, [])] (by decide) [[0x04, 0x00]] (by decide)
  have none : (readPieces {} [] [[0x04, 0x00]]).toOption.map (·.2) = some [] := by decide
  rw [all] at none
  cases none

end FrameReader

end AsyncNet.Http.H3
