/-
This file shows that the frame reader can be fed byte by byte. A reader that waits for
bytes misses a known number of them, of the header or of the payload, and one pass of
its loop takes that many or all there are. Taking a first byte and then the others
comes to the same, unless the first byte completes a frame, where the reader stops.
-/

import Mathlib.Algebra.Order.Group.Nat
import AsyncNet.Http.H2Frame

namespace AsyncNet.Http.H2.FrameReader

/-! ### What a reader waits for -/

/-- The reader is in the middle of a header or of a payload. -/
def AwaitsBytes (reader : FrameReader) : Prop :=
  reader.headerBuf.length < frameHeaderSize ∧ reader.currentLength = none ∨
    reader.headerBuf.length = frameHeaderSize ∧
      ∃ length, reader.currentLength = some length ∧ reader.payloadBuf.length < length

/-- The number of bytes that the header or the payload misses. -/
def missing (reader : FrameReader) : Nat :=
  if reader.headerBuf.length < frameHeaderSize then frameHeaderSize - reader.headerBuf.length
  else reader.currentLength.getD 0 - reader.payloadBuf.length

/-- The reader with bytes added to what it is in the middle of. -/
def extend (reader : FrameReader) (data : Bytes) : FrameReader :=
  parseHeader
    (if reader.headerBuf.length < frameHeaderSize then
      { reader with headerBuf := reader.headerBuf ++ data }
    else { reader with payloadBuf := reader.payloadBuf ++ data })

/-- The reader after one more byte. -/
def push (reader : FrameReader) (byte : UInt8) : FrameReader := reader.extend [byte]

theorem missing_pos (reader : FrameReader) (awaits : reader.AwaitsBytes) : 0 < reader.missing := by
  unfold missing
  obtain ⟨short, _⟩ | ⟨full, length, known, less⟩ := awaits
  · rw [if_pos short]
    exact Nat.sub_pos_of_lt short
  · rw [if_neg (by omega), known]
    exact Nat.sub_pos_of_lt less

theorem hasFrame_of_awaits (reader : FrameReader) (awaits : reader.AwaitsBytes) :
    reader.hasFrame = false := by
  unfold hasFrame wantsPayload
  obtain ⟨short, _⟩ | ⟨full, length, known, less⟩ := awaits
  · rw [decide_eq_false (Nat.ne_of_lt short)]
    rfl
  · rw [known, decide_eq_true full]
    simp only [decide_eq_true less, Bool.not_true, Bool.and_false]

theorem parseHeader_of_short (reader : FrameReader)
    (short : reader.headerBuf.length < frameHeaderSize) : reader.parseHeader = reader := by
  rw [parseHeader, if_neg fun full => absurd full.1 (Nat.ne_of_lt short)]

theorem parseHeader_of_known (reader : FrameReader) (length : Nat)
    (known : reader.currentLength = some length) : reader.parseHeader = reader := by
  rw [parseHeader, if_neg fun full => by rw [known] at full; cases full.2]

/-- Bytes that are too few to complete a header or a payload. -/
theorem extend_of_few (reader : FrameReader) (data : Bytes) (awaits : reader.AwaitsBytes)
    (few : data.length < reader.missing) :
    (reader.extend data).AwaitsBytes ∧
      (reader.extend data).missing = reader.missing - data.length ∧
      ∀ more, (reader.extend data).extend more = reader.extend (data ++ more) := by
  unfold missing at few
  obtain ⟨short, unknown⟩ | ⟨full, length, known, less⟩ := awaits
  · rw [if_pos short] at few
    have still : (reader.headerBuf ++ data).length < frameHeaderSize := by
      rw [List.length_append]
      omega
    have extended : reader.extend data = { reader with headerBuf := reader.headerBuf ++ data } := by
      rw [extend, if_pos short, parseHeader_of_short _ still]
    rw [extended]
    refine ⟨Or.inl ⟨still, unknown⟩, ?_, fun more => ?_⟩
    · rw [missing, missing, if_pos still, if_pos short, List.length_append]
      omega
    · rw [extend, if_pos still, extend, if_pos short, List.append_assoc]
  · have notShort : ¬ reader.headerBuf.length < frameHeaderSize := by omega
    rw [if_neg notShort, known, Option.getD_some] at few
    have still : (reader.payloadBuf ++ data).length < length := by
      rw [List.length_append]
      omega
    have extended : reader.extend data =
      { reader with payloadBuf := reader.payloadBuf ++ data } := by
      rw [extend, if_neg notShort]
      exact parseHeader_of_known { reader with payloadBuf := reader.payloadBuf ++ data }
        length known
    rw [extended]
    refine ⟨Or.inr ⟨full, length, known, still⟩, ?_, fun more => ?_⟩
    · rw [missing, missing, if_neg notShort, if_neg notShort, known, List.length_append]
      show length - (_ + _) = length - _ - _
      omega
    · rw [extend, if_neg notShort, extend, if_neg notShort, List.append_assoc]

/-- The last missing byte of a header or a payload: a frame is complete, or its payload is
awaited. -/
theorem extend_of_all (reader : FrameReader) (data : Bytes) (awaits : reader.AwaitsBytes)
    (all : data.length = reader.missing) :
    (reader.extend data).AwaitsBytes ∨ (reader.extend data).hasFrame = true := by
  unfold missing at all
  obtain ⟨short, unknown⟩ | ⟨full, length, known, less⟩ := awaits
  · rw [if_pos short] at all
    have complete : (reader.headerBuf ++ data).length = frameHeaderSize := by
      rw [List.length_append]
      omega
    rw [extend, if_pos short, parseHeader, if_pos ⟨complete, unknown⟩]
    by_cases empty : (FrameHeader.readFrom (reader.headerBuf ++ data)).length = 0
    · refine Or.inr ?_
      simp only [hasFrame, wantsPayload, decide_eq_true complete, empty]
      rfl
    · exact Or.inl (Or.inr ⟨complete, _, rfl, Nat.pos_of_ne_zero empty⟩)
  · have notShort : ¬ reader.headerBuf.length < frameHeaderSize := by omega
    rw [if_neg notShort, known, Option.getD_some] at all
    have complete : (reader.payloadBuf ++ data).length = length := by
      rw [List.length_append]
      omega
    rw [extend, if_neg notShort,
      parseHeader_of_known { reader with payloadBuf := reader.payloadBuf ++ data } length known]
    refine Or.inr ?_
    simp only [hasFrame, wantsPayload, known, decide_eq_true full, complete, lt_irrefl,
      decide_false]
    rfl

theorem push_awaits_or_hasFrame (reader : FrameReader) (byte : UInt8)
    (awaits : reader.AwaitsBytes) :
    (reader.push byte).AwaitsBytes ∨ (reader.push byte).hasFrame = true := by
  have positive := missing_pos reader awaits
  by_cases last : reader.missing = 1
  · exact extend_of_all reader [byte] awaits last.symm
  · exact Or.inl (extend_of_few reader [byte] awaits (by rw [List.length_singleton]; omega)).1

/-! ### The loop -/

/-- A pass takes what is missing. -/
theorem feedLoop_pass (passes : Nat) (reader : FrameReader) (data : Bytes)
    (awaits : reader.AwaitsBytes) (nonempty : data ≠ []) :
    feedLoop (passes + 1) reader data =
      feedLoop passes (reader.extend (data.take reader.missing)) (data.drop reader.missing) := by
  have taken (need : Nat) : data.take (min need data.length) = data.take need ∧
      data.drop (min need data.length) = data.drop need := by
    by_cases few : need ≤ data.length
    · rw [Nat.min_eq_left few]
      exact ⟨rfl, rfl⟩
    · rw [Nat.min_eq_right (by omega), List.take_length, List.drop_length,
        List.take_of_length_le (by omega), List.drop_of_length_le (by omega)]
      exact ⟨rfl, rfl⟩
  rw [feedLoop, if_neg nonempty, missing, extend]
  obtain ⟨short, unknown⟩ | ⟨full, length, known, less⟩ := awaits
  · rw [if_pos short, if_pos short, if_pos short]
    dsimp only
    rw [(taken _).1, (taken _).2]
  · have notShort : ¬ reader.headerBuf.length < frameHeaderSize := by omega
    have wants : reader.wantsPayload = true := by
      rw [wantsPayload, known]
      exact decide_eq_true less
    have need : reader.payloadNeed data.length = length - reader.payloadBuf.length := by
      rw [payloadNeed, known]
    rw [if_neg notShort, if_pos wants, if_neg notShort, if_neg notShort, known, Option.getD_some,
      need]
    dsimp only
    rw [(taken _).1, (taken _).2]

theorem feedLoop_of_hasFrame (passes : Nat) (reader : FrameReader) (data : Bytes)
    (frame : reader.hasFrame = true) : feedLoop passes reader data = (reader, data) := by
  unfold hasFrame at frame
  rw [Bool.and_eq_true, decide_eq_true_eq, Bool.not_eq_true'] at frame
  cases passes with
  | zero => rfl
  | succ passes =>
    rw [feedLoop]
    split
    · rename_i empty
      rw [empty]
    · rw [if_neg (by omega), if_neg (by rw [frame.2]; decide)]

/-- More passes than there are bytes change nothing. -/
theorem feedLoop_enough (passes : Nat) (reader : FrameReader) (data : Bytes)
    (awaits : reader.AwaitsBytes) (enough : data.length ≤ passes) :
    feedLoop passes reader data = reader.feed data := by
  unfold feed
  induction bound : data.length using Nat.strong_induction_on generalizing passes reader data with
  | _ bound' inductionHypothesis =>
  subst bound
  by_cases nonempty : data = []
  · subst nonempty
    cases passes <;> rfl
  · have positive := List.length_pos_of_ne_nil nonempty
    have need := missing_pos reader awaits
    obtain ⟨passes, rfl⟩ := Nat.exists_eq_succ_of_ne_zero (by omega : passes ≠ 0)
    obtain ⟨length, longer⟩ := Nat.exists_eq_succ_of_ne_zero (by omega : data.length ≠ 0)
    rw [longer, feedLoop_pass passes reader data awaits nonempty,
      feedLoop_pass length reader data awaits nonempty]
    have left : (data.drop reader.missing).length ≤ length := by
      rw [List.length_drop]
      omega
    have reached : (reader.extend (data.take reader.missing)).AwaitsBytes ∨
        (reader.extend (data.take reader.missing)).hasFrame = true := by
      by_cases few : data.length < reader.missing
      · rw [List.take_of_length_le (by omega)]
        exact Or.inl (extend_of_few reader data awaits few).1
      · exact extend_of_all reader _ awaits (by rw [List.length_take]; omega)
    rcases reached with awaits' | frame
    · rw [inductionHypothesis _ (by omega) passes _ _ awaits' (by omega) rfl,
        inductionHypothesis _ (by omega) length _ _ awaits' left rfl]
    · rw [feedLoop_of_hasFrame _ _ _ frame, feedLoop_of_hasFrame _ _ _ frame]

/-- The reader takes a byte and goes on, unless the byte completes a frame. -/
theorem feed_cons (reader : FrameReader) (byte : UInt8) (rest : Bytes)
    (awaits : reader.AwaitsBytes) :
    reader.feed (byte :: rest) =
      if (reader.push byte).hasFrame then (reader.push byte, rest)
      else (reader.push byte).feed rest := by
  have need := missing_pos reader awaits
  have pass := feedLoop_pass rest.length reader (byte :: rest) awaits (List.cons_ne_nil _ _)
  rw [feed, List.length_cons, pass]
  by_cases last : reader.missing = 1
  · rw [last]
    show feedLoop rest.length (reader.push byte) rest = _
    rcases push_awaits_or_hasFrame reader byte awaits with awaits' | frame
    · rw [hasFrame_of_awaits _ awaits', if_neg (by decide), feedLoop_enough _ _ _ awaits' le_rfl]
    · rw [feedLoop_of_hasFrame _ _ _ frame, if_pos frame]
  · obtain ⟨awaits', less, joined⟩ :=
      extend_of_few reader [byte] awaits (by rw [List.length_singleton]; omega)
    rw [push, hasFrame_of_awaits _ awaits', if_neg (by decide)]
    obtain ⟨need', more⟩ := Nat.exists_eq_succ_of_ne_zero (by omega : reader.missing ≠ 0)
    by_cases nonempty : rest = []
    · subst nonempty
      rw [more, List.take_succ_cons, List.take_nil, List.drop_succ_cons, List.drop_nil]
      rfl
    · obtain ⟨length, longer⟩ :=
        Nat.exists_eq_succ_of_ne_zero (List.length_pos_of_ne_nil nonempty).ne'
      rw [← feedLoop_enough (rest.length + 1) _ rest awaits' (Nat.le_succ _),
        feedLoop_pass rest.length _ rest awaits' nonempty, less, joined, more]
      rfl

/-- The reader stops at a frame or for lack of bytes, and takes a byte if there is one. -/
theorem feed_stops (reader : FrameReader) (data : Bytes) (awaits : reader.AwaitsBytes) :
    ((reader.feed data).1.AwaitsBytes ∨ (reader.feed data).1.hasFrame = true) ∧
      (reader.feed data).2.length ≤ data.length - 1 := by
  induction data generalizing reader with
  | nil => exact ⟨Or.inl awaits, le_rfl⟩
  | cons byte rest inductionHypothesis =>
    rw [feed_cons reader byte rest awaits]
    rcases push_awaits_or_hasFrame reader byte awaits with awaits' | frame
    · rw [hasFrame_of_awaits _ awaits', if_neg (by decide)]
      obtain ⟨stops, shorter⟩ := inductionHypothesis _ awaits'
      exact ⟨stops, by rw [List.length_cons]; omega⟩
    · rw [if_pos frame]
      exact ⟨Or.inr frame, le_rfl⟩

/-! ### The length of payloads -/

/-- The length that a reader expects and the payload that it has are of 24 bits. -/
def Short (reader : FrameReader) : Prop :=
  reader.payloadBuf.length < 2 ^ 24 ∧
    ∀ length, reader.currentLength = some length → length < 2 ^ 24

theorem length_readFrom (buf : Bytes) : (FrameHeader.readFrom buf).length < 2 ^ 24 := by
  have first := (buf.getD 0 0).toNat_lt
  have second := (buf.getD 1 0).toNat_lt
  have third := (buf.getD 2 0).toNat_lt
  show (buf.getD 0 0).toNat * 2 ^ 16 + (buf.getD 1 0).toNat * 2 ^ 8 + (buf.getD 2 0).toNat < 2 ^ 24
  omega

theorem short_parseHeader (reader : FrameReader) (short : reader.Short) :
    reader.parseHeader.Short := by
  unfold parseHeader
  split
  · refine ⟨Nat.two_pow_pos 24, fun length known => ?_⟩
    cases known
    exact length_readFrom reader.headerBuf
  · exact short

theorem short_push (reader : FrameReader) (byte : UInt8) (awaits : reader.AwaitsBytes)
    (short : reader.Short) : (reader.push byte).Short := by
  refine short_parseHeader _ ?_
  obtain ⟨incomplete, _⟩ | ⟨full, length, known, less⟩ := awaits
  · rw [if_pos incomplete]
    exact short
  · have bound := short.2 length known
    rw [if_neg (by omega)]
    refine ⟨?_, short.2⟩
    rw [List.length_append, List.length_singleton]
    omega

theorem short_takeFrame (reader : FrameReader) : reader.takeFrame.2.Short :=
  ⟨Nat.two_pow_pos 24, nofun⟩

theorem awaitsBytes_new : AwaitsBytes {} := Or.inl ⟨by decide, rfl⟩

theorem awaitsBytes_takeFrame (reader : FrameReader) : reader.takeFrame.2.AwaitsBytes :=
  Or.inl ⟨Nat.zero_lt_succ 8, rfl⟩

end AsyncNet.Http.H2.FrameReader
