/-
This file is about the variable-length integers of QUIC, in one piece and in several. What
`encode_varint` writes into a buffer is read back by `decode_varint`, whatever follows it, and it
writes nothing when the buffer is too short or the value too large. The `frame_reader` collects an
integer with `feed_varint` from the pieces that it is fed: they are what `decode_varint` reads when
the pieces are joined, and the bytes behind them are left.
-/

import AsyncNet.Http.H3FrameRoundTrip

namespace AsyncNet.Http.H3

open H2

/-! ### In one piece -/

/-- `encode_varint`: the bytes that it writes and returns the number of. -/
def encodeVarintInto (bufsize : Nat) (value : UInt64) : Bytes :=
  let value := value.toNat
  if value < 64 then if bufsize < 1 then [] else [UInt8.ofNat value]
  else if value < 16384 then
    if bufsize < 2 then [] else [byteAt value 8 ||| 0x40, byteAt value 0]
  else if value < 1073741824 then
    if bufsize < 4 then []
    else [byteAt value 24 ||| 0x80, byteAt value 16, byteAt value 8, byteAt value 0]
  else if value < 4611686018427387904 then
    if bufsize < 8 then []
    else
      [byteAt value 56 ||| 0xC0, byteAt value 48, byteAt value 40, byteAt value 32, byteAt value 24,
        byteAt value 16, byteAt value 8, byteAt value 0]
  else []

/-- The bytes that the standard has for a value below 2^62. -/
def varintSize (value : Nat) : Nat :=
  if value < 64 then 1 else if value < 16384 then 2 else if value < 1073741824 then 4 else 8

theorem length_encodeVarint {value : Nat} (small : value < 2 ^ 62) :
    (encodeVarint value).length = varintSize value := by
  unfold encodeVarint varintSize
  split
  · rfl
  · split
    · rfl
    · split
      · rfl
      · have below : value < 4611686018427387904 := small
        simp only [if_pos below, List.length_cons, List.length_nil]

theorem encodeVarint_large {value : Nat} (large : 2 ^ 62 ≤ value) : encodeVarint value = [] := by
  unfold encodeVarint
  rw [if_neg (by omega), if_neg (by omega), if_neg (by omega), if_neg (by omega)]

/-- In a buffer that is long enough the integer is written as `append_varint` has it. -/
theorem encodeVarintInto_eq (bufsize : Nat) (value : UInt64) :
    encodeVarintInto bufsize value =
      if bufsize < (encodeVarint value.toNat).length then [] else encodeVarint value.toNat := by
  unfold encodeVarintInto encodeVarint
  dsimp only
  split
  · rfl
  · split
    · rfl
    · split
      · rfl
      · split
        · rfl
        · exact (ite_self _).symm

/-- An integer is read in front of anything. -/
theorem decodeVarint_append {bytes : Bytes} {value : Nat}
    (decoded : decodeVarint bytes = some (value, bytes.length)) (rest : Bytes) :
    decodeVarint (bytes ++ rest) = some (value, bytes.length) := by
  have begins : bytes <+: bytes ++ rest := List.prefix_append bytes rest
  cases whole : decodeVarint (bytes ++ rest) with
  | none =>
    rw [decodeVarint_prefix_none begins whole] at decoded
    cases decoded
  | some read =>
    have front := decodeVarint_isPrefix begins whole
    rw [decoded] at front
    split at front
    · cases front
    · exact front.symm

/-- There is an integer if the bytes that it takes are there. -/
theorem decodeVarint_isSome {bytes : Bytes}
    (enough : varintLength (bytes.getD 0 0) ≤ bytes.length) :
    ∃ value, decodeVarint bytes = some (value, varintLength (bytes.getD 0 0)) := by
  unfold decodeVarint
  dsimp only
  rw [if_neg (Nat.not_lt.mpr enough)]
  exact ⟨_, rfl⟩

theorem getD_append_zero {bytes : Bytes} (some : bytes ≠ []) (more : Bytes) :
    (bytes ++ more).getD 0 0 = bytes.getD 0 0 := by
  cases bytes with
  | nil => exact absurd rfl some
  | cons first bytes => rfl

/-! ### In several pieces -/

namespace FrameReader

/-- The calls of `feed_varint` on pieces, up to the one that completes an integer: the value, if
there is one, and the number of bytes that have been consumed. A call without data does nothing. -/
def feedVarintPieces (reader : FrameReader) : List Bytes → Option Nat × Nat
  | [] => (none, 0)
  | piece :: pieces =>
      if piece = [] then reader.feedVarintPieces pieces
      else
        match reader.feedVarint piece with
        | (_, some value, rest) => (some value, piece.length - rest.length)
        | (reader, none, rest) =>
            let (value, consumed) := reader.feedVarintPieces pieces
            (value, piece.length - rest.length + consumed)

/-- A reader that has collected the first bytes of an integer. -/
structure Collects (reader : FrameReader) (front : Bytes) : Prop where
  begun : reader.varintBytesExpected = 0 ↔ front = []
  held : reader.held = front
  length : front ≠ [] → reader.varintBytesExpected = varintLength (front.getD 0 0)
  short : front ≠ [] → front.length < varintLength (front.getD 0 0)

theorem collects_fresh {reader : FrameReader} (fresh : reader.varintBytesExpected = 0) :
    reader.Collects [] where
  begun := iff_of_true fresh rfl
  held := if_pos fresh
  length := fun wrong => absurd rfl wrong
  short := fun wrong => absurd rfl wrong

variable {reader : FrameReader} {front data : Bytes}

theorem Collects.expected (collects : reader.Collects front) (data : Bytes) :
    reader.expected data = varintLength ((front ++ data).getD 0 0) := by
  unfold FrameReader.expected
  cases front with
  | nil => rw [if_pos (collects.begun.mpr rfl), List.nil_append]
  | cons first front =>
    have some : first :: front ≠ [] := List.cons_ne_nil first front
    rw [if_neg (fun wrong => some (collects.begun.mp wrong)), collects.length some]
    rfl

theorem Collects.lt (collects : reader.Collects front) (data : Bytes) :
    front.length < varintLength ((front ++ data).getD 0 0) := by
  cases front with
  | nil => exact varintLength_pos _
  | cons first front => exact collects.short (List.cons_ne_nil first front)

/-- A piece that does not complete the integer is collected. -/
theorem Collects.few (collects : reader.Collects front) (some : data ≠ [])
    (few : (front ++ data).length < varintLength ((front ++ data).getD 0 0)) :
    ∃ next, reader.feedVarint data = (next, none, []) ∧ next.Collects (front ++ data) := by
  have less : data.length < reader.expected data - reader.held.length := by
    rw [collects.expected, collects.held]
    rw [List.length_append] at few
    omega
  have positive := varintLength_pos ((front ++ data).getD 0 0)
  refine ⟨_, feedVarint_few data less, ?_, ?_, fun _ => collects.expected data, fun _ => few⟩
  · refine iff_of_false ?_ (List.append_ne_nil_of_right_ne_nil front some)
    show reader.expected data ≠ 0
    rw [collects.expected]
    omega
  · have begun : reader.expected data ≠ 0 := by
      rw [collects.expected]
      omega
    refine (if_neg begun).trans ?_
    rw [collects.held]

/-- A piece that completes the integer is consumed up to its end. -/
theorem Collects.enough (collects : reader.Collects front) {value consumed : Nat} {more : Bytes}
    (decoded : decodeVarint (front ++ data ++ more) = some (value, consumed))
    (isLength : consumed = varintLength ((front ++ data).getD 0 0))
    (enough : consumed ≤ (front ++ data).length) :
    ∃ next rest, reader.feedVarint data = (next, some value, rest) ∧
      data.length - rest.length = consumed - front.length := by
  have less := collects.lt data
  have expected := collects.expected data
  rw [← isLength] at less expected
  rw [List.length_append] at enough
  have whole : (front ++ data.take (consumed - front.length)).length = consumed := by
    rw [List.length_append, List.length_take]
    omega
  have begins : front ++ data.take (consumed - front.length) <+: front ++ data ++ more := by
    rw [List.append_assoc]
    refine (List.prefix_append_right_inj front).mpr ?_
    exact (List.take_prefix _ data).trans (List.prefix_append data more)
  have front' := decodeVarint_isPrefix begins decoded
  rw [whole, if_neg (lt_irrefl consumed)] at front'
  refine ⟨{ reader with varintBuf := [], varintBytesExpected := 0 },
    data.drop (consumed - front.length), ?_, ?_⟩
  · unfold feedVarint
    dsimp only
    rw [expected, collects.held, if_pos whole, front']
    rfl
  · rw [List.length_drop]
    omega

/-- Bytes that are joined to those that have been collected. -/
theorem Collects.pieces (collects : reader.Collects front) (pieces : List Bytes) :
    reader.feedVarintPieces pieces =
      match decodeVarint (front ++ pieces.flatten) with
      | some (value, consumed) => (some value, consumed - front.length)
      | none => (none, pieces.flatten.length) := by
  induction pieces generalizing reader front with
  | nil =>
    have short := collects.lt []
    rw [List.append_nil] at short
    have undecoded : decodeVarint (front ++ [].flatten) = none := by
      rw [List.flatten_nil, List.append_nil]
      exact if_pos short
    rw [undecoded]
    rfl
  | cons piece pieces inductionHypothesis =>
    rw [feedVarintPieces]
    by_cases empty : piece = []
    · rw [if_pos empty, empty, List.flatten_cons, List.nil_append]
      exact inductionHypothesis collects
    · rw [if_neg empty, List.flatten_cons, ← List.append_assoc]
      have same := getD_append_zero (List.append_ne_nil_of_right_ne_nil front empty) pieces.flatten
      rcases Nat.lt_or_ge (front ++ piece).length (varintLength ((front ++ piece).getD 0 0))
        with few | enough
      · obtain ⟨next, fed, goesOn⟩ := collects.few empty few
        rw [fed]
        dsimp only
        rw [inductionHypothesis goesOn]
        cases decoded : decodeVarint (front ++ piece ++ pieces.flatten) with
        | none => exact congrArg (Prod.mk _) List.length_append.symm
        | some read =>
          obtain ⟨value, consumed⟩ := read
          have length := decodeVarint_consumed decoded
          rw [same] at length
          refine congrArg (Prod.mk _) ?_
          rw [← length, List.length_append] at few
          rw [List.length_append]
          show piece.length - 0 + (consumed - (front.length + piece.length)) =
            consumed - front.length
          omega
      · have reached : varintLength ((front ++ piece ++ pieces.flatten).getD 0 0) ≤
            (front ++ piece ++ pieces.flatten).length := by
          rw [same]
          exact enough.trans (List.prefix_append (front ++ piece) pieces.flatten).length_le
        obtain ⟨value, decoded⟩ := decodeVarint_isSome reached
        rw [same] at decoded
        obtain ⟨next, rest, fed, taken⟩ := collects.enough decoded rfl enough
        rw [fed, decoded]
        exact congrArg (Prod.mk _) taken

end FrameReader

/-- An integer that is written is read back whatever follows it, none is written that is too large
or does not fit, and a reader that is fed any bytes in any pieces, between two integers, reads what
`decode_varint` reads in front of all of them. -/
theorem varints (bufsize : Nat) (value : UInt64) (rest : Bytes) (reader : FrameReader)
    (pieces : List Bytes) :
    (value.toNat < 2 ^ 62 ∧ varintSize value.toNat ≤ bufsize →
        (encodeVarintInto bufsize value).length = varintSize value.toNat ∧
          decodeVarint (encodeVarintInto bufsize value ++ rest) =
            some (value.toNat, (encodeVarintInto bufsize value).length)) ∧
      (¬(value.toNat < 2 ^ 62 ∧ varintSize value.toNat ≤ bufsize) →
        encodeVarintInto bufsize value = []) ∧
      (reader.varintBytesExpected = 0 →
        reader.feedVarintPieces pieces =
          match decodeVarint pieces.flatten with
          | some (value, consumed) => (some value, consumed)
          | none => (none, pieces.flatten.length)) := by
  rw [encodeVarintInto_eq]
  refine ⟨?_, ?_, ?_⟩
  · rintro ⟨small, fits⟩
    rw [length_encodeVarint small, if_neg (Nat.not_lt.mpr fits)]
    refine ⟨length_encodeVarint small, ?_⟩
    exact decodeVarint_append (decodeVarint_encodeVarint value.toNat small) rest
  · intro wrong
    rcases Nat.lt_or_ge value.toNat (2 ^ 62) with small | large
    · have short := Nat.lt_of_not_le fun fits => wrong ⟨small, fits⟩
      rw [length_encodeVarint small, if_pos short]
    · rw [encodeVarint_large large]
      exact ite_self _
  · intro fresh
    exact (FrameReader.collects_fresh fresh).pieces pieces

end AsyncNet.Http.H3
