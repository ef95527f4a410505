/-
This file is about `parse_frame` as a function on a buffer that it must not leave. The reads that
it makes are spelled out, each at its position, and one that is not inside the buffer is a fault.
The length that a peer declares is added to the position in 64 bits. A sum that wraps passes the
test against the length of the buffer, but then the length is so large that the payload is refused
before a byte of it is read.

From this follow the two directions of the frame format: what `encode_frame` has written is parsed
as it was, masked or not, and what has been parsed once is parsed again when more has come.
-/

import AsyncNet.Http.WebsocketMessages

namespace AsyncNet.Http.Ws

open H2

/-! ### Reads -/

/-- `data[index]`. -/
def readAt (data : Bytes) (index : Nat) : Except Fault UInt8 :=
  match data[index]? with
  | none => .error .outOfBounds
  | some byte => .ok byte

/-- The bytes from a position on that a loop or `memcpy` reads. -/
def readRange (data : Bytes) (position count : Nat) : Except Fault Bytes :=
  if position + count ≤ data.length then .ok ((data.drop position).take count)
  else .error .outOfBounds

/-- `std::string(data + position, count)`. A string that would be longer than any is refused. -/
def readString (data : Bytes) (position count : Nat) : Except Fault Bytes :=
  if 2 ^ 63 ≤ count then .error .lengthError else readRange data position count

/-- `parse_result`. -/
structure ParseResult where
  frm : Frame
  consumed : Nat
  deriving DecidableEq, Repr

/-- The length in the header of a frame and the position after it. -/
def readLength (data : Bytes) (byte1 : UInt8) : Except Fault (Option (Nat × Nat)) :=
  if byte1 &&& 0x7F = 126 then
    if data.length < 4 then .ok none
    else do
      let high ← readAt data 2
      let low ← readAt data 3
      return some (high.toNat * 2 ^ 8 + low.toNat, 4)
  else if byte1 &&& 0x7F = 127 then
    if data.length < 10 then .ok none
    else do
      let bytes ← readRange data 2 8
      return some (bytes.foldl (fun length byte => length * 2 ^ 8 + byte.toNat) 0, 10)
  else .ok (some ((byte1 &&& 0x7F).toNat, 2))

/-- The masking key and the position after it. -/
def readMaskKey (data : Bytes) (byte1 : UInt8) (pos : Nat) : Except Fault (Option (Bytes × Nat)) :=
  if byte1 &&& 0x80 ≠ 0 then
    if data.length < pos + 4 then .ok none
    else do
      let maskKey ← readRange data pos 4
      return some (maskKey, pos + 4)
  else .ok (some ([0, 0, 0, 0], pos))

/-- The frame with the bits of its first two bytes. -/
def frameOf (byte0 byte1 : UInt8) (maskKey payload : Bytes) : Frame where
  fin := byte0 &&& 0x80 ≠ 0
  op := .ofByte (byte0 &&& 0x0F)
  masked := byte1 &&& 0x80 ≠ 0
  payload := if byte1 &&& 0x80 ≠ 0 then applyMask maskKey payload else payload

/-- `parse_frame` with every read that it makes, and with the number of bytes that it has
consumed. -/
def parseFrameReads (data : Bytes) : Except Fault (Option ParseResult) :=
  if data.length < 2 then .ok none
  else do
    let byte0 ← readAt data 0
    let byte1 ← readAt data 1
    match ← readLength data byte1 with
    | none => return none
    | some (payloadLen, pos) =>
        match ← readMaskKey data byte1 pos with
        | none => return none
        | some (maskKey, pos) =>
            if data.length < (pos + payloadLen) % 2 ^ 64 then return none
            else
              let payload ← readString data pos payloadLen
              return some
                { frm := frameOf byte0 byte1 maskKey payload
                  consumed := (pos + payloadLen) % 2 ^ 64 }

section Reads

variable {data : Bytes}

theorem readAt_eq {index : Nat} (inside : index < data.length) :
    readAt data index = .ok (data.getD index 0) := by
  rw [readAt, List.getElem?_eq_getElem inside, List.getD_eq_getElem _ _ inside]

theorem readRange_eq {position count : Nat} (inside : position + count ≤ data.length) :
    readRange data position count = .ok ((data.drop position).take count) := by
  rw [readRange, if_pos inside]

theorem readLength_eq (data : Bytes) :
    readLength data (data.getD 1 0) = .ok (payloadLength data) := by
  unfold readLength payloadLength
  dsimp only
  by_cases medium : data.getD 1 0 &&& 0x7F = 126
  · simp only [if_pos medium]
    by_cases few : data.length < 4
    · simp only [if_pos few]
    · simp only [if_neg few]
      rw [readAt_eq (by omega), readAt_eq (by omega)]
      rfl
  · simp only [if_neg medium]
    by_cases long : data.getD 1 0 &&& 0x7F = 127
    · simp only [if_pos long]
      by_cases few : data.length < 10
      · simp only [if_pos few]
      · simp only [if_neg few]
        rw [readRange_eq (by omega)]
        rfl
    · simp only [if_neg long]

theorem readMaskKey_eq (data : Bytes) (pos : Nat) :
    readMaskKey data (data.getD 1 0) pos = .ok (maskKeyAt data pos) := by
  unfold readMaskKey maskKeyAt
  split
  · split
    · rfl
    · rw [readRange_eq (by omega)]
      rfl
  · rfl

/-- A buffer that begins with a header: the declared length, the key and where the payload
begins. -/
structure HasHeader (data : Bytes) (payloadLen : Nat) (maskKey : Bytes) (pos : Nat) : Prop where
  long : 2 ≤ data.length
  read : ∃ first, payloadLength data = some (payloadLen, first) ∧
    maskKeyAt data first = some (maskKey, pos)

/-- The length that a header declares. -/
def declaredLength (data : Bytes) : Nat :=
  if data.getD 1 0 &&& 0x7F = 126 then (data.getD 2 0).toNat * 2 ^ 8 + (data.getD 3 0).toNat
  else if data.getD 1 0 &&& 0x7F = 127 then
    ((data.drop 2).take 8).foldl (fun length byte => length * 2 ^ 8 + byte.toNat) 0
  else (data.getD 1 0 &&& 0x7F).toNat

theorem payloadLength_eq_some {found : Nat × Nat} (long : 2 ≤ data.length)
    (read : payloadLength data = some found) :
    found.1 = declaredLength data ∧ found.2 ≤ data.length ∧ found.2 ≤ 10 := by
  unfold payloadLength at read
  unfold declaredLength
  dsimp only at read
  split at read
  · rename_i medium
    split at read
    · cases read
    · cases read
      exact ⟨(if_pos medium).symm, by omega, by omega⟩
  · rename_i medium
    split at read
    · rename_i eight
      split at read
      · cases read
      · cases read
        rw [if_neg medium, if_pos eight]
        exact ⟨rfl, by omega, by omega⟩
    · rename_i eight
      cases read
      rw [if_neg medium, if_neg eight]
      exact ⟨rfl, by omega, by omega⟩

theorem maskKeyAt_le {pos : Nat} {found : Bytes × Nat} (read : maskKeyAt data pos = some found)
    (inside : pos ≤ data.length) : found.2 ≤ data.length ∧ found.2 ≤ pos + 4 := by
  unfold maskKeyAt at read
  split at read
  · split at read
    · cases read
    · cases read
      exact ⟨by omega, le_rfl⟩
  · cases read
    exact ⟨inside, Nat.le_add_right _ _⟩

namespace HasHeader

variable {payloadLen pos : Nat} {maskKey : Bytes}

theorem declares (header : HasHeader data payloadLen maskKey pos) :
    payloadLen = declaredLength data := by
  obtain ⟨long, first, length, -⟩ := header
  exact (payloadLength_eq_some long length).1

/-- A header ends within the buffer, and within fourteen bytes. -/
theorem bounds (header : HasHeader data payloadLen maskKey pos) :
    pos ≤ data.length ∧ pos ≤ 14 := by
  obtain ⟨long, first, length, key⟩ := header
  obtain ⟨-, inside, few⟩ := payloadLength_eq_some long length
  obtain ⟨inside', few'⟩ := maskKeyAt_le key inside
  exact ⟨inside', by omega⟩

theorem append (header : HasHeader data payloadLen maskKey pos) (more : Bytes) :
    HasHeader (data ++ more) payloadLen maskKey pos := by
  obtain ⟨long, first, length, key⟩ := header
  refine ⟨?_, first, payloadLength_append long length more, maskKeyAt_append long key more⟩
  rw [List.length_append]
  omega

/-- What is parsed behind a header. A length that wraps the sum is refused. -/
theorem parseFrameReads_eq (header : HasHeader data payloadLen maskKey pos) :
    parseFrameReads data =
      if 2 ^ 63 ≤ payloadLen ∧ (pos + payloadLen) % 2 ^ 64 ≤ data.length then .error .lengthError
      else if pos + payloadLen ≤ data.length then
        .ok (some
          { frm := frameOf (data.getD 0 0) (data.getD 1 0) maskKey
              ((data.drop pos).take payloadLen)
            consumed := pos + payloadLen })
      else .ok none := by
  obtain ⟨inside, few⟩ := header.bounds
  obtain ⟨long, first, length, key⟩ := header
  have read : parseFrameReads data =
      if data.length < (pos + payloadLen) % 2 ^ 64 then .ok none
      else (readString data pos payloadLen).map fun payload =>
        some
          { frm := frameOf (data.getD 0 0) (data.getD 1 0) maskKey payload
            consumed := (pos + payloadLen) % 2 ^ 64 } := by
    rw [parseFrameReads, if_neg (by omega), readAt_eq (by omega), readAt_eq (by omega)]
    show (readLength data (data.getD 1 0) >>= _) = _
    rw [readLength_eq, length]
    show (readMaskKey data (data.getD 1 0) first >>= _) = _
    rw [readMaskKey_eq, key]
    show (if _ then _ else _) = _
    split
    · rfl
    · cases readString data pos payloadLen <;> rfl
  have most : (pos + payloadLen) % 2 ^ 64 ≤ pos + payloadLen := Nat.mod_le _ _
  rw [read]
  by_cases short : data.length < (pos + payloadLen) % 2 ^ 64
  · rw [if_pos short, if_neg (fun both => Nat.not_lt.mpr both.2 short), if_neg (by omega)]
  · rw [if_neg short, readString]
    by_cases huge : 2 ^ 63 ≤ payloadLen
    · rw [if_pos huge, if_pos ⟨huge, Nat.not_lt.mp short⟩]
      rfl
    · have exact : (pos + payloadLen) % 2 ^ 64 = pos + payloadLen :=
        Nat.mod_eq_of_lt (by omega)
      rw [exact] at short ⊢
      rw [if_neg huge, if_neg (fun both => huge both.1), if_pos (Nat.not_lt.mp short),
        readRange_eq (Nat.not_lt.mp short)]
      rfl

end HasHeader

/-- A buffer without a header is not parsed. -/
theorem parseFrameReads_eq_none
    (nothing : ∀ payloadLen maskKey pos, ¬ HasHeader data payloadLen maskKey pos) :
    parseFrameReads data = .ok none := by
  unfold parseFrameReads
  split
  · rfl
  · rename_i long
    rw [readAt_eq (by omega), readAt_eq (by omega)]
    show (readLength data (data.getD 1 0) >>= _) = _
    rw [readLength_eq]
    cases length : payloadLength data with
    | none => rfl
    | some found =>
      show (readMaskKey data (data.getD 1 0) found.2 >>= _) = _
      rw [readMaskKey_eq]
      cases key : maskKeyAt data found.2 with
      | none => rfl
      | some other =>
        exact absurd ⟨Nat.not_lt.mp long, found.2, length, key⟩ (nothing found.1 other.1 other.2)

/-- The one way in which a frame is parsed. -/
theorem parseFrameReads_eq_some_iff (data : Bytes) (result : ParseResult) :
    parseFrameReads data = .ok (some result) ↔
      ∃ payloadLen maskKey pos, HasHeader data payloadLen maskKey pos ∧ payloadLen < 2 ^ 63 ∧
        pos + payloadLen ≤ data.length ∧
        result =
          { frm := frameOf (data.getD 0 0) (data.getD 1 0) maskKey
              ((data.drop pos).take payloadLen)
            consumed := pos + payloadLen } := by
  constructor
  · intro parsed
    by_cases some : ∃ payloadLen maskKey pos, HasHeader data payloadLen maskKey pos
    · obtain ⟨payloadLen, maskKey, pos, header⟩ := some
      have most : (pos + payloadLen) % 2 ^ 64 ≤ pos + payloadLen := Nat.mod_le _ _
      rw [header.parseFrameReads_eq] at parsed
      split at parsed
      · cases parsed
      · rename_i fits
        split at parsed
        · rename_i inside
          cases parsed
          refine ⟨payloadLen, maskKey, pos, header, ?_, inside, rfl⟩
          exact Nat.not_le.mp fun huge => fits ⟨huge, most.trans inside⟩
        · cases parsed
    · push Not at some
      rw [parseFrameReads_eq_none some] at parsed
      cases parsed
  · rintro ⟨payloadLen, maskKey, pos, header, small, inside, rfl⟩
    rw [header.parseFrameReads_eq, if_neg (fun both => by omega), if_pos inside]

theorem parseFrameReads_ne_outOfBounds (data : Bytes) :
    parseFrameReads data ≠ .error .outOfBounds := by
  by_cases some : ∃ payloadLen maskKey pos, HasHeader data payloadLen maskKey pos
  · obtain ⟨payloadLen, maskKey, pos, header⟩ := some
    rw [header.parseFrameReads_eq]
    split
    · nofun
    · split <;> nofun
  · push Not at some
    rw [parseFrameReads_eq_none some]
    nofun

/-- No read leaves the buffer, and a frame that is returned lies within it and has the payload
length that its header declares. It is returned again, with as many bytes, when more have come. -/
theorem parseFrameReads_bounded (data : Bytes) :
    parseFrameReads data ≠ .error .outOfBounds ∧
      ∀ result, parseFrameReads data = .ok (some result) →
        result.consumed ≤ data.length ∧
        result.frm.payload.length = declaredLength data ∧
        ∀ more, parseFrameReads (data ++ more) = .ok (some result) := by
  refine ⟨parseFrameReads_ne_outOfBounds data, fun result parsed => ?_⟩
  obtain ⟨payloadLen, maskKey, pos, header, small, inside, rfl⟩ :=
    (parseFrameReads_eq_some_iff data result).mp parsed
  have long := header.long
  have taken : ((data.drop pos).take payloadLen).length = payloadLen := by
    rw [List.length_take, List.length_drop]
    omega
  refine ⟨inside, ?_, fun more => ?_⟩
  · rw [← header.declares]
    unfold frameOf
    dsimp only
    split
    · rw [length_applyMask, taken]
    · exact taken
  · refine (parseFrameReads_eq_some_iff _ _).mpr
      ⟨payloadLen, maskKey, pos, header.append more, small, ?_, ?_⟩
    · rw [List.length_append]
      omega
    · rw [List.getD_append _ _ _ _ (by omega), List.getD_append _ _ _ _ (by omega),
        List.drop_append_of_le_length (by omega), List.take_append_of_le_length]
      rw [List.length_drop]
      omega

/-- What `read_frame` uses: the frame, and the buffer without the bytes that it has consumed. -/
theorem parseFrame_eq (short : data.length < 2 ^ 63) :
    parseFrame data =
      (parseFrameReads data).map (Option.map fun result =>
        (result.frm, data.drop result.consumed)) := by
  by_cases some : ∃ payloadLen maskKey pos, HasHeader data payloadLen maskKey pos
  · obtain ⟨payloadLen, maskKey, pos, header⟩ := some
    obtain ⟨inside, few⟩ := header.bounds
    rw [header.parseFrameReads_eq]
    obtain ⟨long, first, length, key⟩ := header
    rw [parseFrame, if_neg (by omega), length]
    dsimp only
    rw [key]
    dsimp only
    by_cases fits : pos + payloadLen ≤ data.length
    · have exact : (pos + payloadLen) % 2 ^ 64 = pos + payloadLen :=
        Nat.mod_eq_of_lt (by omega)
      have notHuge : ¬ (2 ^ 63 ≤ payloadLen ∧ pos + payloadLen ≤ data.length) := by omega
      rw [exact, if_neg (by omega), if_neg (by omega), if_neg notHuge, if_pos fits]
      simp only [Except.map, Option.map_some, frameOf, decide_eq_true_eq]
    · have less : data.length < pos + payloadLen := Nat.not_le.mp fits
      rw [if_neg fits, if_pos less]
      by_cases wrapped : data.length < (pos + payloadLen) % 2 ^ 64
      · rw [if_pos wrapped, if_neg (fun both => Nat.not_lt.mpr both.2 wrapped)]
        rfl
      · have huge : 2 ^ 63 ≤ payloadLen := by
          by_contra small
          rw [Nat.mod_eq_of_lt (by omega)] at wrapped
          exact wrapped less
        rw [if_neg wrapped, if_pos ⟨huge, Nat.not_lt.mp wrapped⟩]
        rfl
  · push Not at some
    rw [parseFrameReads_eq_none some, parseFrame]
    split
    · rfl
    · rename_i long
      cases length : payloadLength data with
      | none => rfl
      | some found =>
        dsimp only
        cases key : maskKeyAt data found.2 with
        | none => rfl
        | some other =>
          exact absurd ⟨Nat.not_lt.mp long, found.2, length, key⟩ (some found.1 other.1 other.2)

end Reads

/-- A masked text of one byte, and what it is parsed as whatever follows. -/
theorem parseFrameReads_bounded_masked :
    ([0x81, 0x81, 0x01, 0x02, 0x03, 0x04, 0x60] : Bytes).length = 7 ∧
      ∀ more, parseFrameReads ([0x81, 0x81, 0x01, 0x02, 0x03, 0x04, 0x60] ++ more) =
        .ok (some ⟨{ masked := true, payload := [0x61] }, 7⟩) :=
  ⟨rfl, ((parseFrameReads_bounded [0x81, 0x81, 0x01, 0x02, 0x03, 0x04, 0x60]).2
    ⟨{ masked := true, payload := [0x61] }, 7⟩ (by decide +kernel)).2.2⟩

/-! ### Round trips -/

/-- The frame of `encode_frame` as it is with the mask bit: the key stands behind the header and
the payload is under the key. -/
def maskedFrame (op : Opcode) (payload : Bytes) (fin : Bool) (key : Bytes) : Bytes :=
  let frame := encodeFrame op payload fin
  let header := frame.take (frame.length - payload.length)
  header.set 1 (header.getD 1 0 ||| 0x80) ++ key ++ applyMask key payload

/-- An opcode of the enumeration, or another that four bits hold. -/
def Opcode.Known (op : Opcode) : Prop := op.toByte &&& 0x0F = op.toByte ∧ .ofByte op.toByte = op

theorem Opcode.known_of_named {op : Opcode} (named : ∀ code, op ≠ .reserved code) : op.Known := by
  cases op with
  | reserved code => exact absurd rfl (named code)
  | _ => exact ⟨by decide, by decide⟩

/-- The form that `encode_frame` chooses for a length. -/
def formOf (size : Nat) : LengthForm :=
  if size ≤ 125 then .short else if size ≤ 65535 then .medium else .long

theorem fits_formOf {size : Nat} (small : size < 2 ^ 63) : (formOf size).Fits size := by
  unfold formOf
  split
  · assumption
  · split
    · exact show size < 2 ^ 16 by omega
    · exact small

section RoundTrips

variable {op : Opcode} {payload : Bytes}

/-- The frame that `encode_frame` writes, or the same frame with a mask. -/
def sentFrame (known : op.Known) (small : payload.length < 2 ^ 63) (fin : Bool)
    (maskKey : Option { key : Bytes // key.length = 4 }) : SentFrame where
  form := formOf payload.length
  maskKey := maskKey
  payload := payload
  fits := fits_formOf small
  fin := fin
  op := op
  known := known

theorem bytes_sentFrame (known : op.Known) (small : payload.length < 2 ^ 63) (fin : Bool) :
    (sentFrame known small fin none).bytes = encodeFrame op payload fin := by
  unfold SentFrame.bytes encodeFrame sentFrame formOf
  dsimp only
  by_cases short : payload.length ≤ 125
  · simp only [if_pos short]
    rfl
  · simp only [if_neg short]
    by_cases medium : payload.length ≤ 65535
    · simp only [if_pos medium]
      rfl
    · simp only [if_neg medium]
      rfl

theorem bytes_sentFrame_some (known : op.Known) (small : payload.length < 2 ^ 63) (fin : Bool)
    (key : { key : Bytes // key.length = 4 }) :
    (sentFrame known small fin (some key)).bytes = maskedFrame op payload fin key.val := by
  obtain ⟨first, second, rest, whole⟩ : ∃ first second rest,
      encodeFrame op payload fin = first :: second :: rest ++ payload ∧
      (sentFrame known small fin (some key)).bytes =
        first :: (second ||| 0x80) :: rest ++ key.val ++ applyMask key.val payload := by
    refine ⟨if fin then op.toByte ||| 0x80 else op.toByte,
      UInt8.ofNat ((formOf payload.length).code payload.length),
      (formOf payload.length).bytes payload.length, ?_, ?_⟩
    · rw [← bytes_sentFrame known small]
      rfl
    · unfold SentFrame.bytes sentFrame Fragment.tail
      simp
  obtain ⟨plain, masked⟩ := whole
  have header : (first :: second :: rest ++ payload).take
      ((first :: second :: rest ++ payload).length - payload.length) = first :: second :: rest := by
    rw [List.length_append, Nat.add_sub_cancel, List.take_left]
  rw [masked, maskedFrame, plain]
  show _ = ((first :: second :: rest ++ payload).take _).set 1 _ ++ _ ++ _
  rw [header]
  rfl

/-- A frame that has been sent is parsed, and all of its bytes are consumed. -/
theorem parseFrameReads_sent (sent : SentFrame) (more : Bytes) :
    parseFrameReads (sent.bytes ++ more) = .ok (some ⟨sent.frame, sent.bytes.length⟩) := by
  obtain ⟨first, second, bytes, fin, op, code, mask⟩ := sent.bytes_eq
  obtain ⟨key, length, keyRead, own⟩ := sent.header_read more
  have total := sent.length_bytes
  have firstIs : (sent.bytes ++ more).getD 0 0 = first := by rw [bytes]; rfl
  have secondIs : (sent.bytes ++ more).getD 1 0 = second := by rw [bytes]; rfl
  have dropped := sent.drop_header first second more
  rw [← bytes] at dropped
  have masked : decide (second &&& 0x80 ≠ 0) = sent.maskKey.isSome := by
    rw [Bool.eq_iff_iff, decide_eq_true_iff, mask]
  have finished : decide (first &&& 0x80 ≠ 0) = sent.fin := by
    rw [Bool.eq_iff_iff, decide_eq_true_iff, fin]
  have payload := sent.payload_read more key own
  refine (parseFrameReads_eq_some_iff _ _).mpr ⟨_, key, _, ⟨?_, _, length, keyRead⟩,
    sent.fits.lt, ?_, ?_⟩
  · rw [List.length_append]
    omega
  · rw [List.length_append]
    omega
  · rw [firstIs, secondIs, ← List.drop_drop, dropped, total, frameOf, masked, finished, op]
    simp only [mask]
    rw [payload]
    rfl

/-- What `encode_frame` writes is parsed as the frame, and so is the frame with a mask. -/
theorem parseFrameReads_encodeFrame (known : op.Known) (small : payload.length < 2 ^ 63)
    (fin : Bool) (more : Bytes) :
    parseFrameReads (encodeFrame op payload fin ++ more) =
        .ok (some ⟨{ fin, op, masked := false, payload },
          (encodeFrame op payload fin).length⟩) ∧
      ∀ key : Bytes, key.length = 4 →
        parseFrameReads (maskedFrame op payload fin key ++ more) =
          .ok (some ⟨{ fin, op, masked := true, payload },
            (maskedFrame op payload fin key).length⟩) := by
  constructor
  · rw [← bytes_sentFrame known small]
    exact parseFrameReads_sent _ more
  · intro key four
    rw [← bytes_sentFrame_some known small fin ⟨key, four⟩]
    exact parseFrameReads_sent _ more

end RoundTrips

/-- A short text without and with a mask, and whatever follows. -/
theorem parseFrameReads_encodeFrame_text :
    encodeFrame .text [0x68, 0x69] true = [0x81, 0x02, 0x68, 0x69] ∧
      maskedFrame .text [0x68, 0x69] true [1, 2, 3, 4] = [0x81, 0x82, 1, 2, 3, 4, 0x69, 0x6B] ∧
      ∀ more, parseFrameReads (encodeFrame .text [0x68, 0x69] true ++ more) =
          .ok (some ⟨{ op := .text, payload := [0x68, 0x69] }, 4⟩) ∧
        parseFrameReads (maskedFrame .text [0x68, 0x69] true [1, 2, 3, 4] ++ more) =
          .ok (some ⟨{ op := .text, masked := true, payload := [0x68, 0x69] }, 8⟩) := by
  refine ⟨by decide, by decide, fun more => ?_⟩
  have parsed := @parseFrameReads_encodeFrame .text [0x68, 0x69]
    (Opcode.known_of_named nofun) (by decide) true more
  exact ⟨parsed.1, parsed.2 [1, 2, 3, 4] rfl⟩

end AsyncNet.Http.Ws
