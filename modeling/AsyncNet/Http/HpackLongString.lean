/-
This file is about a header value that is too long. `decode_string` reports the bytes it
has read as an `int`, so a string of 2^32 bytes counts for nothing: the decoder goes on
at the first byte of the string and reads it as header fields. Where these do not come
out even, it rejects the block.
-/

import AsyncNet.Http.HpackRoundTrip

namespace AsyncNet.Http.H2

/-! ### The string -/

/-- A string of so many letters `X`, whose Huffman code has eight bits. -/
def letters (count : Nat) : Bytes := List.replicate count 88

theorem length_letters (count : Nat) : (letters count).length = count := List.length_replicate

theorem letters_add (count more : Nat) : letters (count + more) = letters count ++ letters more :=
  (List.replicate_append_replicate ..).symm

theorem isAscii_letters (count : Nat) : IsAscii (letters count) := by
  intro byte member
  rw [List.eq_of_mem_replicate member]
  decide

theorem huffmanIsShorter_letters (count : Nat) : huffmanIsShorter (letters count) = false := by
  have bits : (huffOf 88).bits = 8 := by decide
  rw [huffmanIsShorter, letters, List.map_replicate, List.sum_replicate_nat, List.length_replicate,
    bits, decide_eq_false]
  omega

theorem encodeString_letters (count : Nat) :
    encodeString (letters count) = hpackEncodeInt 16 count 7 0x00 ++ letters count := by
  rw [encodeString, huffmanIsShorter_letters, if_neg (by decide), length_letters]

/-- A string of 2^32 bytes is read, and the decoder goes on at its first byte. -/
theorem readString_overlong (text rest : Bytes) (length : text.length = 2 ^ 32) :
    readString (hpackEncodeInt 16 text.length 7 0x00 ++ text ++ rest) =
      .ok (some (text, text ++ rest)) := by
  have written : hpackEncodeInt 16 text.length 7 0x00 = [127, 129, 255, 255, 255, 15] := by
    rw [length]
    decide
  have decoded := hpackDecodeInt_hpackEncodeInt 16 text.length 7 0x00 (text ++ rest)
    (by rw [length]; decide) (by decide) (by decide) (by rw [written]; exact List.cons_ne_nil _ _)
  rw [List.append_assoc, written] at *
  have total : ([127, 129, 255, 255, 255, 15] ++ (text ++ rest) : Bytes).length =
      6 + text.length + rest.length := by
    rw [List.length_append, List.length_append, Nat.add_assoc]
    rfl
  have raw : ¬ ([127, 129, 255, 255, 255, 15] ++ (text ++ rest) : Bytes).getD 0 0 &&& 0x80 ≠ 0 := by
    show ¬ (127 : UInt8) &&& 0x80 ≠ 0
    decide
  have octets :
      (([127, 129, 255, 255, 255, 15] ++ (text ++ rest) : Bytes).drop 6).take text.length =
      text := List.take_left
  have narrowed : wrapInt32 (((6 : Nat) : Int) + wrapInt32 (text.length : Int)) = 6 := by
    rw [length]
    decide
  have read : decodeString ([127, 129, 255, 255, 255, 15] ++ (text ++ rest)) = .ok (text, 6) := by
    unfold decodeString
    rw [decoded]
    dsimp only [List.length_cons, List.length_nil]
    rw [total, if_neg (by rw [length]; omega), if_neg (by omega), narrowed, if_neg raw]
    exact congrArg (fun text => Except.ok (text, (6 : Int))) octets
  rw [readString, read]
  rfl

/-! ### The block -/

/-- A header with such a value is read, and then the value once more. -/
theorem decodePass_overlong (decoder : HpackDecoder) (rest : Bytes) :
    decoder.decodePass (encodeHeader (ascii "a", letters (2 ^ 32)) ++ rest) =
      .ok (.emit (ascii "a", letters (2 ^ 32)) false (letters (2 ^ 32) ++ rest)) := by
  have length := length_letters (2 ^ 32)
  generalize text : letters (2 ^ 32) = value at length ⊢
  have unknown : ∀ entry ∈ hpackStaticTable, entry.1 ≠ ascii "a" := by decide
  have inexact : (hpackFindStatic (ascii "a") value).2 = false := by
    by_contra found
    obtain ⟨_, _, entry⟩ := hpackFindStatic_exact (ascii "a") value _
      (Prod.ext rfl (Bool.eq_true_of_not_eq_false found))
    exact unknown _ (List.mem_of_getElem? entry) rfl
  have written : encodeHeader (ascii "a", value) =
      [0x00] ++ encodeString (ascii "a") ++ encodeString value := by
    have zero : hpackEncodeInt 16 0 4 0x00 = [0x00] := by decide
    unfold encodeHeader
    dsimp only
    rw [if_neg (by rw [inexact]; decide), zero]
  have raw : encodeString value = hpackEncodeInt 16 value.length 7 0x00 ++ value := by
    rw [← text, encodeString_letters, length_letters]
  have literal : decoder.literal 4 ([0x00] ++ encodeString (ascii "a") ++ encodeString value ++
      rest) = .ok (some ((ascii "a", value), value ++ rest)) := by
    refine HpackDecoder.literal_eq decoder 4 0 1 _ (encodeString value ++ rest) _ _ _ ?_ ?_ ?_
    · rfl
    · rw [List.append_assoc, List.append_assoc]
      exact readString_encodeString (ascii "a") _ (by decide) (by decide)
    · rw [raw, readString_overlong value rest length]
  have plain : ([0x00] ++ encodeString (ascii "a") ++ encodeString value ++ rest).getD 0 0 &&&
      (0xE0 : UInt8) = 0 := by
    rw [List.append_assoc, List.append_assoc, List.singleton_append, List.getD_cons_zero]
    decide
  rw [written, HpackDecoder.decodePass_plain _ _ plain, literal]
  rfl

/-- Ninety letters are a literal whose name is in the static table. -/
theorem decodePass_letters (decoder : HpackDecoder) (rest : Bytes) :
    decoder.decodePass (letters 90 ++ rest) =
      .ok (.emit (ascii "cache-control", letters 88) true rest) := by
  have value : letters 89 = encodeString (letters 88) := by
    rw [encodeString_letters]
    rfl
  have flag : (letters 90 ++ rest).getD 0 0 &&& (0xC0 : UInt8) = 0x40 := by
    show (88 : UInt8) &&& 0xC0 = 0x40
    decide
  have literal : decoder.literal 6 (letters 90 ++ rest) =
      .ok (some ((ascii "cache-control", letters 88), rest)) := by
    refine HpackDecoder.literal_eq decoder 6 24 1 _ (letters 89 ++ rest) _ _ _ rfl rfl ?_
    rw [value]
    exact readString_encodeString _ _ (isAscii_letters 88) (by decide)
  rw [HpackDecoder.decodePass_incremental _ _ flag, literal]
  rfl

theorem decodePass_few (decoder : HpackDecoder) :
    decoder.decodePass (letters 76) = .ok .reject := rfl

theorem decodeFrom_letters (count : Nat) (decoder : HpackDecoder) (result newEntries : Headers) :
    decoder.decodeFrom (letters (90 * count + 76)) result newEntries = .ok (none, decoder) := by
  induction count generalizing result newEntries with
  | zero =>
    have nonempty : letters 76 ≠ [] := by decide
    rw [Nat.mul_zero, Nat.zero_add, HpackDecoder.decodeFrom_pass _ _ _ _ nonempty, decodePass_few]
    rfl
  | succ count inductionHypothesis =>
    have nonempty : letters 90 ++ letters (90 * count + 76) ≠ [] :=
      List.append_ne_nil_of_left_ne_nil (by decide) _
    rw [show 90 * (count + 1) + 76 = 90 + (90 * count + 76) by omega, letters_add,
      HpackDecoder.decodeFrom_emit decoder _ _ _ _ _ _ nonempty (decodePass_letters decoder _),
      inductionHypothesis]

/-- A block that ends with such a header is rejected. -/
theorem decode_overlong (encoder : HpackEncoder) (decoder : HpackDecoder) (headers : Headers)
    (word : encoder.maxTableSize < 2 ^ 64) (isAscii : AsciiHeaders headers)
    (fits : ∀ header ∈ headers, Fits header) :
    ∃ after, decoder.decode (encoder.encode (headers ++ [(ascii "a", letters (2 ^ 32))])).1 =
      .ok ([], after) := by
  have even : 2 ^ 32 = 90 * 47721858 + 76 := by decide
  refine ⟨decoder.resized encoder.pendingUpdate, ?_⟩
  have block : decoder.decodeBlock
      (encoder.encode (headers ++ [(ascii "a", letters (2 ^ 32))])).1 =
        .ok (none, decoder.resized encoder.pendingUpdate) := by
    rw [HpackEncoder.encode, decodeBlock_update encoder decoder _ word, List.flatMap_append,
      List.flatMap_singleton, decodeFrom_flatMap_append headers _ _ _ isAscii fits,
      ← List.append_nil (encodeHeader _), HpackDecoder.decodeFrom_emit _ _ _ _ _ _ _
        (List.append_ne_nil_of_left_ne_nil (encodeHeader_ne_nil _) _) (decodePass_overlong _ _),
      List.append_nil, even, decodeFrom_letters]
  rw [HpackDecoder.decode, block]
  rfl

end AsyncNet.Http.H2
