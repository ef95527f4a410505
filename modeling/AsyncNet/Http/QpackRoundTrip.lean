/-
This file proves that the QPACK decoder recovers the headers that the QPACK encoder wrote,
whatever its dynamic table holds. The encoder chooses one of three representations for a
header by looking it up in the static table; the decoder tells them apart by their leading
bits. Each representation is read back with any bytes following, and then the section.
-/

import AsyncNet.Http.HpackBlocks
import AsyncNet.Http.HpackRoundTrip
import AsyncNet.Http.Qpack
import Mathlib.Algebra.Order.BigOperators.Group.List

namespace AsyncNet.Http.H3

open AsyncNet.Http.H2

/-! ### Strings -/

/-- A string that HPACK reads is read by QPACK, unless it is Huffman coded and empty. -/
theorem qpackDecodeString_eq {data text : Bytes} {length : Int}
    (decoded : decodeString data = .ok (text, length))
    (sound : text ≠ [] ∨ ¬ data.getD 0 0 &&& 0x80 ≠ 0) :
    qpackDecodeString data = .ok (text, length) := by
  unfold decodeString at decoded
  unfold qpackDecodeString qpackDecodeInt
  cases read : hpackDecodeInt data 7 with
  | none =>
    rw [read] at decoded
    exact decoded
  | some found =>
    obtain ⟨strLen, consumed⟩ := found
    rw [read] at decoded
    simp only at decoded ⊢
    split at decoded
    · rename_i short
      rw [if_pos short]
      exact decoded
    · rename_i long
      rw [if_neg long]
      split at decoded
      · split at decoded
        · rename_i huffman
          split at decoded
          · cases decoded
            rcases sound with nonempty | plain
            · exact absurd rfl nonempty
            · exact absurd huffman plain
          · cases decoded
        · cases decoded
      · rename_i inside
        rw [if_neg inside]
        simp only [Except.ok.injEq, Prod.mk.injEq] at decoded
        obtain ⟨rfl, rfl⟩ := decoded
        rw [if_neg]
        rintro ⟨huffman, empty, _⟩
        rcases sound with nonempty | plain
        · exact nonempty empty
        · exact plain huffman

/-- The Huffman code is used for a string that is not empty. -/
theorem encodeString_nonempty_or_plain (text rest : Bytes) :
    text ≠ [] ∨ ¬ (encodeString text ++ rest).getD 0 0 &&& 0x80 ≠ 0 := by
  by_cases empty : text = []
  · subst empty
    exact Or.inr (by
      rw [show encodeString [] = [0x00] by decide]
      rw [List.singleton_append, List.getD_cons_zero]
      decide)
  · exact Or.inl empty

/-- A string is read back, with any bytes before and after it. -/
theorem stringAt_encodeString (front text rest : Bytes) (isAscii : IsAscii text)
    (small : (qpackEncodeString text).length < 2 ^ 31) :
    QpackDecoder.stringAt (front ++ (qpackEncodeString text ++ rest)) (front.length : Int) =
      .ok (text, ((qpackEncodeString text).length : Int)) := by
  rw [QpackDecoder.stringAt, if_neg (Int.natCast_nonneg front.length).not_gt, Int.toNat_natCast,
    List.drop_left]
  exact qpackDecodeString_eq (decodeString_encodeString text rest isAscii small)
    (encodeString_nonempty_or_plain text rest)

/-! ### Field lines -/

theorem findStatic_eq {name value : Bytes} {index : Nat}
    (found : findStatic name value = some index) :
    index < 99 ∧ qpackStaticTable[index]? = some (name, value) := by
  obtain ⟨below, matches', _⟩ := List.findIdx?_eq_some_iff_getElem.mp found
  rw [Bool.and_eq_true, decide_eq_true_eq, decide_eq_true_eq] at matches'
  refine ⟨below, ?_⟩
  rw [List.getElem?_eq_getElem below, ← matches'.1, ← matches'.2]

theorem findStaticName_eq {name : Bytes} {index : Nat} (found : findStaticName name = some index) :
    index < 99 ∧ qpackStaticTable[index]?.map (·.1) = some name := by
  obtain ⟨below, matches', _⟩ := List.findIdx?_eq_some_iff_getElem.mp found
  rw [decide_eq_true_eq] at matches'
  refine ⟨below, ?_⟩
  rw [List.getElem?_eq_getElem below, Option.map_some, matches']

/-- An index of the static table is written with the bits of its representation, and read back. -/
theorem decodeInt_staticIndex {index prefixBits : Nat} {mask : UInt8} (rest : Bytes)
    (below : index < 99) (narrow : prefixBits ≤ 8) (clear : mask.toNat % 2 ^ prefixBits = 0)
    (written : ∀ index < 99, qpackEncodeInt 64 index prefixBits mask ≠ []) :
    qpackDecodeInt (qpackEncodeInt 64 index prefixBits mask ++ rest) prefixBits =
      some (index, (qpackEncodeInt 64 index prefixBits mask).length) :=
  hpackDecodeInt_hpackEncodeInt 64 index prefixBits mask rest (lt_trans below (by decide)) narrow
    clear (written index below)

section FieldLines

variable (decoder : QpackDecoder) (base : Nat) (rest : Bytes)

theorem decodeFieldLine_indexed {header : Header} {index : Nat}
    (found : findStatic header.1 header.2 = some index) :
    decoder.decodeFieldLine (qpackEncodeInt 64 index 6 0xC0 ++ rest) base =
      .ok (some (header, ((qpackEncodeInt 64 index 6 0xC0).length : Int))) := by
  obtain ⟨below, entry⟩ := findStatic_eq found
  have written : ∀ index < 99, qpackEncodeInt 64 index 6 0xC0 ≠ [] := by decide
  have flagged : ∀ index < 99, (qpackEncodeInt 64 index 6 0xC0).getD 0 0 &&& 0xC0 = 0xC0 := by
    decide
  have nonempty := List.append_ne_nil_of_left_ne_nil (written index below) rest
  unfold QpackDecoder.decodeFieldLine
  rw [if_neg nonempty, getD_append rest (written index below), if_pos (flagged index below),
    decodeInt_staticIndex rest below (by decide) (by decide) written]
  show Except.ok (qpackStaticTable[index]?.map _) = _
  rw [entry]
  rfl

theorem valueLine_encodeString (front name value : Bytes) (isAscii : IsAscii value)
    (small : (front ++ qpackEncodeString value).length < 2 ^ 31) :
    QpackDecoder.valueLine (front ++ (qpackEncodeString value ++ rest)) name (front.length : Int) =
      .ok (some ((name, value), ((front ++ qpackEncodeString value).length : Int))) := by
  have length : (front ++ qpackEncodeString value).length =
      front.length + (qpackEncodeString value).length := List.length_append
  have valueSmall : (qpackEncodeString value).length < 2 ^ 31 := by omega
  have positive : 0 < (qpackEncodeString value).length := encodeString_length_pos value valueSmall
  rw [QpackDecoder.valueLine, stringAt_encodeString front value rest isAscii valueSmall]
  show Except.ok (if ((qpackEncodeString value).length : Int) = 0 then none else _) = _
  rw [if_neg (by omega), ← Nat.cast_add, ← length, wrapInt32_of_small _ small]

theorem decodeFieldLine_nameReference {name value : Bytes} {nameIdx : Nat}
    (found : findStaticName name = some nameIdx) (isAscii : IsAscii value)
    (small : (qpackEncodeInt 64 nameIdx 4 0x50 ++ qpackEncodeString value).length < 2 ^ 31) :
    decoder.decodeFieldLine
        (qpackEncodeInt 64 nameIdx 4 0x50 ++ qpackEncodeString value ++ rest) base =
      .ok (some ((name, value),
        ((qpackEncodeInt 64 nameIdx 4 0x50 ++ qpackEncodeString value).length : Int))) := by
  obtain ⟨below, entry⟩ := findStaticName_eq found
  have written : ∀ index < 99, qpackEncodeInt 64 index 4 0x50 ≠ [] := by decide
  have flagged : ∀ index < 99, (qpackEncodeInt 64 index 4 0x50).getD 0 0 &&& 0xC0 = 0x40 ∧
      (qpackEncodeInt 64 index 4 0x50).getD 0 0 &&& 0xE0 = 0x40 ∧
      (qpackEncodeInt 64 index 4 0x50).getD 0 0 &&& 0x10 ≠ 0 := by decide
  obtain ⟨literal, notDynamic, isStatic⟩ := flagged nameIdx below
  rw [List.append_assoc]
  have nonempty := List.append_ne_nil_of_left_ne_nil (written nameIdx below)
    (qpackEncodeString value ++ rest)
  unfold QpackDecoder.decodeFieldLine
  rw [if_neg nonempty, getD_append _ (written nameIdx below), literal, notDynamic,
    if_neg (by decide), if_neg (by decide), if_pos rfl,
    decodeInt_staticIndex _ below (by decide) (by decide) written]
  simp only [QpackDecoder.referredName, isStatic, ne_eq, not_false_eq_true, decide_true, if_true,
    entry]
  exact valueLine_encodeString rest _ name value isAscii small

theorem decodeFieldLine_of_plain :
    decoder.decodeFieldLine (0x20 :: rest) base = QpackDecoder.literalLine (0x20 :: rest) := by
  unfold QpackDecoder.decodeFieldLine
  simp only [List.getD_cons_zero]
  rw [if_neg (List.cons_ne_nil _ _), if_neg (by decide), if_neg (by decide), if_neg (by decide),
    if_pos (by decide)]

theorem decodeFieldLine_literal {name value : Bytes} (asciiName : IsAscii name)
    (asciiValue : IsAscii value)
    (small : ([0x20] ++ qpackEncodeString name ++ qpackEncodeString value).length < 2 ^ 31) :
    decoder.decodeFieldLine
        ([0x20] ++ qpackEncodeString name ++ qpackEncodeString value ++ rest) base =
      .ok (some ((name, value),
        (([0x20] ++ qpackEncodeString name ++ qpackEncodeString value).length : Int))) := by
  have front : ([0x20] ++ qpackEncodeString name).length = 1 + (qpackEncodeString name).length :=
    List.length_append
  have nameSmall : (qpackEncodeString name).length < 2 ^ 31 := by
    rw [List.length_append] at small
    omega
  have positive : 0 < (qpackEncodeString name).length := encodeString_length_pos name nameSmall
  have readName := stringAt_encodeString [0x20] name (qpackEncodeString value ++ rest) asciiName
    nameSmall
  have readValue := valueLine_encodeString rest ([0x20] ++ qpackEncodeString name) name value
    asciiValue small
  have position : wrapInt32 (1 + ((qpackEncodeString name).length : Int)) =
      (([0x20] ++ qpackEncodeString name).length : Int) := by
    rw [front, ← Nat.cast_one, ← Nat.cast_add]
    refine wrapInt32_of_small _ ?_
    rw [List.length_append] at small
    omega
  rw [List.append_assoc] at readValue
  rw [List.append_assoc, List.append_assoc]
  rw [List.singleton_append, decodeFieldLine_of_plain, ← List.singleton_append,
    QpackDecoder.literalLine, show (1 : Int) = (([0x20] : Bytes).length : Int) from rfl, readName]
  show (if ((qpackEncodeString name).length : Int) = 0 then Except.ok none
    else QpackDecoder.valueLine _ name (wrapInt32 (1 + _))) = _
  rw [if_neg (by omega), position, readValue]

/-- The encoder's representation of a header is read back. -/
theorem decodeFieldLine_encodeFieldLine (header : Header) (asciiName : IsAscii header.1)
    (asciiValue : IsAscii header.2) (small : (encodeFieldLine header).length < 2 ^ 31) :
    decoder.decodeFieldLine (encodeFieldLine header ++ rest) base =
      .ok (some (header, ((encodeFieldLine header).length : Int))) := by
  unfold encodeFieldLine at small ⊢
  cases found : findStatic header.1 header.2 with
  | some index => exact decodeFieldLine_indexed decoder base rest found
  | none =>
    simp only [found] at small
    cases named : findStaticName header.1 with
    | some nameIdx =>
      simp only [named] at small
      exact decodeFieldLine_nameReference decoder base rest named asciiValue small
    | none =>
      simp only [named] at small
      exact decodeFieldLine_literal decoder base rest asciiName asciiValue small

end FieldLines

theorem encodeFieldLine_length_pos (header : Header) : 0 < (encodeFieldLine header).length := by
  unfold encodeFieldLine
  cases found : findStatic header.1 header.2 with
  | some index =>
    have written : ∀ index < 99, 0 < (qpackEncodeInt 64 index 6 0xC0).length := by decide
    exact written index (findStatic_eq found).1
  | none =>
    simp only
    cases named : findStaticName header.1 with
    | some nameIdx =>
      have written : ∀ index < 99, 0 < (qpackEncodeInt 64 index 4 0x50).length := by decide
      have positive := written nameIdx (findStaticName_eq named).1
      simp only [List.length_append]
      omega
    | none =>
      simp only [List.length_append, List.length_singleton]
      omega

/-! ### Field sections -/

/-- Every header takes at least one byte. -/
theorem length_le_encodeFieldLines (headers : Headers) :
    headers.length ≤ (headers.flatMap encodeFieldLine).length := by
  have counted : (headers.map fun header => (encodeFieldLine header).length).length =
      headers.length := List.length_map _
  rw [List.length_flatMap, ← counted]
  refine List.length_le_sum_of_one_le _ fun length member => ?_
  obtain ⟨header, _, rfl⟩ := List.mem_map.mp member
  exact encodeFieldLine_length_pos header

/-- The lines of the headers are read one after the other, from where they begin. -/
theorem fieldLines_flatMap (decoder : QpackDecoder) (base passes : Nat) (front : Bytes)
    (headers : Headers) (isAscii : AsciiHeaders headers)
    (small : (front ++ headers.flatMap encodeFieldLine).length < 2 ^ 31)
    (enough : headers.length < passes) :
    decoder.fieldLines (front ++ headers.flatMap encodeFieldLine) base passes (front.length : Int) =
      .ok headers := by
  have size := wrapInt32_of_small _ small
  induction headers generalizing front passes with
  | nil =>
    obtain ⟨left, rfl⟩ := Nat.exists_eq_succ_of_ne_zero (Nat.ne_zero_of_lt enough)
    rw [List.flatMap_nil, List.append_nil] at size ⊢
    rw [QpackDecoder.fieldLines, size, if_neg (lt_irrefl _)]
  | cons header headers inductionHypothesis =>
    obtain ⟨left, rfl⟩ := Nat.exists_eq_succ_of_ne_zero (Nat.ne_zero_of_lt enough)
    have here := isAscii header List.mem_cons_self
    have regroup : front ++ (header :: headers).flatMap encodeFieldLine =
        (front ++ encodeFieldLine header) ++ headers.flatMap encodeFieldLine := by
      rw [List.flatMap_cons, List.append_assoc]
    have total : (front ++ (header :: headers).flatMap encodeFieldLine).length =
        front.length + (encodeFieldLine header).length +
          (headers.flatMap encodeFieldLine).length := by
      rw [regroup, List.length_append, List.length_append]
    have lineSmall : (encodeFieldLine header).length < 2 ^ 31 := by omega
    have positive := encodeFieldLine_length_pos header
    have later := inductionHypothesis left (front ++ encodeFieldLine header)
      (fun other member => isAscii other (List.mem_cons_of_mem _ member))
      (by rw [← regroup]; exact small) (by rw [List.length_cons] at enough; omega)
      (by rw [← regroup]; exact size)
    rw [QpackDecoder.fieldLines, size, if_pos (by omega), if_neg (by omega), Int.toNat_natCast,
      List.drop_left, List.flatMap_cons,
      decodeFieldLine_encodeFieldLine decoder base _ header here.1 here.2 lineSmall]
    simp only [bind, Except.bind]
    rw [if_neg (by omega), ← Nat.cast_add, wrapInt32_of_small _ (by omega), ← List.length_append,
      ← List.flatMap_cons, regroup, later]
    rfl

/-- A field line is at most 96 bytes longer than its name and its value. -/
theorem length_encodeFieldLine_le (header : Header) :
    (encodeFieldLine header).length ≤ header.1.length + header.2.length + 96 := by
  have coded (text : Bytes) : (qpackEncodeString text).length ≤ text.length + 16 :=
    length_encodeString_le text
  have value := coded header.2
  unfold encodeFieldLine
  split
  · have index (found : Nat) : (qpackEncodeInt 64 found 6 0xC0).length ≤ 64 :=
      length_hpackEncodeInt_le 64 found 6 0xC0
    exact (index _).trans (by omega)
  · split
    · have index (found : Nat) : (qpackEncodeInt 64 found 4 0x50).length ≤ 64 :=
        length_hpackEncodeInt_le 64 found 4 0x50
      rw [List.length_append]
      exact (Nat.add_le_add (index _) value).trans (by omega)
    · have name := coded header.1
      rw [List.length_append, List.length_append, List.length_singleton]
      omega

theorem length_encodeStatic_le (headers : Headers) :
    (encodeStatic headers).length ≤
      2 + (headers.map fun header => header.1.length + header.2.length + 96).sum := by
  unfold encodeStatic
  rw [List.length_append, List.length_flatMap]
  exact Nat.add_le_add_left (List.sum_le_sum fun header _ => length_encodeFieldLine_le header) 2

/-- Decoding a field section that was encoded gives the headers. -/
theorem decode_encodeStatic (decoder : QpackDecoder) (headers : Headers)
    (isAscii : AsciiHeaders headers) (small : (encodeStatic headers).length < 2 ^ 31) :
    decoder.decode (encodeStatic headers) = .ok headers := by
  have few := length_le_encodeFieldLines headers
  have total : (encodeStatic headers).length = 2 + (headers.flatMap encodeFieldLine).length :=
    List.length_append
  have read := fieldLines_flatMap decoder 0 ((encodeStatic headers).length + 1) [0x00, 0x00] headers
    isAscii small (by omega)
  unfold QpackDecoder.decode
  rw [if_neg (by omega)]
  exact read

/-- An index, a name reference and a literal with nothing in it. -/
theorem decode_encodeStatic_three :
    ({} : QpackDecoder).decode
        (encodeStatic [(ascii ":status", ascii "200"), (ascii "server", ascii "x"), ([], [])]) =
      .ok [(ascii ":status", ascii "200"), (ascii "server", ascii "x"), ([], [])] :=
  decode_encodeStatic {} _ (by decide) ((length_encodeStatic_le _).trans_lt (by decide))

end AsyncNet.Http.H3
