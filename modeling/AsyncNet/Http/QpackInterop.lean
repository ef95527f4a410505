/-
This file compares what `qpack_encoder::encode_static` writes with what RFC 9204 says it means.
An index and a name reference into the static table are written as the standard has them. A name
that is not in the static table is not: `encode_static` writes an empty name of the standard and
then the name where the standard has the value. And the Huffman code of the source differs from
that of the standard in the word for `{`. A section is read back exactly when neither happens.
-/

import AsyncNet.Http.QpackReference
import AsyncNet.Http.QpackRoundTrip

namespace AsyncNet.Http.H3

open AsyncNet.Http.H2 Library Reference

/-! ### Integers -/

theorem continuation_octet (value : Nat) :
    (UInt8.ofNat (value &&& 0x7F ||| 0x80)).toNat % 128 = value % 128 ∧
      ¬ (UInt8.ofNat (value &&& 0x7F ||| 0x80)).toNat < 128 := by
  have low : value &&& 0x7F = value % 128 := Nat.and_two_pow_sub_one_eq_mod value 7
  have octets : ∀ residue < 128, (UInt8.ofNat (residue ||| 0x80)).toNat % 128 = residue ∧
      ¬ (UInt8.ofNat (residue ||| 0x80)).toNat < 128 := by decide
  rw [low]
  exact octets _ (Nat.mod_lt _ (by decide))

theorem last_octet (value : Nat) (small : value < 128) :
    (UInt8.ofNat value).toNat = value := by
  rw [UInt8.toNat_ofNat', Nat.mod_eq_of_lt (by omega)]

/-- The continuation octets mean what they were written for. -/
theorem continuation_encodeIntTail (space remaining value shift : Nat) (tail rest : Bytes)
    (encoded : encodeIntTail space remaining = some tail) :
    continuation value shift (tail ++ rest) = some (value + remaining * 2 ^ shift, rest) := by
  induction space generalizing remaining value shift tail with
  | zero => cases encoded
  | succ space inductionHypothesis =>
    rw [encodeIntTail] at encoded
    split at encoded
    · obtain ⟨later, laterEncoded, rfl⟩ := Option.map_eq_some_iff.mp encoded
      obtain ⟨septet, continues⟩ := continuation_octet remaining
      have split : remaining = remaining % 128 + 128 * (remaining >>> 7) := by
        rw [Nat.shiftRight_eq_div_pow]
        exact (Nat.mod_add_div remaining 128).symm
      have total : value + remaining % 128 * 2 ^ shift +
          (remaining >>> 7) * 2 ^ (shift + 7) = value + remaining * 2 ^ shift := by
        conv_rhs => rw [split]
        ring
      rw [List.cons_append, continuation]
      rw [if_neg continues, septet, inductionHypothesis _ _ _ _ laterEncoded, total]
    · rename_i small
      cases encoded
      have octet := last_octet remaining (by omega)
      rw [List.cons_append, continuation]
      rw [octet, if_pos (by omega), Nat.mod_eq_of_lt (by omega)]
      rfl

/-- An integer of the encoder means the value that was written. -/
theorem integer_hpackEncodeInt (bufsize value prefixBits : Nat) (mask : UInt8) (rest : Bytes)
    (narrow : prefixBits ≤ 8) (clear : mask.toNat % 2 ^ prefixBits = 0)
    (written : hpackEncodeInt bufsize value prefixBits mask ≠ []) :
    integer prefixBits (hpackEncodeInt bufsize value prefixBits mask ++ rest) =
      some (value, rest) := by
  have positive : 0 < 2 ^ prefixBits := Nat.two_pow_pos _
  have filled (fill : Nat) (small : fill < 2 ^ prefixBits) :
      (mask ||| UInt8.ofNat fill).toNat % 2 ^ prefixBits = fill := by
    rw [← Nat.and_two_pow_sub_one_eq_mod]
    exact first_byte mask fill prefixBits clear small narrow
  unfold hpackEncodeInt at written ⊢
  dsimp only at written ⊢
  split at written
  · exact absurd rfl written
  · rename_i room
    rw [if_neg room]
    split at written
    · rename_i short
      rw [if_pos short, List.singleton_append, integer]
      rw [filled value (by omega), if_pos short]
    · rename_i long
      rw [if_neg long]
      split at written
      · exact absurd rfl written
      · rename_i tail encoded
        rw [List.cons_append, integer]
        rw [filled _ (by omega), if_neg (lt_irrefl _),
          continuation_encodeIntTail _ _ _ _ _ _ encoded, Nat.pow_zero, Nat.mul_one,
          Nat.add_sub_cancel' (not_lt.mp long)]

/-! ### The Huffman code -/

/-- The code word of the standard for an octet. -/
def codeWord (index : Nat) : List Bool := codeWords.getD index []

/-- The two codes agree on every octet but `{`. -/
theorem codeWord_eq (ch : UInt8) (other : ch ≠ 123) : codeWord ch.toNat = huffWord ch := by
  have differs : 123 ≠ ch.toNat := fun same => other (UInt8.toNat_inj.mp same.symm)
  rw [codeWord, codeWords, huffmanCode, List.getD_eq_getElem?_getD, List.getElem?_map,
    List.getElem?_take_of_lt ch.toNat_lt, List.getElem?_set_ne differs,
    List.getElem?_eq_getElem (toNat_lt_huff_length ch), huffWord,
    huffOf_eq ch (toNat_lt_huff_length ch)]
  rfl

theorem codeWord_brace : codeWord 123 = msbBits 15 0x7ffe := by decide +kernel

theorem codeWords_length : codeWords.length = 256 := by
  rw [codeWords, List.length_map, List.length_take, huffmanCode, List.length_set, huff_length]
  rfl

/-- A code word of the source that is a prefix of another one is so as an entry of the table. -/
theorem isPrefixOf_of_huffWord (short long : UInt8) (isPrefix : huffWord short <+: huffWord long) :
    (huffOf short).isPrefixOf (huffOf long) = true := by
  have shorter := isPrefix.length_le
  have front := List.prefix_iff_eq_take.mp isPrefix
  rw [huffWord, huffWord, msbBits_length, msbBits_length] at shorter
  rw [huffWord, huffWord, msbBits_length, msbBits_take _ _ _ shorter] at front
  have fits : (huffOf long).code >>> ((huffOf long).bits - (huffOf short).bits) <
      2 ^ (huffOf short).bits := by
    rw [Nat.shiftRight_eq_div_pow, Nat.div_lt_iff_lt_mul (Nat.two_pow_pos _), ← Nat.pow_add,
      Nat.add_sub_cancel' shorter]
    exact (huffOf_bounds long).2.2
  have code := congrArg ofBits front
  rw [ofBits_msbBits _ _ (huffOf_bounds short).2.2, ofBits_msbBits _ _ fits] at code
  rw [HuffSym.isPrefixOf, Bool.and_eq_true, ← code]
  exact ⟨Nat.ble_eq.mpr shorter, Nat.beq_refl _⟩

/-- The word of the standard for `{` is a prefix of no other word of an ASCII octet. -/
theorem codeWord_brace_not_prefix :
    ∀ value < 128, value ≠ 123 →
      (msbBits 15 0x7ffe).isPrefixOf (huffWord (UInt8.ofNat value)) = false := by
  decide +kernel

/-- A reader of the standard recognises the source's words for ASCII octets other than `{`. -/
theorem wordIndex_recognises (ch : UInt8) (isAscii : ch < 128) (other : ch ≠ 123) :
    Recognises (wordIndex codeWords) 30 codeWord ch.toNat := by
  have same := codeWord_eq ch other
  refine recognises_wordIndex codeWords 30 ch.toNat ?_ ?_ ?_ fun index isPrefix inRange => ?_
  · rw [codeWords_length]
    exact ch.toNat_lt
  · show codeWord ch.toNat ≠ []
    rw [same, ← List.length_pos_iff, huffWord, msbBits_length]
    exact (huffOf_bounds ch).1
  · show (codeWord ch.toNat).length ≤ 30
    rw [same, huffWord, msbBits_length]
    exact (huffOf_bounds ch).2.1
  · change codeWord index <+: codeWord ch.toNat at isPrefix
    rw [codeWords_length] at inRange
    rw [same] at isPrefix
    by_cases brace : index = 123
    · have differs : ch.toNat ≠ 123 := fun same => other (UInt8.toNat_inj.mp same)
      have check := codeWord_brace_not_prefix ch.toNat isAscii differs
      rw [brace, codeWord_brace, ← List.isPrefixOf_iff_prefix] at isPrefix
      rw [UInt8.ofNat_toNat, isPrefix] at check
      cases check
    · have octet : (UInt8.ofNat index).toNat = index := by
        rw [UInt8.toNat_ofNat', Nat.mod_eq_of_lt inRange]
      have otherOctet : UInt8.ofNat index ≠ 123 := by
        intro brace'
        rw [brace'] at octet
        exact brace octet.symm
      have word := codeWord_eq (UInt8.ofNat index) otherOctet
      rw [octet] at word
      rw [word] at isPrefix
      have inTable : index < huff.length := by
        rw [huff_length]
        omega
      refine eq_of_isPrefixOf ch (not_shadowed_of_isAscii ch isAscii) index inRange inTable ?_
      have entry := huffOf_eq (UInt8.ofNat index) (toNat_lt_huff_length _)
      simp only [octet] at entry
      rw [← entry]
      exact isPrefixOf_of_huffWord _ _ isPrefix

/-- No run of up to seven ones is a code word. -/
theorem wordIndex_ones :
    ∀ count < 8, wordIndex codeWords (List.replicate count true) = none := by decide +kernel

/-- A string that the source's code is the standard's on is read back. -/
theorem huffmanText_huffmanEncode (text : Bytes) (isAscii : IsAscii text) (plain : 123 ∉ text) :
    huffmanText (huffmanEncode text) = some text := by
  obtain ⟨count, few, bits⟩ := huffmanEncode_bits text
  have other (ch : UInt8) (member : ch ∈ text) : ch ≠ 123 := fun brace => plain (brace ▸ member)
  have words : text.flatMap huffWord = (text.map UInt8.toNat).flatMap codeWord := by
    rw [List.flatMap_map]
    exact List.flatMap_congr fun ch member => (codeWord_eq ch (other ch member)).symm
  have recognises : ∀ index ∈ text.map UInt8.toNat,
      Recognises (wordIndex codeWords) 30 codeWord index := by
    intro index member
    obtain ⟨ch, inText, rfl⟩ := List.mem_map.mp member
    exact wordIndex_recognises ch (isAscii ch inText) (other ch inText)
  have missing : ∀ taken, 0 < taken → taken ≤ (List.replicate count true).length →
      wordIndex codeWords ((List.replicate count true).take taken) = none := by
    intro taken _ small
    rw [List.length_replicate] at small
    rw [List.take_replicate, min_eq_left small]
    exact wordIndex_ones taken (by omega)
  have decoded := greedy_flatMap (wordIndex codeWords) 30 codeWord (text.map UInt8.toNat) recognises
    (List.replicate count true) (by rw [List.length_replicate]; omega) missing
  have back : (text.map UInt8.toNat).map UInt8.ofNat = text := by
    rw [List.map_map]
    exact List.map_id'' (fun ch => UInt8.ofNat_toNat) text
  have padding : (List.replicate count true).length < 8 ∧
      ∀ bit ∈ List.replicate count true, bit = true :=
    ⟨by rw [List.length_replicate]; exact few, fun bit => List.eq_of_mem_replicate⟩
  unfold huffmanText
  rw [bits, words, decoded]
  dsimp only
  rw [if_pos padding, back]

/-- The words for `{` part at the last bit of the standard's. -/
theorem codeWord_brace_ne (rest later : List Bool) :
    codeWord 123 ++ rest ≠ huffWord 123 ++ later := by
  intro same
  have front := congrArg (List.take 15) same
  rw [codeWord_brace, List.take_append_of_le_length (by decide),
    List.take_append_of_le_length (by decide +kernel)] at front
  revert front
  decide +kernel

theorem codeWord_of_wordIndex (bits : List Bool) (index : Nat)
    (found : wordIndex codeWords bits = some index) :
    codeWord (UInt8.ofNat index).toNat = bits := by
  have below := (List.findIdx?_eq_some_iff_getElem.mp found).1
  rw [codeWords_length] at below
  rw [UInt8.toNat_ofNat', Nat.mod_eq_of_lt below]
  exact wordIndex_sound codeWords bits index found

/-- A string with a `{` is not read back. -/
theorem huffmanText_huffmanEncode_ne (text : Bytes) (brace : 123 ∈ text) :
    huffmanText (huffmanEncode text) ≠ some text := by
  intro read
  obtain ⟨count, _, bits⟩ := huffmanEncode_bits text
  obtain ⟨front, back, split, plain⟩ := List.eq_append_cons_of_mem brace
  have words : front.flatMap huffWord = front.flatMap fun ch => codeWord ch.toNat :=
    List.flatMap_congr fun ch member =>
      (codeWord_eq ch fun brace => plain (brace ▸ member)).symm
  unfold huffmanText at read
  split at read
  · cases read
  · rename_i symbols padding decoded
    split at read
    · have same := greedy_sound (wordIndex codeWords) 30 _ codeWord_of_wordIndex [] _ padding
        symbols decoded
      have decodedText : symbols.flatMap (fun index => codeWord (UInt8.ofNat index).toNat) =
          text.flatMap fun ch => codeWord ch.toNat := by
        rw [← Option.some.inj read, List.flatMap_map]
      rw [List.nil_append, bits, decodedText, split, List.flatMap_append, List.flatMap_append,
        List.flatMap_cons, List.flatMap_cons, words] at same
      simp only [List.append_assoc] at same
      exact codeWord_brace_ne _ _ (List.append_cancel_left same).symm
    · cases read

/-! ### Strings -/

/-- The standard reads a string of the encoder as the string. -/
def ReadBack (text : Bytes) : Prop := huffmanIsShorter text = true → 123 ∉ text

instance (text : Bytes) : Decidable (ReadBack text) := inferInstanceAs (Decidable (_ → _))

/-- The octets of a string that is Huffman coded are fewer than its own. -/
theorem huffmanEncode_length_lt (text : Bytes) (shorter : huffmanIsShorter text = true) :
    (huffmanEncode text).length < text.length := by
  rw [length_huffmanEncode]
  exact of_decide_eq_true shorter

/-- The standard's reading of a length and the octets after it. -/
theorem string_prefixed (mask : UInt8) (octets rest : Bytes) (flag : mask = 0x80 ∨ mask = 0x00)
    (word : octets.length < 2 ^ 64) :
    string 7 (hpackEncodeInt 16 octets.length 7 mask ++ octets ++ rest) =
      (if mask = 0x80 then huffmanText octets else some octets).map fun text => (text, rest) := by
  have clear : mask.toNat % 2 ^ 7 = 0 := by rcases flag with rfl | rfl <;> decide
  have read := integer_hpackEncodeInt 16 octets.length 7 mask (octets ++ rest) (by decide) clear
    (hpackEncodeInt_ne_nil _ _ _ word)
  obtain ⟨fill, small, head⟩ := head_hpackEncodeInt octets.length 7 mask word (octets ++ rest)
  have huffman : (mask ||| UInt8.ofNat fill).toNat.testBit 7 = true ↔ mask = 0x80 := by
    have raw : ∀ fill < 128, ((0x00 : UInt8) ||| UInt8.ofNat fill).toNat.testBit 7 = false := by
      decide
    have coded : ∀ fill < 128, ((0x80 : UInt8) ||| UInt8.ofNat fill).toNat.testBit 7 = true := by
      decide
    rcases flag with rfl | rfl
    · exact iff_of_true (coded fill small) rfl
    · exact iff_of_false (by rw [raw fill small]; decide) (by decide)
  rw [List.append_assoc]
  unfold string
  rw [read, head]
  simp only [Option.bind_eq_bind, Option.bind_some, huffman]
  rw [if_neg (by rw [List.length_append]; omega), List.take_left, List.drop_left,
    Option.map_eq_bind]
  split <;> rfl

theorem qpackEncodeString_eq (text : Bytes) : qpackEncodeString text =
    if huffmanIsShorter text = true
    then hpackEncodeInt 16 (huffmanEncode text).length 7 0x80 ++ huffmanEncode text
    else hpackEncodeInt 16 text.length 7 0x00 ++ text := rfl

/-- A string of the encoder is read back. -/
theorem string_qpackEncodeString (text rest : Bytes) (isAscii : IsAscii text)
    (word : text.length < 2 ^ 64) (readBack : ReadBack text) :
    string 7 (qpackEncodeString text ++ rest) = some (text, rest) := by
  rw [qpackEncodeString_eq]
  split
  · rename_i shorter
    have less := huffmanEncode_length_lt text shorter
    rw [string_prefixed 0x80 _ rest (Or.inl rfl) (by omega), if_pos rfl,
      huffmanText_huffmanEncode text isAscii (readBack shorter)]
    rfl
  · rw [string_prefixed 0x00 text rest (Or.inr rfl) word, if_neg (by decide)]
    rfl

/-- A string of the encoder is not read back, whatever follows. -/
theorem string_qpackEncodeString_ne (text rest after : Bytes) (word : text.length < 2 ^ 64)
    (altered : ¬ ReadBack text) :
    string 7 (qpackEncodeString text ++ rest) ≠ some (text, after) := by
  obtain ⟨shorter, brace⟩ := Classical.not_imp.mp altered
  have less := huffmanEncode_length_lt text shorter
  intro read
  rw [qpackEncodeString_eq, if_pos shorter,
    string_prefixed 0x80 _ rest (Or.inl rfl) (by omega), if_pos rfl] at read
  obtain ⟨decoded, huffman, same⟩ := Option.map_eq_some_iff.mp read
  cases same
  exact huffmanText_huffmanEncode_ne text (not_not.mp brace) huffman

/-! ### Field lines -/

section FieldLines

variable (table : Table) (required base : Nat)

theorem fieldLine_indexed {header : Header} {index : Nat} (rest : Bytes)
    (found : findStatic header.1 header.2 = some index) :
    table.fieldLine required base (qpackEncodeInt 64 index 6 0xC0 ++ rest) =
      some (header, rest) := by
  obtain ⟨below, entry⟩ := findStatic_eq found
  have written : ∀ index < 99, qpackEncodeInt 64 index 6 0xC0 ≠ [] := by decide
  have flagged : ∀ index < 99, ((qpackEncodeInt 64 index 6 0xC0).getD 0 0).toNat.testBit 7 = true ∧
      ((qpackEncodeInt 64 index 6 0xC0).getD 0 0).toNat.testBit 6 = true := by decide
  obtain ⟨indexed, isStatic⟩ := flagged index below
  have read : integer 6 (qpackEncodeInt 64 index 6 0xC0 ++ rest) = some (index, rest) :=
    integer_hpackEncodeInt 64 index 6 0xC0 rest (by decide) (by decide) (written index below)
  unfold Table.fieldLine
  rw [getD_append rest (written index below), read]
  simp only [indexed, isStatic, if_true, Option.bind_eq_bind, Option.bind_some, Table.refer, entry]
  rfl

theorem fieldLine_nameReference {name : Bytes} {nameIdx : Nat} (rest : Bytes)
    (found : findStaticName name = some nameIdx) :
    table.fieldLine required base (qpackEncodeInt 64 nameIdx 4 0x50 ++ rest) =
      (string 7 rest).map fun value => ((name, value.1), value.2) := by
  obtain ⟨below, entry⟩ := findStaticName_eq found
  obtain ⟨referred, atIndex, named⟩ := Option.map_eq_some_iff.mp entry
  have written : ∀ index < 99, qpackEncodeInt 64 index 4 0x50 ≠ [] := by decide
  have flagged : ∀ index < 99,
      ((qpackEncodeInt 64 index 4 0x50).getD 0 0).toNat.testBit 7 = false ∧
        ((qpackEncodeInt 64 index 4 0x50).getD 0 0).toNat.testBit 6 = true ∧
        ((qpackEncodeInt 64 index 4 0x50).getD 0 0).toNat.testBit 4 = true := by decide
  obtain ⟨indexed, literal, isStatic⟩ := flagged nameIdx below
  have read : integer 4 (qpackEncodeInt 64 nameIdx 4 0x50 ++ rest) = some (nameIdx, rest) :=
    integer_hpackEncodeInt 64 nameIdx 4 0x50 rest (by decide) (by decide) (written nameIdx below)
  unfold Table.fieldLine
  rw [getD_append rest (written nameIdx below), read]
  simp only [indexed, literal, isStatic, if_true, Bool.false_eq_true, if_false,
    Option.bind_eq_bind, Option.bind_some, Table.refer, atIndex, named, Option.map_eq_bind]
  rfl

/-- The octet that `encode_static` writes before a name is an empty name to the standard. -/
theorem fieldLine_literal (rest : Bytes) :
    table.fieldLine required base (0x20 :: rest) =
      (string 7 rest).map fun value => (([], value.1), value.2) := by
  have bits : (0x20 : UInt8).toNat.testBit 7 = false ∧ (0x20 : UInt8).toNat.testBit 6 = false ∧
      (0x20 : UInt8).toNat.testBit 5 = true ∧ (0x20 : UInt8).toNat.testBit 3 = false := by decide
  obtain ⟨indexed, reference, literal, huffman⟩ := bits
  have read : string 3 (0x20 :: rest) = some ([], rest) := by
    have length : integer 3 (0x20 :: rest) = some (0, rest) := rfl
    unfold string
    rw [length, List.getD_cons_zero]
    simp only [Option.bind_eq_bind, Option.bind_some, Nat.not_lt_zero, if_false, huffman,
      Bool.false_eq_true, List.take_zero, List.drop_zero]
    rfl
  unfold Table.fieldLine
  rw [List.getD_cons_zero, read]
  simp only [indexed, reference, literal, Bool.false_eq_true, if_false, if_true,
    Option.bind_eq_bind, Option.bind_some, Option.map_eq_bind]
  rfl

/-- An entry of the dynamic table that the section does not require is an error. -/
theorem fieldLine_zero (rest : Bytes) : table.fieldLine 0 base (0x00 :: rest) = none := by
  have bits : (0x00 : UInt8).toNat.testBit 7 = false ∧ (0x00 : UInt8).toNat.testBit 6 = false ∧
      (0x00 : UInt8).toNat.testBit 5 = false ∧ (0x00 : UInt8).toNat.testBit 4 = false := by decide
  obtain ⟨indexed, reference, literal, postBase⟩ := bits
  have index : integer 3 (0x00 :: rest) = some (0, rest) := rfl
  unfold Table.fieldLine
  rw [List.getD_cons_zero, index]
  simp only [indexed, reference, literal, postBase, Bool.false_eq_true, if_false,
    Option.bind_eq_bind, Option.bind_some, Table.refer, Nat.not_lt_zero, Option.bind_none]

end FieldLines

/-- The standard reads the header that was encoded. -/
def Interoperable (header : Header) : Prop :=
  header ∈ qpackStaticTable ∨ (header.1 ∈ qpackStaticTable.map (·.1) ∧ ReadBack header.2)

instance (header : Header) : Decidable (Interoperable header) :=
  inferInstanceAs (Decidable (_ ∨ _))

theorem findStatic_isSome (header : Header) :
    (findStatic header.1 header.2).isSome ↔ header ∈ qpackStaticTable := by
  rw [findStatic, List.findIdx?_isSome, List.any_eq_true]
  constructor
  · rintro ⟨entry, member, same⟩
    rw [Bool.and_eq_true, decide_eq_true_eq, decide_eq_true_eq] at same
    rwa [← Prod.ext same.1 same.2]
  · intro member
    exact ⟨header, member, by simp⟩

theorem findStaticName_isSome (name : Bytes) :
    (findStaticName name).isSome ↔ name ∈ qpackStaticTable.map (·.1) := by
  rw [findStaticName, List.findIdx?_isSome, List.any_eq_true, List.mem_map]
  simp only [decide_eq_true_eq]

/-! ### Field sections -/

section FieldSections

variable (table : Table)

theorem encodeFieldLine_ne_nil (header : Header) (rest : Bytes) :
    encodeFieldLine header ++ rest ≠ [] :=
  List.append_ne_nil_of_left_ne_nil
    (List.ne_nil_of_length_pos (encodeFieldLine_length_pos header)) rest

theorem fieldLines_succ (required base lines : Nat) {bytes : Bytes} (some : bytes ≠ []) :
    table.fieldLines required base (lines + 1) bytes =
      (table.fieldLine required base bytes).bind fun line =>
        (table.fieldLines required base lines line.2).map (line.1 :: ·) := by
  obtain ⟨octet, rest, rfl⟩ := List.exists_cons_of_ne_nil some
  simp only [Option.map_eq_bind]
  rfl

/-- A line that is read back, with any octets following. -/
theorem fieldLine_encodeFieldLine (header : Header) (rest : Bytes)
    (isAscii : IsAscii header.2) (word : header.2.length < 2 ^ 64)
    (interoperable : Interoperable header) :
    table.fieldLine 0 0 (encodeFieldLine header ++ rest) = some (header, rest) := by
  unfold encodeFieldLine
  cases found : findStatic header.1 header.2 with
  | some index => exact fieldLine_indexed table 0 0 rest found
  | none =>
    have missing : header ∉ qpackStaticTable := by
      rw [← findStatic_isSome, found]
      decide
    obtain ⟨named, readBack⟩ := interoperable.resolve_left missing
    rw [← findStaticName_isSome, Option.isSome_iff_exists] at named
    obtain ⟨nameIdx, foundName⟩ := named
    dsimp only
    rw [foundName]
    dsimp only
    rw [List.append_assoc, fieldLine_nameReference table 0 0 _ foundName,
      string_qpackEncodeString header.2 rest isAscii word readBack]
    rfl

/-- A name that is not in the static table is read as an empty one, and what was written for an
empty name and value goes on with a reference to a missing entry. -/
theorem fieldLines_literal_ne (header : Header) (rest : Bytes) (later : Headers) (lines : Nat) :
    table.fieldLines 0 0 lines
      ([0x20] ++ qpackEncodeString header.1 ++ qpackEncodeString header.2 ++ rest) ≠
        some (header :: later) := by
  intro read
  simp only [List.append_assoc, List.cons_append] at read
  cases lines with
  | zero => cases read
  | succ lines =>
    rw [fieldLines_succ table 0 0 lines (List.cons_ne_nil _ _), fieldLine_literal] at read
    obtain ⟨line, named, more⟩ := Option.bind_eq_some_iff.mp read
    obtain ⟨⟨value, after⟩, string, rfl⟩ := Option.map_eq_some_iff.mp named
    obtain ⟨others, readLater, same⟩ := Option.map_eq_some_iff.mp more
    obtain ⟨rfl, _⟩ := List.cons.inj same
    have nothing := string_qpackEncodeString [] (qpackEncodeString value ++ rest) (by decide)
      (by decide) (by decide)
    obtain ⟨rfl, rfl⟩ := Prod.mk.inj (Option.some.inj (nothing.symm.trans string))
    have octet : qpackEncodeString [] = [0x00] := by decide
    rw [octet, List.singleton_append] at readLater
    cases lines with
    | zero => cases readLater
    | succ lines =>
      rw [fieldLines_succ table 0 0 lines (List.cons_ne_nil _ _), fieldLine_zero] at readLater
      cases readLater

/-- A line that is not read back spoils the section, whatever follows. -/
theorem fieldLines_encodeFieldLine_ne (header : Header) (rest : Bytes) (later : Headers)
    (lines : Nat) (word : header.2.length < 2 ^ 64) (altered : ¬ Interoperable header) :
    table.fieldLines 0 0 lines (encodeFieldLine header ++ rest) ≠ some (header :: later) := by
  obtain ⟨missing, unread⟩ := not_or.mp altered
  rw [← findStatic_isSome, Option.not_isSome_iff_eq_none] at missing
  rw [← findStaticName_isSome] at unread
  unfold encodeFieldLine
  rw [missing]
  dsimp only
  cases named : findStaticName header.1 with
  | none => exact fieldLines_literal_ne table header rest later lines
  | some nameIdx =>
    have altered : ¬ ReadBack header.2 := fun readBack => unread ⟨by rw [named]; rfl, readBack⟩
    intro read
    rw [List.append_assoc] at read
    have written : ∀ index < 99, qpackEncodeInt 64 index 4 0x50 ≠ [] := by decide
    have some := List.append_ne_nil_of_left_ne_nil
      (written nameIdx (findStaticName_eq named).1) (qpackEncodeString header.2 ++ rest)
    cases lines with
    | zero =>
      obtain ⟨octet, octets, cons⟩ := List.exists_cons_of_ne_nil some
      rw [cons] at read
      cases read
    | succ lines =>
      rw [fieldLines_succ table 0 0 lines some, fieldLine_nameReference table 0 0 _ named] at read
      obtain ⟨line, referred, more⟩ := Option.bind_eq_some_iff.mp read
      obtain ⟨⟨value, after⟩, string, rfl⟩ := Option.map_eq_some_iff.mp referred
      obtain ⟨others, _, same⟩ := Option.map_eq_some_iff.mp more
      have sameValue : value = header.2 := congrArg Prod.snd (List.cons.inj same).1
      rw [sameValue] at string
      exact string_qpackEncodeString_ne header.2 rest after word altered string

/-- The lines of the headers are read back if and only if each of them is. -/
theorem fieldLines_flatMap_iff (headers : Headers) (lines : Nat)
    (isAscii : ∀ header ∈ headers, IsAscii header.2)
    (word : ∀ header ∈ headers, header.2.length < 2 ^ 64) (enough : headers.length ≤ lines) :
    table.fieldLines 0 0 lines (headers.flatMap encodeFieldLine) = some headers ↔
      ∀ header ∈ headers, Interoperable header := by
  induction headers generalizing lines with
  | nil =>
    refine iff_of_true ?_ fun header member => by cases member
    rw [List.flatMap_nil, Table.fieldLines]
  | cons header headers inductionHypothesis =>
    rw [List.forall_mem_cons] at isAscii word ⊢
    rw [List.flatMap_cons]
    by_cases interoperable : Interoperable header
    · obtain ⟨left, rfl⟩ := Nat.exists_eq_succ_of_ne_zero (Nat.ne_zero_of_lt enough)
      rw [List.length_cons] at enough
      rw [fieldLines_succ table 0 0 left (encodeFieldLine_ne_nil header _),
        fieldLine_encodeFieldLine table header _ isAscii.1 word.1 interoperable, Option.bind_some,
        Option.map_eq_some_iff, and_iff_right interoperable,
        ← inductionHypothesis left isAscii.2 word.2 (by omega)]
      constructor
      · rintro ⟨others, read, same⟩
        rwa [(List.cons.inj same).2] at read
      · exact fun read => ⟨headers, read, rfl⟩
    · exact iff_of_false
        (fieldLines_encodeFieldLine_ne table header _ headers lines word.1 interoperable)
        fun all => interoperable all.1

/-- A section with no insertions required and no base is its lines. -/
theorem fieldSection_encodeStatic (headers : Headers) :
    table.fieldSection (encodeStatic headers) =
      table.fieldLines 0 0 (headers.flatMap encodeFieldLine).length
        (headers.flatMap encodeFieldLine) := by
  have count : integer 8 (encodeStatic headers) =
      some (0, 0x00 :: headers.flatMap encodeFieldLine) := rfl
  have delta : integer 7 (0x00 :: headers.flatMap encodeFieldLine) =
      some (0, headers.flatMap encodeFieldLine) := rfl
  have sign : (0x00 : UInt8).toNat.testBit 7 = false := by decide
  unfold Table.fieldSection
  rw [count]
  simp only [Option.bind_eq_bind, Option.bind_some, Table.requiredInsertCount, if_true,
    Nat.not_lt_zero, if_false, List.getD_cons_zero, sign, delta, Table.base, Bool.false_eq_true]

/-- A peer that follows the standard, whatever its dynamic table, reads the headers that were
encoded if and only if each of them is in the static table, or has its name there and no `{` in a
value that is Huffman coded. -/
theorem fieldSection_encodeStatic_iff (headers : Headers) (isAscii : AsciiHeaders headers)
    (word : ∀ header ∈ headers, header.2.length < 2 ^ 64) :
    table.fieldSection (encodeStatic headers) = some headers ↔
      ∀ header ∈ headers, Interoperable header := by
  have asciiValues : ∀ header ∈ headers, IsAscii header.2 :=
    fun header member => (isAscii header member).2
  rw [fieldSection_encodeStatic]
  exact fieldLines_flatMap_iff table headers _ asciiValues word (length_le_encodeFieldLines headers)

end FieldSections

/-- An index, a name reference with a Huffman coded value and one with a `{` in a plain value are
read back. -/
theorem fieldSection_encodeStatic_iff_three :
    let headers := [(ascii ":method", ascii "GET"), (ascii ":path", ascii "/index.html"),
      (ascii "cookie", ascii "\x7b\x7d")]
    ({} : Table).fieldSection (encodeStatic headers) = some headers := by
  have method : Interoperable (ascii ":method", ascii "GET") :=
    Or.inl (List.mem_of_getElem? (i := 17) rfl)
  have path : Interoperable (ascii ":path", ascii "/index.html") :=
    Or.inr ⟨List.mem_map.mpr ⟨_, List.mem_of_getElem? (i := 1) rfl, rfl⟩, by decide +kernel⟩
  have cookie : Interoperable (ascii "cookie", ascii "\x7b\x7d") :=
    Or.inr ⟨List.mem_map.mpr ⟨_, List.mem_of_getElem? (i := 5) rfl, rfl⟩, by decide +kernel⟩
  refine (fieldSection_encodeStatic_iff {} _ (by decide +kernel) (by decide +kernel)).mpr ?_
  rw [List.forall_mem_cons, List.forall_mem_cons, List.forall_mem_singleton]
  exact ⟨method, path, cookie⟩

/-- A header whose name is not in the static table is an error, and one with a `{` in a Huffman
coded value is not read back. -/
theorem not_fieldSection_encodeStatic :
    let custom := [(ascii "x", ascii "7")]
    let path := [(ascii ":path", ascii "/items/\x7bident\x7d")]
    AsciiHeaders custom ∧ AsciiHeaders path ∧
      ({} : Table).fieldSection (encodeStatic custom) = none ∧
      ({} : Table).fieldSection (encodeStatic path) ≠ some path := by
  refine ⟨by decide, by decide, by decide +kernel, ?_⟩
  rw [fieldSection_encodeStatic, ne_eq,
    fieldLines_flatMap_iff {} _ _ (by decide) (by decide) (length_le_encodeFieldLines _)]
  decide +kernel

end AsyncNet.Http.H3
