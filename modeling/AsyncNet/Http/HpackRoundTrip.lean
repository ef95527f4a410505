/-
This file proves that the HPACK decoder recovers what the HPACK encoder wrote,
whatever calls the encoder has seen and whatever the decoder's dynamic table
holds. The encoder only uses static references and literals without indexing, so
no two tables have to agree; what has to agree is where each representation ends.
The proof goes layer by layer: prefix integers, string literals, one header, the
whole block. Every layer is stated with arbitrary bytes following.
-/

import AsyncNet.Http.HpackDecode
import AsyncNet.Http.HuffmanRoundTrip

namespace AsyncNet.Http.H2

/-! ### Prefix integers -/

theorem continuation_byte (value : Nat) :
    (UInt8.ofNat (value &&& 0x7F ||| 0x80) &&& 0x7F).toNat = value % 128 ∧
      UInt8.ofNat (value &&& 0x7F ||| 0x80) &&& 0x80 ≠ 0 := by
  have low : value &&& 0x7F = value % 128 := Nat.and_two_pow_sub_one_eq_mod value 7
  have bytes : ∀ residue < 128, (UInt8.ofNat (residue ||| 0x80) &&& 0x7F).toNat = residue ∧
      UInt8.ofNat (residue ||| 0x80) &&& 0x80 ≠ 0 := by decide
  rw [low]
  exact bytes _ (Nat.mod_lt _ (by decide))

theorem last_byte (value : Nat) (small : value < 128) :
    (UInt8.ofNat value &&& 0x7F).toNat = value ∧ UInt8.ofNat value &&& 0x80 = 0 := by
  have bytes : ∀ residue < 128, (UInt8.ofNat residue &&& 0x7F).toNat = residue ∧
      UInt8.ofNat residue &&& 0x80 = 0 := by decide
  exact bytes value small

/-- A shift of seven bits of a value that fits stays inside the word. -/
theorem shifted_septet (residue high shift value : Nat)
    (fits : value + (residue + 128 * high) * 2 ^ shift < 2 ^ 64) (small : residue < 128) :
    (value + (residue <<< (shift % 64)) % 2 ^ 64) % 2 ^ 64 = value + residue * 2 ^ shift := by
  rcases Nat.eq_zero_or_pos residue with zero | positive
  · subst zero
    simp only [Nat.zero_shiftLeft, Nat.zero_mod, Nat.zero_mul, Nat.add_zero]
    exact Nat.mod_eq_of_lt (lt_of_le_of_lt (Nat.le_add_right _ _) fits)
  · have below : residue * 2 ^ shift ≤ (residue + 128 * high) * 2 ^ shift :=
      Nat.mul_le_mul_right _ (Nat.le_add_right _ _)
    have narrow : shift < 64 := by
      by_contra wide
      have large : 2 ^ 64 ≤ 2 ^ shift := Nat.pow_le_pow_right (by decide) (not_lt.mp wide)
      have product : 2 ^ shift ≤ residue * 2 ^ shift := Nat.le_mul_of_pos_left _ positive
      omega
    rw [Nat.mod_eq_of_lt narrow, Nat.shiftLeft_eq, Nat.mod_eq_of_lt (by omega),
      Nat.mod_eq_of_lt (by omega)]

/-- The continuation bytes are read back, whatever has been read before and whatever follows. -/
theorem decodeIntTail_encodeIntTail (space remaining shift value pos : Nat) (tail rest : Bytes)
    (encoded : encodeIntTail space remaining = some tail)
    (fits : value + remaining * 2 ^ shift < 2 ^ 64) :
    decodeIntTail (tail ++ rest) shift value pos =
      some (value + remaining * 2 ^ shift, pos + tail.length) := by
  induction space generalizing remaining shift value pos tail with
  | zero => cases encoded
  | succ space inductionHypothesis =>
    rw [encodeIntTail] at encoded
    split at encoded
    · obtain ⟨later, laterEncoded, rfl⟩ := Option.map_eq_some_iff.mp encoded
      obtain ⟨septet, continues⟩ := continuation_byte remaining
      have split : remaining = remaining % 128 + 128 * (remaining >>> 7) := by
        rw [Nat.shiftRight_eq_div_pow]
        exact (Nat.mod_add_div remaining 128).symm
      have shifted := shifted_septet (remaining % 128) (remaining >>> 7) shift value
        (by rw [← split]; exact fits) (Nat.mod_lt _ (by decide))
      have total : value + remaining % 128 * 2 ^ shift +
          (remaining >>> 7) * 2 ^ (shift + 7) = value + remaining * 2 ^ shift := by
        conv_rhs => rw [split]
        ring
      rw [List.cons_append, decodeIntTail]
      simp only [septet, shifted, continues, ne_eq, not_false_eq_true, if_true]
      rw [inductionHypothesis _ _ _ _ _ laterEncoded (by rw [total]; exact fits), total,
        List.length_cons]
      simp only [Option.some.injEq, Prod.mk.injEq, true_and]
      omega
    · rename_i small
      cases encoded
      obtain ⟨septet, stops⟩ := last_byte remaining (by omega)
      have shifted := shifted_septet remaining 0 shift value (by simpa using fits) (by omega)
      rw [List.cons_append, decodeIntTail]
      simp only [septet, shifted, stops, ne_eq, not_true_eq_false, if_false]
      rfl

/-- Ten continuation bytes hold any 64-bit value. -/
theorem encodeIntTail_isSome (space value : Nat) (fits : value < 2 ^ (7 * (space + 1))) :
    (encodeIntTail (space + 1) value).isSome := by
  induction space generalizing value with
  | zero =>
    rw [encodeIntTail, if_neg (by simpa using fits)]
    rfl
  | succ space inductionHypothesis =>
    rw [encodeIntTail]
    split
    · rw [Option.isSome_map]
      refine inductionHypothesis _ ?_
      rw [Nat.shiftRight_eq_div_pow, Nat.div_lt_iff_lt_mul (by decide), ← Nat.pow_add]
      exact lt_of_lt_of_eq fits (by congr 1)
    · rfl

/-- The prefix of the first byte is the value, the mask being clear there. -/
theorem first_byte (mask : UInt8) (value prefixBits : Nat) (clear : mask.toNat % 2 ^ prefixBits = 0)
    (small : value < 2 ^ prefixBits) (narrow : prefixBits ≤ 8) :
    (mask ||| UInt8.ofNat value).toNat &&& (2 ^ prefixBits - 1) = value := by
  have byte : value < 2 ^ 8 := lt_of_lt_of_le small (Nat.pow_le_pow_right (by decide) narrow)
  rw [UInt8.toNat_or, UInt8.toNat_ofNat', Nat.mod_eq_of_lt byte, Nat.and_or_distrib_right,
    Nat.and_two_pow_sub_one_eq_mod, clear, Nat.zero_or, Nat.and_two_pow_sub_one_eq_mod,
    Nat.mod_eq_of_lt small]

/-- What the encoder writes is empty (the buffer is too small) or decodes to the value, with
any bytes following. -/
theorem hpackDecodeInt_hpackEncodeInt (bufsize value prefixBits : Nat) (mask : UInt8)
    (rest : Bytes) (word : value < 2 ^ 64) (narrow : prefixBits ≤ 8)
    (clear : mask.toNat % 2 ^ prefixBits = 0)
    (written : hpackEncodeInt bufsize value prefixBits mask ≠ []) :
    hpackDecodeInt (hpackEncodeInt bufsize value prefixBits mask ++ rest) prefixBits =
      some (value, (hpackEncodeInt bufsize value prefixBits mask).length) := by
  have positive : 0 < 2 ^ prefixBits := Nat.two_pow_pos _
  unfold hpackEncodeInt at written ⊢
  simp only at written ⊢
  split at written
  · exact absurd rfl written
  · rename_i room
    rw [if_neg room]
    split at written
    · rename_i short
      rw [if_pos short]
      simp only [hpackDecodeInt, List.singleton_append,
        first_byte mask value prefixBits clear (by omega) narrow, if_pos short,
        List.length_singleton]
    · rename_i long
      rw [if_neg long]
      split at written
      · exact absurd rfl written
      · rename_i tail encoded
        have total : (2 ^ prefixBits - 1) + (value - (2 ^ prefixBits - 1)) * 2 ^ 0 = value := by
          omega
        simp only [hpackDecodeInt, List.cons_append,
          first_byte mask (2 ^ prefixBits - 1) prefixBits clear (by omega) narrow,
          Nat.lt_irrefl, if_false]
        rw [decodeIntTail_encodeIntTail _ _ _ _ _ _ _ encoded (by rw [total]; exact word), total,
          List.length_cons, Nat.add_comm]

/-- A 16-byte buffer holds any 64-bit value. -/
theorem hpackEncodeInt_ne_nil (value prefixBits : Nat) (mask : UInt8) (word : value < 2 ^ 64) :
    hpackEncodeInt 16 value prefixBits mask ≠ [] := by
  unfold hpackEncodeInt
  simp only
  rw [if_neg (by decide)]
  split
  · exact List.cons_ne_nil _ _
  · have held := encodeIntTail_isSome 14 (value - (2 ^ prefixBits - 1))
      (lt_of_le_of_lt (Nat.sub_le _ _) (lt_trans word (by decide)))
    obtain ⟨tail, encoded⟩ := Option.isSome_iff_exists.mp held
    rw [encoded]
    exact List.cons_ne_nil _ _

/-- The first byte of an encoded integer: the mask with the prefix bits filled. -/
theorem head_hpackEncodeInt (value prefixBits : Nat) (mask : UInt8) (word : value < 2 ^ 64)
    (rest : Bytes) :
    ∃ fill < 2 ^ prefixBits,
      (hpackEncodeInt 16 value prefixBits mask ++ rest).getD 0 0 = mask ||| UInt8.ofNat fill := by
  have positive : 0 < 2 ^ prefixBits := Nat.two_pow_pos _
  have written := hpackEncodeInt_ne_nil value prefixBits mask word
  unfold hpackEncodeInt at written ⊢
  simp only at written ⊢
  rw [if_neg (by decide)] at written ⊢
  split at written
  · rename_i short
    rw [if_pos short]
    exact ⟨value, by omega, rfl⟩
  · rename_i long
    rw [if_neg long]
    split at written
    · exact absurd rfl written
    · exact ⟨2 ^ prefixBits - 1, by omega, rfl⟩

/-! ### Strings -/

theorem wrapInt32_of_small (value : Nat) (small : value < 2 ^ 31) :
    wrapInt32 (value : Int) = value := by
  unfold wrapInt32
  omega

/-- A string literal is a prefix integer whose mask says whether Huffman coding is used. -/
theorem decodeString_prefixed (mask : UInt8) (octets rest : Bytes)
    (flag : mask = 0x80 ∨ mask = 0x00)
    (small : (hpackEncodeInt 16 octets.length 7 mask ++ octets).length < 2 ^ 31) :
    decodeString (hpackEncodeInt 16 octets.length 7 mask ++ octets ++ rest) =
      .ok (if mask = 0x80 then huffmanDecode octets else octets,
        ((hpackEncodeInt 16 octets.length 7 mask ++ octets).length : Int)) := by
  have few : octets.length < 2 ^ 31 := by
    rw [List.length_append] at small
    omega
  have word : octets.length < 2 ^ 64 := lt_trans few (by decide)
  have clear : mask.toNat % 2 ^ 7 = 0 := by rcases flag with rfl | rfl <;> decide
  obtain ⟨fill, fillSmall, head⟩ := head_hpackEncodeInt octets.length 7 mask word (octets ++ rest)
  have huffman : (mask ||| UInt8.ofNat fill) &&& 0x80 ≠ 0 ↔ mask = 0x80 := by
    have raw : ∀ fill < 128, ¬ ((0x00 : UInt8) ||| UInt8.ofNat fill) &&& 0x80 ≠ 0 := by decide
    have coded : ∀ fill < 128, ((0x80 : UInt8) ||| UInt8.ofNat fill) &&& 0x80 ≠ 0 := by decide
    rcases flag with rfl | rfl
    · exact iff_of_true (coded fill fillSmall) rfl
    · exact iff_of_false (raw fill fillSmall) (by decide)
  have decoded := hpackDecodeInt_hpackEncodeInt 16 octets.length 7 mask (octets ++ rest) word
    (by decide) clear (hpackEncodeInt_ne_nil _ _ _ word)
  rw [List.append_assoc]
  unfold decodeString
  rw [decoded, head]
  simp only
  have total : (hpackEncodeInt 16 octets.length 7 mask ++ (octets ++ rest)).length =
      (hpackEncodeInt 16 octets.length 7 mask).length + octets.length + rest.length := by
    rw [List.length_append, List.length_append, Nat.add_assoc]
  rw [List.length_append] at small
  rw [total, if_neg (by rw [Nat.mod_eq_of_lt (by omega)]; omega), if_neg (by omega),
    List.drop_left, List.take_left, wrapInt32_of_small _ few]
  simp only [huffman]
  rw [show ((hpackEncodeInt 16 octets.length 7 mask).length : Int) + (octets.length : Int) =
      (((hpackEncodeInt 16 octets.length 7 mask).length + octets.length : Nat) : Int) from
      (Nat.cast_add _ _).symm, wrapInt32_of_small _ small, List.length_append]

/-- What the decoder makes of a string that the encoder has written: the Huffman code is not
inverted on every string. -/
def reread (text : Bytes) : Bytes :=
  if huffmanIsShorter text then huffmanDecode (huffmanEncode text) else text

theorem reread_of_isAscii (text : Bytes) (isAscii : IsAscii text) : reread text = text := by
  unfold reread
  split
  · exact huffmanDecode_huffmanEncode text isAscii
  · rfl

theorem decodeString_reread (text rest : Bytes) (small : (encodeString text).length < 2 ^ 31) :
    decodeString (encodeString text ++ rest) =
      .ok (reread text, ((encodeString text).length : Int)) := by
  unfold encodeString reread at *
  split
  · rename_i shorter
    rw [if_pos shorter] at small
    rw [decodeString_prefixed 0x80 (huffmanEncode text) rest (Or.inl rfl) small, if_pos rfl]
  · rename_i longer
    rw [if_neg longer] at small
    rw [decodeString_prefixed 0x00 text rest (Or.inr rfl) small, if_neg (by decide)]

/-- Strings the Huffman code is inverted on are read back, with any bytes following. -/
theorem decodeString_encodeString (text rest : Bytes) (isAscii : IsAscii text)
    (small : (encodeString text).length < 2 ^ 31) :
    decodeString (encodeString text ++ rest) = .ok (text, ((encodeString text).length : Int)) := by
  rw [decodeString_reread text rest small, reread_of_isAscii text isAscii]

theorem length_encodeIntTail_le (space value : Nat) (tail : Bytes)
    (encoded : encodeIntTail space value = some tail) : tail.length ≤ space := by
  induction space generalizing value tail with
  | zero => cases encoded
  | succ space inductionHypothesis =>
    rw [encodeIntTail] at encoded
    split at encoded
    · obtain ⟨rest, more, rfl⟩ := Option.map_eq_some_iff.mp encoded
      exact Nat.succ_le_succ (inductionHypothesis _ rest more)
    · cases encoded
      exact Nat.le_add_left 1 space

theorem length_hpackEncodeInt_le (bufsize value prefixBits : Nat) (mask : UInt8) :
    (hpackEncodeInt bufsize value prefixBits mask).length ≤ bufsize := by
  unfold hpackEncodeInt
  dsimp only
  split
  · exact Nat.zero_le _
  · split
    · show 1 ≤ bufsize
      omega
    · split
      · exact Nat.zero_le _
      · rename_i tail encoded
        have short := length_encodeIntTail_le _ _ tail encoded
        rw [List.length_cons]
        omega

/-- A string is at most 16 bytes longer when it is encoded. -/
theorem length_encodeString_le (text : Bytes) :
    (encodeString text).length ≤ text.length + 16 := by
  unfold encodeString
  split
  · rename_i shorter
    have head := length_hpackEncodeInt_le 16 (huffmanEncode text).length 7 0x80
    have less := of_decide_eq_true shorter
    rw [← length_huffmanEncode] at less
    rw [List.length_append]
    omega
  · have head := length_hpackEncodeInt_le 16 text.length 7 0x00
    rw [List.length_append]
    omega

theorem encodeString_length_pos (text : Bytes) (small : (encodeString text).length < 2 ^ 31) :
    0 < (encodeString text).length := by
  unfold encodeString at small ⊢
  split at small
  · rename_i shorter
    rw [if_pos shorter]
    rw [List.length_append] at small ⊢
    have written := List.length_pos_of_ne_nil (hpackEncodeInt_ne_nil (huffmanEncode text).length 7
      0x80 (by omega))
    omega
  · rename_i longer
    rw [if_neg longer]
    rw [List.length_append] at small ⊢
    have written := List.length_pos_of_ne_nil (hpackEncodeInt_ne_nil text.length 7 0x00 (by omega))
    omega

/-! ### One header -/

/-- An exact match of the static search is the entry at the index it reports. -/
theorem findStaticFrom_exact (name value : Bytes) (entries : List Header)
    (index nameMatch found : Nat)
    (exact' : findStaticFrom name value entries index nameMatch = (found, true)) :
    index ≤ found ∧ entries[found - index]? = some (name, value) := by
  induction entries generalizing index nameMatch with
  | nil => cases exact'
  | cons entry entries inductionHypothesis =>
    have later : ∀ matched, findStaticFrom name value entries (index + 1) matched = (found, true) →
        index ≤ found ∧ (entry :: entries)[found - index]? = some (name, value) := by
      intro matched search
      obtain ⟨after, lookup⟩ := inductionHypothesis _ _ search
      refine ⟨by omega, ?_⟩
      rw [show found - index = (found - (index + 1)) + 1 by omega, List.getElem?_cons_succ]
      exact lookup
    rw [findStaticFrom] at exact'
    split at exact'
    · rename_i sameName
      split at exact'
      · rename_i sameValue
        cases exact'
        refine ⟨le_rfl, ?_⟩
        rw [Nat.sub_self, List.getElem?_cons_zero, ← sameName, ← sameValue]
      · exact later _ exact'
    · exact later _ exact'

theorem hpackFindStatic_exact (name value : Bytes) (index : Nat)
    (found : hpackFindStatic name value = (index, true)) :
    0 < index ∧ index < hpackStaticTable.length ∧
      hpackStaticTable[index]? = some (name, value) := by
  obtain ⟨positive, lookup⟩ := findStaticFrom_exact name value _ 1 0 index found
  rw [List.getElem?_drop, Nat.add_sub_cancel' positive] at lookup
  exact ⟨positive, (List.getElem?_eq_some_iff.mp lookup).1, lookup⟩

/-- Both strings of a header fit an `int` once encoded. -/
def Fits (header : Header) : Prop :=
  (encodeString header.1).length < 2 ^ 31 ∧ (encodeString header.2).length < 2 ^ 31

instance (header : Header) : Decidable (Fits header) := inferInstanceAs (Decidable (_ ∧ _))

theorem readString_reread (text rest : Bytes) (small : (encodeString text).length < 2 ^ 31) :
    readString (encodeString text ++ rest) = .ok (some (reread text, rest)) := by
  have positive := encodeString_length_pos text small
  have advanced : advance (encodeString text ++ rest) ((encodeString text).length : Int) =
      .ok rest := by
    rw [advance, if_neg (by omega), Int.toNat_natCast, List.drop_left]
  rw [readString, decodeString_reread text rest small]
  show (if ((encodeString text).length : Int) = 0 then Except.ok none
    else advance (encodeString text ++ rest) _ >>= fun rest => .ok (some (reread text, rest))) = _
  rw [if_neg (by omega), advanced]
  rfl

theorem readString_encodeString (text rest : Bytes) (isAscii : IsAscii text)
    (small : (encodeString text).length < 2 ^ 31) :
    readString (encodeString text ++ rest) = .ok (some (text, rest)) := by
  rw [readString_reread text rest small, reread_of_isAscii text isAscii]

/-- The headers of a list are strings of 7-bit bytes. -/
def AsciiHeaders (headers : Headers) : Prop :=
  ∀ header ∈ headers, IsAscii header.1 ∧ IsAscii header.2

instance (headers : Headers) : Decidable (AsciiHeaders headers) :=
  inferInstanceAs (Decidable (∀ header ∈ headers, _))

def rereadHeader (header : Header) : Header := (reread header.1, reread header.2)

theorem rereadHeader_of_isAscii (header : Header)
    (isAscii : IsAscii header.1 ∧ IsAscii header.2) : rereadHeader header = header := by
  rw [rereadHeader, reread_of_isAscii header.1 isAscii.1, reread_of_isAscii header.2 isAscii.2]

theorem map_rereadHeader (headers : Headers) (isAscii : AsciiHeaders headers) :
    headers.map rereadHeader = headers := by
  refine (List.map_congr_left fun header member => ?_).trans (List.map_id headers)
  exact rereadHeader_of_isAscii header (isAscii header member)

theorem asciiHeaders_hpackStaticTable : AsciiHeaders hpackStaticTable := by decide +kernel

/-- The encoder's representation of a header takes one pass of the decoder. -/
theorem decodePass_encodeHeader (decoder : HpackDecoder) (header : Header) (rest : Bytes)
    (fits : Fits header) :
    decoder.decodePass (encodeHeader header ++ rest) =
      .ok (.emit (rereadHeader header) false rest) := by
  unfold encodeHeader
  cases found : hpackFindStatic header.1 header.2 with
  | mk index exactMatch =>
  cases exactMatch with
  | true =>
    obtain ⟨positive, below, lookup⟩ := hpackFindStatic_exact _ _ _ found
    rw [hpackStaticTable_length] at below
    have word : index < 2 ^ 64 := lt_trans below (by decide)
    obtain ⟨fill, fillSmall, head⟩ := head_hpackEncodeInt index 7 0x80 word rest
    have flagged : ∀ fill < 128, ((0x80 : UInt8) ||| UInt8.ofNat fill) &&& 0x80 ≠ 0 := by decide
    have decoded := hpackDecodeInt_hpackEncodeInt 16 index 7 0x80 rest word (by decide) (by decide)
      (hpackEncodeInt_ne_nil _ _ _ word)
    have same : rereadHeader header = header := rereadHeader_of_isAscii header
      (asciiHeaders_hpackStaticTable header (List.mem_of_getElem? lookup))
    have resolved : decoder.getIndexed index = some header := by
      rw [HpackDecoder.getIndexed, hpackStaticTable_length, if_pos ⟨positive, below⟩, lookup]
    show decoder.decodePass (hpackEncodeInt 16 index 7 0x80 ++ rest) = _
    rw [HpackDecoder.decodePass_indexed _ _ (by rw [head]; exact flagged fill fillSmall), decoded]
    simp only [if_neg positive.ne', resolved, List.drop_left, same]
  | false =>
    have zero : hpackEncodeInt 16 0 4 0x00 = [0x00] := by decide
    have literal : decoder.literal 4 ([0x00] ++ encodeString header.1 ++ encodeString header.2 ++
        rest) = .ok (some (rereadHeader header, rest)) := by
      refine HpackDecoder.literal_eq decoder 4 0 1 _ (encodeString header.2 ++ rest) rest _ _ ?_ ?_
        (readString_reread _ _ fits.2)
      · rfl
      · rw [List.append_assoc, List.append_assoc]
        exact readString_reread _ _ fits.1
    have plain : ([0x00] ++ encodeString header.1 ++ encodeString header.2 ++ rest).getD 0 0 &&&
        (0xE0 : UInt8) = 0 := by
      rw [List.append_assoc, List.append_assoc, List.singleton_append, List.getD_cons_zero]
      decide
    show decoder.decodePass (hpackEncodeInt 16 0 4 0x00 ++ encodeString header.1 ++
      encodeString header.2 ++ rest) = _
    rw [zero, HpackDecoder.decodePass_plain _ _ plain, literal]
    rfl

theorem encodeHeader_ne_nil (header : Header) : encodeHeader header ≠ [] := by
  unfold encodeHeader
  cases found : hpackFindStatic header.1 header.2 with
  | mk index exactMatch =>
  cases exactMatch with
  | true =>
    have below := (hpackFindStatic_exact _ _ _ found).2.1
    rw [hpackStaticTable_length] at below
    exact hpackEncodeInt_ne_nil index 7 0x80 (lt_trans below (by decide))
  | false =>
    exact List.append_ne_nil_of_left_ne_nil
      (List.append_ne_nil_of_left_ne_nil (by decide) _) _

/-! ### A block -/

/-- The headers of a list are read, and the decoder goes on with what follows them. -/
theorem decodeFrom_reread (headers : Headers) (decoder : HpackDecoder) (rest : Bytes)
    (result : Headers) (fits : ∀ header ∈ headers, Fits header) :
    decoder.decodeFrom (headers.flatMap encodeHeader ++ rest) result [] =
      decoder.decodeFrom rest (result ++ headers.map rereadHeader) [] := by
  induction headers generalizing result with
  | nil => rw [List.map_nil, List.append_nil, List.flatMap_nil, List.nil_append]
  | cons header headers inductionHypothesis =>
    have pass := decodePass_encodeHeader decoder header (headers.flatMap encodeHeader ++ rest)
      (fits header List.mem_cons_self)
    have nonempty : encodeHeader header ++ (headers.flatMap encodeHeader ++ rest) ≠ [] :=
      List.append_ne_nil_of_left_ne_nil (encodeHeader_ne_nil header) _
    rw [List.flatMap_cons, List.append_assoc,
      HpackDecoder.decodeFrom_emit decoder _ _ _ _ _ _ nonempty pass]
    show decoder.decodeFrom _ (result ++ [rereadHeader header]) [] = _
    rw [inductionHypothesis _ (fun later member => fits later (List.mem_cons_of_mem _ member)),
      List.append_assoc]
    rfl

theorem decodeFrom_flatMap_append (headers : Headers) (decoder : HpackDecoder) (rest : Bytes)
    (result : Headers) (isAscii : AsciiHeaders headers) (fits : ∀ header ∈ headers, Fits header) :
    decoder.decodeFrom (headers.flatMap encodeHeader ++ rest) result [] =
      decoder.decodeFrom rest (result ++ headers) [] := by
  rw [decodeFrom_reread headers decoder rest result fits, map_rereadHeader headers isAscii]

/-- What a table size update does to a decoder. -/
def HpackDecoder.resized (decoder : HpackDecoder) (update : Option Nat) : HpackDecoder :=
  match update with
  | none => decoder
  | some size => { decoder with dynamicTable := decoder.dynamicTable.resize size }

/-- The size update an encoder writes before its next block. -/
def HpackEncoder.pendingUpdate (encoder : HpackEncoder) : Option Nat :=
  if encoder.tableSizeUpdated then some encoder.maxTableSize else none

/-- A decoder takes over the size update that an encoder writes before the headers. -/
theorem decodeBlock_update (encoder : HpackEncoder) (decoder : HpackDecoder) (rest : Bytes)
    (word : encoder.maxTableSize < 2 ^ 64) :
    decoder.decodeBlock ((if encoder.tableSizeUpdated then
        hpackEncodeInt 16 encoder.maxTableSize 5 0x20 else []) ++ rest) =
      (decoder.resized encoder.pendingUpdate).decodeFrom rest [] [] := by
  unfold HpackEncoder.pendingUpdate
  cases encoder.tableSizeUpdated with
  | false => rfl
  | true =>
    set size := encoder.maxTableSize
    obtain ⟨fill, fillSmall, head⟩ := head_hpackEncodeInt size 5 0x20 word rest
    have flagged : ∀ fill < 32, ((0x20 : UInt8) ||| UInt8.ofNat fill) &&& 0xE0 = 0x20 := by decide
    have written := hpackEncodeInt_ne_nil size 5 0x20 word
    have decoded := hpackDecodeInt_hpackEncodeInt 16 size 5 0x20 rest word (by decide) (by decide)
      written
    have pass : decoder.decodePass (hpackEncodeInt 16 size 5 0x20 ++ rest) =
        .ok (.resize size rest) := by
      rw [HpackDecoder.decodePass_sizeUpdate _ _ (by rw [head]; exact flagged fill fillSmall),
        decoded]
      simp only [List.drop_left]
    exact HpackDecoder.decodeFrom_resize decoder _ _ _ _ _
      (List.append_ne_nil_of_left_ne_nil written _) pass

/-- A decoder reads an encoder's block, whatever its table, and takes over the size update that the
encoder wrote before the headers. -/
theorem decodeBlock_reread (encoder : HpackEncoder) (decoder : HpackDecoder) (headers : Headers)
    (word : encoder.maxTableSize < 2 ^ 64) (fits : ∀ header ∈ headers, Fits header) :
    decoder.decodeBlock (encoder.encode headers).1 =
      .ok (some (headers.map rereadHeader), decoder.resized encoder.pendingUpdate) := by
  have read := decodeFrom_reread headers (decoder.resized encoder.pendingUpdate) [] [] fits
  rw [List.append_nil, List.nil_append] at read
  rw [HpackEncoder.encode, decodeBlock_update encoder decoder _ word, read]
  rfl

/-- A block of 7-bit headers is read back. -/
theorem decodeBlock_encode (encoder : HpackEncoder) (decoder : HpackDecoder) (headers : Headers)
    (word : encoder.maxTableSize < 2 ^ 64) (isAscii : AsciiHeaders headers)
    (fits : ∀ header ∈ headers, Fits header) :
    decoder.decodeBlock (encoder.encode headers).1 =
      .ok (some headers, decoder.resized encoder.pendingUpdate) := by
  rw [decodeBlock_reread encoder decoder headers word fits, map_rereadHeader headers isAscii]

/-! ### Runs of an encoder -/

/-- The calls that can be made on an encoder. -/
inductive EncoderCall where
  | setMaxTableSize (size : UInt64)
  | encode (headers : Headers)

namespace HpackEncoder

/-- `hpack_encoder` constructed with a table size. -/
def create (maxTableSize : UInt64) : HpackEncoder :=
  { dynamicTable := { maxSize := maxTableSize.toNat }, maxTableSize := maxTableSize.toNat }

/-- The lists passed to `encode` in a run of calls, each with the block that was returned. -/
def blocks : HpackEncoder → List EncoderCall → List (Headers × Bytes)
  | _, [] => []
  | encoder, .setMaxTableSize size :: calls => (encoder.setMaxTableSize size.toNat).blocks calls
  | encoder, .encode headers :: calls =>
      (headers, (encoder.encode headers).1) :: (encoder.encode headers).2.blocks calls

/-- Every block of a run was returned by an encoder whose table size is a `size_t`. -/
theorem exists_encode_of_mem_blocks (encoder : HpackEncoder) (calls : List EncoderCall)
    (headers : Headers) (block : Bytes) (word : encoder.maxTableSize < 2 ^ 64)
    (member : (headers, block) ∈ encoder.blocks calls) :
    ∃ reached : HpackEncoder, reached.maxTableSize < 2 ^ 64 ∧
      block = (reached.encode headers).1 := by
  induction calls generalizing encoder with
  | nil => cases member
  | cons call calls inductionHypothesis =>
    cases call with
    | setMaxTableSize size => exact inductionHypothesis _ size.toNat_lt member
    | encode encoded =>
      rcases List.mem_cons.mp member with same | later
      · cases same
        exact ⟨encoder, word, rfl⟩
      · exact inductionHypothesis (encoder.encode encoded).2 word later

end HpackEncoder

theorem fits_of_encodeHeader (header : Header) (small : (encodeHeader header).length < 2 ^ 31) :
    Fits header := by
  cases found : hpackFindStatic header.1 header.2 with
  | mk index exactMatch =>
  cases exactMatch with
  | true =>
    have every : ∀ entry ∈ hpackStaticTable, Fits entry := by decide +kernel
    exact every header (List.mem_of_getElem? (hpackFindStatic_exact _ _ _ found).2.2)
  | false =>
    unfold encodeHeader at small
    simp only [found, Bool.false_eq_true, if_false, List.length_append] at small
    exact ⟨by omega, by omega⟩

theorem encodeHeader_length_le (headers : Headers) (encoder : HpackEncoder) (header : Header)
    (member : header ∈ headers) :
    (encodeHeader header).length ≤ (encoder.encode headers).1.length := by
  have part : (encodeHeader header).length ≤ (headers.flatMap encodeHeader).length := by
    obtain ⟨front, back, rfl⟩ := List.append_of_mem member
    simp only [List.flatMap_append, List.flatMap_cons, List.length_append]
    omega
  refine le_trans part ?_
  unfold HpackEncoder.encode
  rw [List.length_append]
  exact Nat.le_add_left _ _

/-- What an encoder returned anywhere in a run of its calls, any decoder turns back into the list
that was passed in. -/
theorem decode_blocks (maxTableSize : UInt64) (calls : List EncoderCall) (headers : Headers)
    (block : Bytes) (member : (headers, block) ∈ (HpackEncoder.create maxTableSize).blocks calls)
    (isAscii : AsciiHeaders headers) (small : block.length < 2 ^ 31) (decoder : HpackDecoder) :
    ∃ decoder', decoder.decodeBlock block = .ok (some headers, decoder') ∧
      decoder.decode block = .ok (headers, decoder') := by
  obtain ⟨encoder, word, rfl⟩ := HpackEncoder.exists_encode_of_mem_blocks _ calls headers block
    maxTableSize.toNat_lt member
  have fits : ∀ header ∈ headers, Fits header := fun header inList =>
    fits_of_encodeHeader header
      (lt_of_le_of_lt (encodeHeader_length_le headers encoder header inList) small)
  have accepted := decodeBlock_encode encoder decoder headers word isAscii fits
  refine ⟨_, accepted, ?_⟩
  rw [HpackDecoder.decode, accepted]
  rfl

/-- A run that changes the table size before a block of an empty name and value, a static entry
and a literal. -/
theorem decode_blocks_resized :
    let headers := [([], []), (ascii ":method", ascii "GET"), (ascii "x-id", ascii "7")]
    let block := (((HpackEncoder.create 4096).setMaxTableSize 0).encode headers).1
    ∃ decoder', HpackDecoder.decodeBlock {} block = .ok (some headers, decoder') ∧
      HpackDecoder.decode {} block = .ok (headers, decoder') :=
  decode_blocks 4096 [.setMaxTableSize 0,
    .encode [([], []), (ascii ":method", ascii "GET"), (ascii "x-id", ascii "7")]] _ _
    List.mem_cons_self (by decide) (by decide) {}

end AsyncNet.Http.H2
