/-
This file proves when Huffman decoding inverts Huffman encoding, and that encoding
inverts decoding wherever something is decoded. The encoder's output, read bit by
bit, is the concatenation of the code words followed by at most seven ones; the
decoder's loop is the greedy decoder of `Library/PrefixCode` with the table search
as its lookup. What is left is a fact about the table: the only entry that is a
prefix of others is the one of `{`, which shadows sixteen bytes above 127, and no
run of up to seven ones is an entry.
-/

import AsyncNet.Http.Huffman

namespace AsyncNet.Http.H2

open Library

/-! ### The table -/

/-- The code word of a byte. -/
def huffWord (ch : UInt8) : List Bool := msbBits (huffOf ch).bits (huffOf ch).code

/-- The first code is a prefix of the second. -/
def HuffSym.isPrefixOf (short long : HuffSym) : Bool :=
  Nat.ble short.bits long.bits && Nat.beq (long.code >>> (long.bits - short.bits)) short.code

theorem huff_length : huff.length = 257 := by decide +kernel

theorem huff_bounds : ∀ sym ∈ huff, 0 < sym.bits ∧ sym.bits ≤ 30 ∧ sym.code < 2 ^ sym.bits := by
  decide +kernel

/-- A byte whose code begins with the code of `{`, which the decoder finds first. -/
def Shadowed (ch : UInt8) : Prop := ch ≠ 123 ∧ (huffOf 123).isPrefixOf (huffOf ch) = true

instance (ch : UInt8) : Decidable (Shadowed ch) := inferInstanceAs (Decidable (_ ∧ _))

/-- No entry but the one of `{` is a prefix of another one. -/
theorem huff_prefix_check :
    ((huff.take 256).zipIdx.all fun long =>
      (huff.take 256).zipIdx.all fun short =>
        !short.1.isPrefixOf long.1 || Nat.beq long.2 short.2 || Nat.beq short.2 123) = true := by
  decide +kernel

theorem not_shadowed_of_isAscii (ch : UInt8) (isAscii : ch < 128) : ¬ Shadowed ch := by
  have check : ∀ value < 128, ¬ Shadowed (UInt8.ofNat value) := by decide +kernel
  have plain := check ch.toNat isAscii
  rwa [UInt8.ofNat_toNat] at plain

/-- No run of up to seven ones is an entry. -/
theorem huffmanFind_ones : ∀ count < 8, huffmanFind (2 ^ count - 1) count = none := by
  decide +kernel

theorem huffOf_eq (ch : UInt8) (inRange : ch.toNat < huff.length) :
    huffOf ch = huff.get ⟨ch.toNat, inRange⟩ := by
  rw [huffOf, List.getD_eq_getElem _ _ inRange]
  rfl

theorem toNat_lt_huff_length (ch : UInt8) : ch.toNat < huff.length := by
  rw [huff_length]
  exact Nat.lt_succ_of_lt ch.toNat_lt

theorem huffOf_bounds (ch : UInt8) :
    0 < (huffOf ch).bits ∧ (huffOf ch).bits ≤ 30 ∧
      (huffOf ch).code < 2 ^ (huffOf ch).bits := by
  rw [huffOf_eq ch (toNat_lt_huff_length ch)]
  exact huff_bounds _ (List.get_mem _ _)

/-- The prefix check, read at one byte that is not shadowed and one table entry. -/
theorem eq_of_isPrefixOf (ch : UInt8) (plain : ¬ Shadowed ch) (index : Nat) (small : index < 256)
    (inRange : index < huff.length)
    (isPrefix : (huff.get ⟨index, inRange⟩).isPrefixOf (huffOf ch) = true) :
    index = ch.toNat := by
  have long : (huffOf ch, ch.toNat) ∈ (huff.take 256).zipIdx := by
    rw [List.mk_mem_zipIdx_iff_getElem?, List.getElem?_take_of_lt ch.toNat_lt,
      huffOf_eq ch (toNat_lt_huff_length ch)]
    exact List.getElem?_eq_getElem _
  have short : (huff.get ⟨index, inRange⟩, index) ∈ (huff.take 256).zipIdx := by
    rw [List.mk_mem_zipIdx_iff_getElem?, List.getElem?_take_of_lt small]
    exact List.getElem?_eq_getElem _
  have check := List.all_eq_true.mp (List.all_eq_true.mp huff_prefix_check _ long) _ short
  simp only [isPrefix, Bool.not_true, Bool.false_or, Bool.or_eq_true, Nat.beq_eq] at check
  rcases check with same | brace
  · exact same.symm
  · -- the entry is the one of `{`, so the byte is `{` itself
    subst brace
    by_contra differs
    refine plain ⟨fun same => differs ?_, isPrefix⟩
    rw [same]
    rfl

/-! ### The table search as a lookup of bit strings -/

/-- The table search, read on the bits it has been given. -/
def findBits (bits : List Bool) : Option UInt8 := huffmanFind (ofBits bits) bits.length

theorem huffmanFind_eq_none (code codeBits : Nat)
    (missing : ∀ index (_ : index < 256) (inRange : index < huff.length),
      ¬ ((huff.get ⟨index, inRange⟩).bits = codeBits ∧
        (huff.get ⟨index, inRange⟩).code = code)) :
    huffmanFind code codeBits = none := by
  rw [huffmanFind, Option.map_eq_none_iff, List.findIdx?_eq_none_iff]
  intro sym member
  obtain ⟨index, small, rfl⟩ := List.getElem_of_mem member
  rw [List.length_take] at small
  have inRange : index < huff.length := (lt_min_iff.mp small).2
  rw [List.getElem_take]
  exact decide_eq_false (missing index (lt_min_iff.mp small).1 inRange)

/-- A byte that is not shadowed is found at its own code. -/
theorem huffmanFind_huffOf (ch : UInt8) (plain : ¬ Shadowed ch) :
    huffmanFind (huffOf ch).code (huffOf ch).bits = some ch := by
  have below : ch.toNat < 256 := ch.toNat_lt
  have inTake : ch.toNat < (huff.take 256).length := by
    rw [List.length_take, huff_length]
    omega
  have index : (huff.take 256).findIdx?
      (fun sym => sym.bits = (huffOf ch).bits ∧ sym.code = (huffOf ch).code) =
      some ch.toNat := by
    rw [List.findIdx?_eq_some_iff_getElem]
    refine ⟨inTake, ?_, fun other earlier => ?_⟩
    · rw [List.getElem_take, huffOf_eq ch (toNat_lt_huff_length ch)]
      simp
    · have inRange : other < huff.length := by rw [huff_length]; omega
      rw [List.getElem_take, decide_eq_true_eq]
      rintro ⟨sameBits, sameCode⟩
      have isPrefix : (huff.get ⟨other, inRange⟩).isPrefixOf (huffOf ch) = true := by
        show (Nat.ble (huff.get ⟨other, inRange⟩).bits (huffOf ch).bits &&
          Nat.beq ((huffOf ch).code >>> ((huffOf ch).bits - (huff.get ⟨other, inRange⟩).bits))
            (huff.get ⟨other, inRange⟩).code) = true
        rw [List.get_eq_getElem, sameBits, sameCode, Nat.sub_self]
        simp
      exact absurd (eq_of_isPrefixOf ch plain other (by omega) inRange isPrefix) (by omega)
  rw [huffmanFind, index, Option.map_some, UInt8.ofNat_toNat]

theorem findBits_recognises (ch : UInt8) (plain : ¬ Shadowed ch) :
    Recognises findBits 30 huffWord ch where
  nonempty := by
    rw [← List.length_pos_iff, huffWord, msbBits_length]
    exact (huffOf_bounds ch).1
  bounded := by
    rw [huffWord, msbBits_length]
    exact (huffOf_bounds ch).2.1
  found := by
    rw [findBits, huffWord, msbBits_length, ofBits_msbBits _ _ (huffOf_bounds ch).2.2]
    exact huffmanFind_huffOf ch plain
  early := by
    intro count positive shorter
    rw [huffWord, msbBits_length] at shorter
    have fits : (huffOf ch).code >>> ((huffOf ch).bits - count) < 2 ^ count := by
      rw [Nat.shiftRight_eq_div_pow, Nat.div_lt_iff_lt_mul (Nat.two_pow_pos _), ← Nat.pow_add,
        Nat.add_sub_cancel' shorter.le]
      exact (huffOf_bounds ch).2.2
    rw [findBits, huffWord, msbBits_take _ _ _ shorter.le, msbBits_length, ofBits_msbBits _ _ fits]
    refine huffmanFind_eq_none _ _ fun index small inRange found => ?_
    obtain ⟨sameBits, sameCode⟩ := found
    have isPrefix : (huff.get ⟨index, inRange⟩).isPrefixOf (huffOf ch) = true := by
      rw [HuffSym.isPrefixOf, sameBits, sameCode, Bool.and_eq_true]
      exact ⟨Nat.ble_eq.mpr shorter.le, Nat.beq_refl _⟩
    have same := eq_of_isPrefixOf ch plain index small inRange isPrefix
    subst same
    rw [← huffOf_eq ch inRange] at sameBits
    omega

/-! ### The encoder writes the code words -/

theorem bitsOf_ofNat (value : Nat) : bitsOf (UInt8.ofNat value) = msbBits 8 value := by
  rw [bitsOf, UInt8.toNat_ofNat', msbBits_mod 8 8 value le_rfl]

namespace BitWriter

/-- The bits written so far: those of the whole bytes and those still in the buffer. -/
def written (writer : BitWriter) : List Bool :=
  writer.output.flatMap bitsOf ++ msbBits writer.bitCount writer.bitBuf

theorem drain_written (passes : Nat) (writer : BitWriter) :
    (drain passes writer).written = writer.written := by
  induction passes generalizing writer with
  | zero => rfl
  | succ passes inductionHypothesis =>
    rw [drain]
    split
    · rename_i enough
      rw [inductionHypothesis]
      have split : msbBits writer.bitCount writer.bitBuf =
          msbBits 8 (writer.bitBuf >>> (writer.bitCount - 8)) ++
            msbBits (writer.bitCount - 8) writer.bitBuf := by
        rw [← msbBits_add, Nat.add_sub_cancel' enough]
      simp only [written, List.flatMap_append, List.flatMap_cons, List.flatMap_nil,
        List.append_nil, bitsOf_ofNat, split, List.append_assoc]
    · rfl

theorem drain_bitCount (passes : Nat) (writer : BitWriter) (enough : writer.bitCount ≤ passes) :
    (drain passes writer).bitCount < 8 := by
  induction passes generalizing writer with
  | zero =>
    rw [drain]
    omega
  | succ passes inductionHypothesis =>
    rw [drain]
    split
    · exact inductionHypothesis _ (by simp only; omega)
    · omega

theorem push_written (writer : BitWriter) (ch : UInt8) (small : writer.bitCount < 8) :
    (writer.push ch).written = writer.written ++ huffWord ch := by
  obtain ⟨_, bits, fits⟩ := huffOf_bounds ch
  simp only [push, drain_written]
  simp only [written, huffWord, List.append_assoc]
  rw [msbBits_mod _ _ _ (by omega), msbBits_shiftLeft_or _ _ _ _ fits]

theorem push_bitCount (writer : BitWriter) (ch : UInt8) : (writer.push ch).bitCount < 8 :=
  drain_bitCount _ _ le_rfl

theorem foldl_push_written (input : Bytes) (writer : BitWriter) (small : writer.bitCount < 8) :
    (input.foldl push writer).written = writer.written ++ input.flatMap huffWord ∧
      (input.foldl push writer).bitCount < 8 := by
  induction input generalizing writer with
  | nil => exact ⟨by simp, small⟩
  | cons ch input inductionHypothesis =>
    obtain ⟨bits, count⟩ := inductionHypothesis (writer.push ch) (push_bitCount writer ch)
    refine ⟨?_, count⟩
    rw [List.foldl_cons, bits, push_written writer ch small, List.flatMap_cons, List.append_assoc]

/-- The last byte is filled with ones. -/
theorem finish_bits (writer : BitWriter) (small : writer.bitCount < 8) :
    ∃ count < 8, writer.finish.flatMap bitsOf =
      writer.written ++ List.replicate count true := by
  unfold finish
  split
  · rename_i positive
    refine ⟨8 - writer.bitCount, by omega, ?_⟩
    have fits : 2 ^ (8 - writer.bitCount) - 1 < 2 ^ (8 - writer.bitCount) :=
      Nat.sub_lt (Nat.two_pow_pos _) Nat.one_pos
    have padded := msbBits_shiftLeft_or writer.bitCount (8 - writer.bitCount) writer.bitBuf _ fits
    rw [Nat.add_sub_cancel' small.le, msbBits_ones] at padded
    simp only [written, List.flatMap_append, List.flatMap_cons, List.flatMap_nil, List.append_nil,
      bitsOf_ofNat, padded, List.append_assoc]
  · rename_i none
    have zero : writer.bitCount = 0 := by omega
    exact ⟨0, by omega, by simp [written, zero, msbBits]⟩

end BitWriter

/-- The encoded bits are the code words and at most seven ones. -/
theorem huffmanEncode_bits (input : Bytes) :
    ∃ count < 8, (huffmanEncode input).flatMap bitsOf =
      input.flatMap huffWord ++ List.replicate count true := by
  obtain ⟨bits, small⟩ := BitWriter.foldl_push_written input {} (by decide)
  obtain ⟨count, few, finished⟩ := BitWriter.finish_bits _ small
  refine ⟨count, few, ?_⟩
  rw [huffmanEncode, finished, bits]
  rfl

/-! ### The decoder is the greedy decoder -/

/-- The loop state after some bits have been read without a symbol. -/
def stateOf (pending : List Bool) (result : Bytes) : HuffmanState :=
  { code := ofBits pending, codeBits := pending.length, result }

theorem step_stateOf (pending : List Bool) (result : Bytes) (bit : Bool)
    (short : pending.length ≤ 30) :
    (stateOf pending result).step bit =
      match findBits (pending ++ [bit]) with
      | some symbol => some (stateOf [] (result ++ [symbol]))
      | none => if 30 < pending.length + 1 then none
          else some (stateOf (pending ++ [bit]) result) := by
  have small : ofBits (pending ++ [bit]) < 2 ^ 32 :=
    lt_of_lt_of_le (ofBits_lt _)
      (Nat.pow_le_pow_right (by decide) (by rw [List.length_append, List.length_singleton]; omega))
  have shifted : (ofBits pending <<< 1 ||| bit.toNat) % 2 ^ 32 = ofBits (pending ++ [bit]) := by
    rw [ofBits_append_singleton] at small ⊢
    have shift : ofBits pending <<< 1 ||| bit.toNat = 2 * ofBits pending + bit.toNat := by
      rw [Nat.shiftLeft_eq, Nat.pow_one, Nat.mul_comm,
        ← Nat.two_pow_add_eq_or_of_lt (i := 1) (by cases bit <;> decide) (ofBits pending)]
    rw [shift, Nat.mod_eq_of_lt small]
  simp only [HuffmanState.step, stateOf, shifted, findBits, List.length_append,
    List.length_singleton]
  rfl

/-- The bit loop of the decoder is the greedy decoder with the table search as lookup. -/
theorem foldlM_step (bits pending : List Bool) (result : Bytes) (short : pending.length ≤ 30) :
    bits.foldlM HuffmanState.step (stateOf pending result) =
      (greedy findBits 30 pending bits).map fun decoded =>
        stateOf decoded.2 (result ++ decoded.1) := by
  induction bits generalizing pending result with
  | nil => simp [greedy, stateOf]
  | cons bit bits inductionHypothesis =>
    rw [List.foldlM_cons, step_stateOf pending result bit short, greedy]
    cases findBits (pending ++ [bit]) with
    | some symbol =>
      simp only [Option.bind_eq_bind, Option.bind_some]
      rw [inductionHypothesis [] (result ++ [symbol]) (Nat.zero_le _), Option.map_map]
      simp [Function.comp_def]
    | none =>
      simp only
      split
      · rfl
      · simp only [Option.bind_eq_bind, Option.bind_some]
        exact inductionHypothesis (pending ++ [bit]) result
          (by rw [List.length_append, List.length_singleton]; omega)

/-- The decoder is the greedy decoder; what is left over has to be at most seven ones. -/
theorem huffmanDecode_eq (data : Bytes) :
    huffmanDecode data =
      match greedy findBits 30 [] (data.flatMap bitsOf) with
      | none => []
      | some (symbols, padding) =>
          if padding.length ≤ 7 ∧ padding = List.replicate padding.length true then symbols
          else [] := by
  have loop := foldlM_step (data.flatMap bitsOf) [] [] (Nat.zero_le _)
  unfold huffmanDecode
  rw [show ({} : HuffmanState) = stateOf [] [] from rfl, loop]
  rcases greedy findBits 30 [] (data.flatMap bitsOf) with _ | ⟨symbols, padding⟩
  · rfl
  · simp only [Option.map_some, stateOf, List.nil_append, Nat.and_two_pow_sub_one_eq_mod,
      Nat.mod_eq_of_lt (ofBits_lt padding), ← ofBits_eq_ones_iff]
    by_cases short : padding.length ≤ 7
    · rw [if_neg (by omega)]
      by_cases ones : ofBits padding = 2 ^ padding.length - 1
      · rw [if_neg (not_not.mpr ones), if_pos ⟨short, ones⟩]
      · rw [if_pos ones, if_neg fun both => ones both.2]
    · rw [if_pos (by omega), if_neg fun both => short both.1]

/-! ### Decoding what has been encoded -/

/-- Nothing is found in the padding. -/
theorem findBits_ones (count : Nat) (few : count < 8) :
    ∀ taken, 0 < taken → taken ≤ (List.replicate count true).length →
      findBits ((List.replicate count true).take taken) = none := by
  intro taken _ small
  rw [List.length_replicate] at small
  rw [List.take_replicate, min_eq_left small, findBits, ofBits_replicate_true,
    List.length_replicate]
  exact huffmanFind_ones taken (by omega)

/-- Bytes that are not shadowed are read back. -/
theorem huffmanDecode_of_plain (input : Bytes) (plain : ∀ ch ∈ input, ¬ Shadowed ch) :
    huffmanDecode (huffmanEncode input) = input := by
  obtain ⟨count, few, bits⟩ := huffmanEncode_bits input
  have decoded := greedy_flatMap findBits 30 huffWord input
    (fun ch member => findBits_recognises ch (plain ch member)) (List.replicate count true)
    (by rw [List.length_replicate]; omega) (findBits_ones count few)
  rw [huffmanDecode_eq, bits, decoded]
  simp only [List.length_replicate, and_true]
  rw [if_pos (by omega)]

/-- Huffman decoding inverts Huffman encoding on ASCII strings. -/
theorem huffmanDecode_huffmanEncode (input : Bytes) (isAscii : IsAscii input) :
    huffmanDecode (huffmanEncode input) = input :=
  huffmanDecode_of_plain input fun ch member => not_shadowed_of_isAscii ch (isAscii ch member)

/-- A shadowed byte is written as `{` and some bits. -/
theorem huffWord_of_shadowed (ch : UInt8) (shadowed : Shadowed ch) :
    ∃ rest, huffWord ch = huffWord 123 ++ rest := by
  obtain ⟨_, isPrefix⟩ := shadowed
  rw [HuffSym.isPrefixOf, Bool.and_eq_true, Nat.ble_eq, Nat.beq_eq] at isPrefix
  obtain ⟨shorter, code⟩ := isPrefix
  refine ⟨(huffWord ch).drop (huffOf 123).bits, ?_⟩
  have front : (huffWord ch).take (huffOf 123).bits = huffWord 123 := by
    rw [huffWord, msbBits_take _ _ _ shorter, code, huffWord]
  rw [← front, List.take_append_drop]

/-- The first shadowed byte is read as `{`, if anything is read. -/
theorem huffmanDecode_of_shadowed (input : Bytes) (ch : UInt8) (member : ch ∈ input)
    (shadowed : Shadowed ch) :
    ∃ front first back, input = front ++ first :: back ∧ Shadowed first ∧
      (huffmanDecode (huffmanEncode input) = [] ∨
        ∃ later, huffmanDecode (huffmanEncode input) = front ++ 123 :: later) := by
  obtain ⟨first, found⟩ : ∃ first, input.find? (fun ch => Shadowed ch) = some first :=
    Option.isSome_iff_exists.mp
      (List.find?_isSome.mpr ⟨ch, member, decide_eq_true shadowed⟩)
  obtain ⟨isShadowed, front, back, split, before⟩ := List.find?_eq_some_iff_append.mp found
  refine ⟨front, first, back, split, of_decide_eq_true isShadowed, ?_⟩
  obtain ⟨rest, word⟩ := huffWord_of_shadowed first (of_decide_eq_true isShadowed)
  obtain ⟨count, _, bits⟩ := huffmanEncode_bits input
  have plain : ∀ ch ∈ front, ¬ Shadowed ch := fun ch earlier => by simpa using before ch earlier
  -- the bits are those of the bytes before it, then those of `{`
  have written : (huffmanEncode input).flatMap bitsOf =
      front.flatMap huffWord ++ (huffWord 123 ++
        (rest ++ back.flatMap huffWord ++ List.replicate count true)) := by
    rw [bits, split, List.flatMap_append, List.flatMap_cons, word]
    simp only [List.append_assoc]
  rw [huffmanDecode_eq, written, greedy_flatMap_append findBits 30 huffWord front
    (fun ch earlier => findBits_recognises ch (plain ch earlier)),
    greedy_word findBits 30 huffWord 123 (findBits_recognises 123 (by decide)), Option.map_map]
  rcases greedy findBits 30 [] (rest ++ back.flatMap huffWord ++ List.replicate count true)
    with _ | ⟨later, padding⟩
  · exact Or.inl rfl
  · simp only [Option.map_some, Function.comp_apply]
    split_ifs
    · exact Or.inr ⟨later, rfl⟩
    · exact Or.inl rfl

theorem huffmanDecode_ne_of_shadowed (input : Bytes) (ch : UInt8) (member : ch ∈ input)
    (shadowed : Shadowed ch) : huffmanDecode (huffmanEncode input) ≠ input := by
  obtain ⟨front, first, back, rfl, isShadowed, nothing | ⟨later, read⟩⟩ :=
    huffmanDecode_of_shadowed input ch member shadowed
  · rw [nothing]
    exact (List.append_ne_nil_of_right_ne_nil front (List.cons_ne_nil first back)).symm
  · rw [read]
    intro same
    exact isShadowed.1 (List.cons.inj (List.append_cancel_left same)).1.symm

/-- Huffman decoding inverts Huffman encoding on exactly the strings without a shadowed byte. -/
theorem huffmanDecode_huffmanEncode_iff (input : Bytes) :
    huffmanDecode (huffmanEncode input) = input ↔ ∀ ch ∈ input, ¬ Shadowed ch := by
  refine ⟨fun same ch member shadowed => ?_, huffmanDecode_of_plain input⟩
  exact huffmanDecode_ne_of_shadowed input ch member shadowed same

/-- The byte 147 is written as `{` and bits that end in `1`. -/
theorem huffmanDecode_huffmanEncode_147 : huffmanDecode (huffmanEncode [147]) ≠ [147] := by
  decide +kernel

/-! ### Encoding what has been decoded -/

theorem huffWord_of_findBits (bits : List Bool) (symbol : UInt8)
    (found : findBits bits = some symbol) : huffWord symbol = bits := by
  obtain ⟨index, located, rfl⟩ := Option.map_eq_some_iff.mp found
  obtain ⟨below, same, _⟩ := List.findIdx?_eq_some_iff_getElem.mp located
  obtain ⟨sameBits, sameCode⟩ := of_decide_eq_true same
  have small : index < 256 := by
    rw [List.length_take] at below
    omega
  have octet : (UInt8.ofNat index).toNat = index := by
    rw [UInt8.toNat_ofNat', Nat.mod_eq_of_lt small]
  have entry := huffOf_eq (UInt8.ofNat index) (toNat_lt_huff_length _)
  simp only [octet] at entry
  rw [List.getElem_take] at sameBits sameCode
  rw [huffWord, entry, List.get_eq_getElem, sameBits, sameCode, msbBits_ofBits]

/-- The bits of a string are eight for each byte. -/
theorem flatMap_bitsOf_length (data : Bytes) :
    (data.flatMap bitsOf).length = 8 * data.length := by
  rw [List.length_flatMap]
  simp [bitsOf, Nat.mul_comm]

/-- `huffman_is_shorter` compares with the number of bytes that `huffman_encode` writes. -/
theorem length_huffmanEncode (text : Bytes) :
    (huffmanEncode text).length = ((text.map fun ch => (huffOf ch).bits).sum + 7) / 8 := by
  obtain ⟨count, few, bits⟩ := huffmanEncode_bits text
  have words : (text.flatMap huffWord).length = (text.map fun ch => (huffOf ch).bits).sum := by
    rw [List.length_flatMap]
    exact congrArg List.sum (List.map_congr_left fun ch _ => msbBits_length _ _)
  have total := congrArg List.length bits
  rw [flatMap_bitsOf_length, List.length_append, words, List.length_replicate] at total
  omega

theorem bitsOf_injective : Function.Injective bitsOf := by
  intro first second same
  have number := congrArg ofBits same
  rw [bitsOf, bitsOf, ofBits_msbBits _ _ first.toNat_lt, ofBits_msbBits _ _ second.toNat_lt]
    at number
  exact UInt8.toNat_inj.mp number

theorem eq_of_flatMap_bitsOf (first second : Bytes)
    (same : first.flatMap bitsOf = second.flatMap bitsOf) : first = second := by
  induction first generalizing second with
  | nil =>
    have length := congrArg List.length same
    rw [flatMap_bitsOf_length, flatMap_bitsOf_length] at length
    exact (List.length_eq_zero_iff.mp (by simpa using length.symm)).symm
  | cons byte first inductionHypothesis =>
    cases second with
    | nil =>
      have length := congrArg List.length same
      rw [flatMap_bitsOf_length, flatMap_bitsOf_length] at length
      simp at length
    | cons other second =>
      rw [List.flatMap_cons, List.flatMap_cons] at same
      obtain ⟨head, tail⟩ := List.append_inj same (by simp [bitsOf])
      rw [bitsOf_injective head, inductionHypothesis second tail]

/-- What is decoded to something is what encoding that gives. -/
theorem huffmanEncode_huffmanDecode (data : Bytes) (decoded : huffmanDecode data ≠ []) :
    huffmanEncode (huffmanDecode data) = data := by
  rw [huffmanDecode_eq] at decoded ⊢
  rcases loop : greedy findBits 30 [] (data.flatMap bitsOf) with _ | ⟨symbols, padding⟩
  · rw [loop] at decoded
    exact absurd rfl decoded
  · rw [loop] at decoded
    simp only at decoded ⊢
    split_ifs at decoded ⊢ with padded
    · obtain ⟨short, ones⟩ := padded
      have read := greedy_sound findBits 30 huffWord huffWord_of_findBits [] _ padding symbols loop
      obtain ⟨count, few, written⟩ := huffmanEncode_bits symbols
      rw [List.nil_append] at read
      refine eq_of_flatMap_bitsOf _ _ ?_
      -- both paddings complete the last byte, so they are equally long
      have sameLength : count = padding.length := by
        have encoded := congrArg List.length written
        have given := congrArg List.length read
        rw [flatMap_bitsOf_length, List.length_append, List.length_replicate] at encoded
        rw [flatMap_bitsOf_length, List.length_append] at given
        omega
      rw [written, read, sameLength, ← ones]
    · exact absurd rfl decoded

/-- `a`, which fills all but three bits of a byte. -/
theorem huffmanEncode_huffmanDecode_a :
    huffmanDecode [0x1f] ≠ [] ∧ huffmanEncode (huffmanDecode [0x1f]) = [0x1f] :=
  ⟨by decide +kernel, huffmanEncode_huffmanDecode [0x1f] (by decide +kernel)⟩

end AsyncNet.Http.H2
