/-
This file is about where `decode_string` and `qpack_decode_string` read and what they return. The
length of a string is an integer of up to 64 bits that the sender chooses. The check of the bounds
adds it to the octets of the integer in 64 bits, and the count that is returned is the sum in an
`int`. So a length close to 2^64 passes the check, after which a Huffman string is read past the
end of the buffer, unless the bits that are in it stop the decoder, and `std::string::assign`
throws for another string. And a string that ends 2^31 octets or more behind its start is within
the buffer, but its count is negative for every second 2^31.
-/

import AsyncNet.Http.HpackBlocks
import AsyncNet.Http.Qpack

namespace AsyncNet.Http

open H2

/-! ### Calls -/

/-- What a call does: the positions in the buffer that it reads, and the count that it returns. No
count is returned after an exception, or after a read outside of the buffer. -/
structure StringCall where
  reads : List Int
  returned : Option Int
  deriving DecidableEq

/-- Some positions, from a first one on. -/
def positions (start : Int) (count : Nat) : List Int :=
  (List.range count).map fun index : Nat => start + (index : Int)

/-- What `hpack_decode_int` returns for an integer of some octets. Its position is an `int` that
turns negative after 2^31 octets; there it is past any buffer if the integer goes on. -/
def intPosition (octets : Nat) : Int :=
  if octets < 2 ^ 31 then octets else if octets = 2 ^ 31 then -2 ^ 31 else 0

/-- The octets that `huffman_decode` reads of a string, of which some are inside the buffer, and
whether it returns without reading behind them. It returns early from within its bit loop. -/
def huffmanWalk (state : HuffmanState) (strLen : Nat) : Bytes → Nat × Bool
  | [] => if strLen = 0 then (0, true) else (1, false)
  | octet :: inside =>
      if strLen = 0 then (0, true)
      else
        match (bitsOf octet).foldlM HuffmanState.step state with
        | none => (1, true)
        | some next =>
            let (count, ends) := huffmanWalk next (strLen - 1) inside
            (count + 1, ends)

/-- A call of one of the string decoders. The one of QPACK returns 0 for a string that has octets
and decodes to nothing. The `std::length_error` of `assign` is for lengths that no buffer has. -/
def stringCall (rejectsEmpty : Bool) (data : Bytes) : StringCall :=
  let huffman := data.getD 0 0 &&& 0x80 ≠ 0
  match hpackDecodeInt data 7 with
  | none => { reads := positions 0 (min data.length (2 ^ 31)), returned := some 0 }
  | some (strLen, octets) =>
      let consumed := intPosition octets
      let integer := positions 0 (min octets (2 ^ 31))
      if consumed = 0 ∨ (data.length : Int) < (consumed + strLen) % 2 ^ 64 then
        { reads := integer, returned := some 0 }
      else
        let count := wrapInt32 (consumed + wrapInt32 strLen)
        if huffman then
          let inside := if consumed < 0 then [] else data.drop consumed.toNat
          let (read, ends) := huffmanWalk {} strLen inside
          { reads := integer ++ positions consumed read
            returned :=
              if ends = false then none
              else if rejectsEmpty ∧ 0 < strLen ∧ huffmanDecode (inside.take strLen) = [] then
                some 0
              else some count }
        else if 2 ^ 63 ≤ strLen then { reads := integer, returned := none }
        else { reads := integer ++ positions consumed strLen, returned := some count }

/-- A call of `decode_string`. -/
def decodeStringCall (data : Bytes) : StringCall := stringCall false data

/-- A call of `qpack_decode_string`. -/
def qpackDecodeStringCall (buf : Bytes) : StringCall := stringCall true buf

/-- Only octets of the buffer are read, and a count that is returned is one of octets in it. -/
structure StringCall.InBounds (call : StringCall) (len : Nat) : Prop where
  reads : ∀ position ∈ call.reads, 0 ≤ position ∧ position < len
  returned : ∀ count, call.returned = some count → 0 ≤ count ∧ count ≤ len

/-- What the length in front of a string has to be. -/
def LengthFits (rejectsEmpty : Bool) (data : Bytes) : Prop :=
  ∀ strLen octets, hpackDecodeInt data 7 = some (strLen, octets) →
    let huffman := data.getD 0 0 &&& 0x80 ≠ 0
    let inside := data.drop octets
    -- the string is refused: its integer is too long, or it is beyond the buffer
    2 ^ 31 < octets ∨ (data.length : Int) < (intPosition octets + strLen) % 2 ^ 64 ∨
    -- `assign` throws, or the length wraps and the decoder gives up inside the buffer
    ¬ huffman ∧ 2 ^ 63 ≤ strLen ∨
    huffman ∧ octets < 2 ^ 31 ∧ data.length < octets + strLen ∧
      (inside.flatMap bitsOf).foldlM HuffmanState.step {} = none ∨
    -- the string is in the buffer, and its end is an `int` or is not reported
    octets < 2 ^ 31 ∧ octets + strLen ≤ data.length ∧
      ((octets + strLen) % 2 ^ 32 < 2 ^ 31 ∨
        rejectsEmpty ∧ huffman ∧ 0 < strLen ∧ huffmanDecode (inside.take strLen) = [])

/-! ### Positions -/

theorem mem_positions (start position : Int) (count : Nat) :
    position ∈ positions start count ↔ start ≤ position ∧ position < start + count := by
  rw [positions, List.mem_map]
  constructor
  · rintro ⟨index, member, rfl⟩
    have below := List.mem_range.mp member
    omega
  · rintro ⟨first, last⟩
    exact ⟨(position - start).toNat, List.mem_range.mpr (by omega), by omega⟩

theorem positions_inside (start : Int) (count len : Nat) :
    (∀ position ∈ positions start count, 0 ≤ position ∧ position < len) ↔
      count = 0 ∨ 0 ≤ start ∧ start + count ≤ len := by
  simp only [mem_positions]
  constructor
  · intro inside
    by_cases none : count = 0
    · exact Or.inl none
    · have first := inside start (by omega)
      have last := inside (start + count - 1) (by omega)
      omega
  · rintro (rfl | ⟨nonneg, fits⟩) position ⟨first, last⟩
    · omega
    · omega

theorem decodeIntTail_lt (buf : Bytes) (shift value pos result consumed : Nat)
    (decoded : decodeIntTail buf shift value pos = some (result, consumed)) : result < 2 ^ 64 := by
  induction buf generalizing shift value pos with
  | nil => cases decoded
  | cons byte buf inductionHypothesis =>
    unfold decodeIntTail at decoded
    split at decoded
    · exact inductionHypothesis _ _ _ decoded
    · cases decoded
      exact Nat.mod_lt _ (Nat.two_pow_pos 64)

/-- A length has 64 bits, and its integer is in the buffer. -/
theorem hpackDecodeInt_bounds (data : Bytes) (strLen octets : Nat)
    (decoded : hpackDecodeInt data 7 = some (strLen, octets)) :
    strLen < 2 ^ 64 ∧ 0 < octets ∧ octets ≤ data.length := by
  refine ⟨?_, hpackDecodeInt_pos _ _ _ _ decoded, (hpackDecodeInt_append data [] _ _ _ decoded).2⟩
  cases data with
  | nil => cases decoded
  | cons first rest =>
    unfold hpackDecodeInt at decoded
    dsimp only at decoded
    split at decoded
    · rename_i small
      cases decoded
      exact small.trans (by decide)
    · exact decodeIntTail_lt _ _ _ _ _ _ decoded

/-! ### The Huffman decoder -/

theorem huffmanWalk_inside (state : HuffmanState) (strLen : Nat) (inside : Bytes)
    (enough : strLen ≤ inside.length) :
    (huffmanWalk state strLen inside).1 ≤ strLen ∧ (huffmanWalk state strLen inside).2 = true := by
  induction inside generalizing state strLen with
  | nil =>
    obtain rfl := Nat.le_zero.mp enough
    exact ⟨le_rfl, rfl⟩
  | cons octet inside inductionHypothesis =>
    rw [huffmanWalk]
    split
    · exact ⟨Nat.zero_le _, rfl⟩
    · split
      · exact ⟨by omega, rfl⟩
      · rename_i next _
        obtain ⟨few, ends⟩ := inductionHypothesis next (strLen - 1)
          (by rw [List.length_cons] at enough; omega)
        exact ⟨by simp only; omega, ends⟩

theorem huffmanWalk_stuck (state : HuffmanState) (strLen : Nat) (inside : Bytes)
    (short : inside.length < strLen)
    (stuck : (inside.flatMap bitsOf).foldlM HuffmanState.step state = none) :
    (huffmanWalk state strLen inside).1 ≤ inside.length ∧
      (huffmanWalk state strLen inside).2 = true := by
  induction inside generalizing state strLen with
  | nil => cases stuck
  | cons octet inside inductionHypothesis =>
    rw [List.length_cons] at short
    rw [List.flatMap_cons, List.foldlM_append] at stuck
    rw [huffmanWalk, if_neg (by omega), List.length_cons]
    cases step : (bitsOf octet).foldlM HuffmanState.step state with
    | none => exact ⟨by simp, rfl⟩
    | some next =>
      rw [step] at stuck
      obtain ⟨few, ends⟩ := inductionHypothesis next (strLen - 1) (by omega) stuck
      exact ⟨Nat.succ_le_succ few, ends⟩

theorem huffmanWalk_past (state final : HuffmanState) (strLen : Nat) (inside : Bytes)
    (short : inside.length < strLen)
    (through : (inside.flatMap bitsOf).foldlM HuffmanState.step state = some final) :
    huffmanWalk state strLen inside = (inside.length + 1, false) := by
  induction inside generalizing state strLen with
  | nil =>
    rw [huffmanWalk, if_neg (by rw [List.length_nil] at short; omega)]
    rfl
  | cons octet inside inductionHypothesis =>
    rw [List.length_cons] at short
    rw [List.flatMap_cons, List.foldlM_append] at through
    rw [huffmanWalk, if_neg (by omega), List.length_cons]
    obtain ⟨next, step, later⟩ := Option.bind_eq_some_iff.mp through
    rw [step]
    dsimp only
    rw [inductionHypothesis next (strLen - 1) (by omega) later]

/-! ### Which calls are in bounds -/

theorem intPosition_of_lt (octets : Nat) (short : octets < 2 ^ 31) :
    intPosition octets = octets := if_pos short

/-- The part of the reads that is the integer. -/
theorem integer_inside (data : Bytes) (octets : Nat) (started : octets ≤ data.length) :
    ∀ position ∈ positions 0 (min octets (2 ^ 31)), 0 ≤ position ∧ position < data.length :=
  (positions_inside 0 _ _).mpr (Or.inr ⟨le_rfl, by omega⟩)

theorem stringCall_none (rejectsEmpty : Bool) (data : Bytes)
    (incomplete : hpackDecodeInt data 7 = none) :
    (stringCall rejectsEmpty data).InBounds data.length := by
  rw [stringCall, incomplete]
  refine ⟨integer_inside data data.length le_rfl, fun count returned => ?_⟩
  cases returned
  exact ⟨le_rfl, Int.natCast_nonneg _⟩

section Length

variable {data : Bytes} {strLen octets : Nat} (rejectsEmpty : Bool)
  (decoded : hpackDecodeInt data 7 = some (strLen, octets))

include decoded

/-- A string that is refused. -/
theorem stringCall_refused (refused : intPosition octets = 0 ∨
      (data.length : Int) < (intPosition octets + strLen) % 2 ^ 64) :
    (stringCall rejectsEmpty data).InBounds data.length := by
  obtain ⟨_, _, started⟩ := hpackDecodeInt_bounds data strLen octets decoded
  rw [stringCall, decoded]
  dsimp only
  rw [if_pos refused]
  refine ⟨integer_inside data octets started, fun count returned => ?_⟩
  cases returned
  exact ⟨le_rfl, Int.natCast_nonneg _⟩

/-- A Huffman string that is not refused. -/
theorem stringCall_huffman (accepted : ¬ (intPosition octets = 0 ∨
      (data.length : Int) < (intPosition octets + strLen) % 2 ^ 64))
    (huffman : data.getD 0 0 &&& 0x80 ≠ 0) :
    stringCall rejectsEmpty data =
      let inside := if intPosition octets < 0 then [] else data.drop (intPosition octets).toNat
      { reads := positions 0 (min octets (2 ^ 31)) ++
          positions (intPosition octets) (huffmanWalk {} strLen inside).1
        returned :=
          if (huffmanWalk {} strLen inside).2 = false then none
          else if rejectsEmpty ∧ 0 < strLen ∧ huffmanDecode (inside.take strLen) = [] then some 0
          else some (wrapInt32 (intPosition octets + wrapInt32 strLen)) } := by
  rw [stringCall, decoded]
  dsimp only
  rw [if_neg accepted, if_pos huffman]

/-- Another string that is not refused. -/
theorem stringCall_raw (accepted : ¬ (intPosition octets = 0 ∨
      (data.length : Int) < (intPosition octets + strLen) % 2 ^ 64))
    (raw : ¬ data.getD 0 0 &&& 0x80 ≠ 0) :
    stringCall rejectsEmpty data =
      if 2 ^ 63 ≤ strLen then
        { reads := positions 0 (min octets (2 ^ 31)), returned := none }
      else
        { reads := positions 0 (min octets (2 ^ 31)) ++ positions (intPosition octets) strLen
          returned := some (wrapInt32 (intPosition octets + wrapInt32 strLen)) } := by
  rw [stringCall, decoded]
  dsimp only
  rw [if_neg accepted, if_neg raw]

end Length

theorem count_inside_iff (octets strLen len : Nat) (fits : octets + strLen ≤ len) :
    (0 ≤ wrapInt32 (octets + wrapInt32 strLen) ∧ wrapInt32 (octets + wrapInt32 strLen) ≤ len) ↔
      (octets + strLen) % 2 ^ 32 < 2 ^ 31 := by
  unfold wrapInt32
  omega

theorem count_wrapped (octets strLen : Nat) (short : octets < 2 ^ 31) (word : strLen < 2 ^ 64)
    (wraps : 2 ^ 64 ≤ octets + strLen) :
    0 ≤ wrapInt32 (octets + wrapInt32 strLen) ∧ wrapInt32 (octets + wrapInt32 strLen) ≤ octets := by
  unfold wrapInt32
  omega

/-- The condition, read at the length that is in front of the string. -/
theorem lengthFits_iff {data : Bytes} {strLen octets : Nat} (rejectsEmpty : Bool)
    (decoded : hpackDecodeInt data 7 = some (strLen, octets)) :
    LengthFits rejectsEmpty data ↔
      2 ^ 31 < octets ∨ (data.length : Int) < (intPosition octets + strLen) % 2 ^ 64 ∨
      ¬ data.getD 0 0 &&& 0x80 ≠ 0 ∧ 2 ^ 63 ≤ strLen ∨
      data.getD 0 0 &&& 0x80 ≠ 0 ∧ octets < 2 ^ 31 ∧ data.length < octets + strLen ∧
        ((data.drop octets).flatMap bitsOf).foldlM HuffmanState.step {} = none ∨
      octets < 2 ^ 31 ∧ octets + strLen ≤ data.length ∧
        ((octets + strLen) % 2 ^ 32 < 2 ^ 31 ∨
          rejectsEmpty ∧ data.getD 0 0 &&& 0x80 ≠ 0 ∧ 0 < strLen ∧
            huffmanDecode ((data.drop octets).take strLen) = []) := by
  constructor
  · intro fits
    exact fits strLen octets decoded
  · intro fits strLen' octets' decoded'
    cases decoded.symm.trans decoded'
    exact fits

/-- Calls whose integer and string are read up to a point. -/
theorem inBounds_append_iff (data : Bytes) (octets : Nat) (started : octets ≤ data.length)
    (others : List Int) (returned : Option Int) :
    StringCall.InBounds { reads := positions 0 (min octets (2 ^ 31)) ++ others, returned }
        data.length ↔
      (∀ position ∈ others, 0 ≤ position ∧ position < data.length) ∧
        ∀ count, returned = some count → 0 ≤ count ∧ count ≤ data.length := by
  constructor
  · intro inBounds
    exact ⟨fun position member => inBounds.reads position (List.mem_append_right _ member),
      inBounds.returned⟩
  · rintro ⟨inside, counted⟩
    refine ⟨fun position member => ?_, counted⟩
    rcases List.mem_append.mp member with integer | other
    · exact integer_inside data octets started position integer
    · exact inside position other

section Accepted

variable {data : Bytes} {strLen octets : Nat} (rejectsEmpty : Bool)
  (decoded : hpackDecodeInt data 7 = some (strLen, octets)) (addressable : data.length < 2 ^ 63)
  (accepted : ¬ (intPosition octets = 0 ∨
    (data.length : Int) < (intPosition octets + strLen) % 2 ^ 64))

include decoded addressable accepted

/-- An integer of 2^31 octets puts the string in front of the buffer. -/
theorem stringCall_negative_iff (negative : octets = 2 ^ 31) :
    (stringCall rejectsEmpty data).InBounds data.length ↔ LengthFits rejectsEmpty data := by
  obtain ⟨word, _, started⟩ := hpackDecodeInt_bounds data strLen octets decoded
  have position : intPosition octets = -2 ^ 31 := by rw [negative]; rfl
  rw [position] at accepted
  have some' : 0 < strLen := by omega
  rw [lengthFits_iff rejectsEmpty decoded]
  by_cases huffman : data.getD 0 0 &&& 0x80 ≠ 0
  · rw [stringCall_huffman rejectsEmpty decoded (by rwa [position]) huffman, position,
      inBounds_append_iff data octets started, if_pos (by decide), huffmanWalk,
      if_neg some'.ne', positions_inside]
    refine iff_of_false (by omega) ?_
    rintro (long | beyond | ⟨raw, _⟩ | ⟨_, short, _⟩ | ⟨short, _⟩)
    · omega
    · exact accepted (Or.inr (position ▸ beyond))
    · exact raw huffman
    · omega
    · omega
  · rw [stringCall_raw rejectsEmpty decoded (by rwa [position]) huffman, position]
    by_cases throws : 2 ^ 63 ≤ strLen
    · rw [if_pos throws]
      exact iff_of_true ⟨integer_inside data octets started, nofun⟩
        (Or.inr (Or.inr (Or.inl ⟨huffman, throws⟩)))
    · rw [if_neg throws, inBounds_append_iff data octets started, positions_inside]
      refine iff_of_false (by omega) ?_
      rintro (long | beyond | ⟨_, throws'⟩ | ⟨_, short, _⟩ | ⟨short, _⟩)
      · omega
      · exact accepted (Or.inr beyond)
      · exact throws throws'
      · omega
      · omega

/-- The string begins behind its integer. -/
theorem stringCall_raw_iff (short : octets < 2 ^ 31) (raw : ¬ data.getD 0 0 &&& 0x80 ≠ 0) :
    (stringCall rejectsEmpty data).InBounds data.length ↔ LengthFits rejectsEmpty data := by
  obtain ⟨word, _, started⟩ := hpackDecodeInt_bounds data strLen octets decoded
  have position := intPosition_of_lt octets short
  rw [lengthFits_iff rejectsEmpty decoded, stringCall_raw rejectsEmpty decoded accepted raw]
  rw [position] at accepted ⊢
  by_cases throws : 2 ^ 63 ≤ strLen
  · rw [if_pos throws]
    exact iff_of_true ⟨integer_inside data octets started, nofun⟩
      (Or.inr (Or.inr (Or.inl ⟨raw, throws⟩)))
  · have fits : octets + strLen ≤ data.length := by omega
    have counted := count_inside_iff octets strLen data.length fits
    rw [if_neg throws, inBounds_append_iff data octets started, positions_inside]
    constructor
    · rintro ⟨_, returned⟩
      refine Or.inr (Or.inr (Or.inr (Or.inr ⟨short, fits, Or.inl ?_⟩)))
      exact counted.mp (returned _ rfl)
    · rintro (long | beyond | ⟨_, throws'⟩ | ⟨huffman, _⟩ | ⟨_, _, ends | ⟨_, huffman, _⟩⟩)
      · omega
      · exact absurd (Or.inr beyond) accepted
      · exact absurd throws' throws
      · exact absurd huffman raw
      · refine ⟨Or.inr ⟨by omega, by omega⟩, fun count returned => ?_⟩
        rw [← Option.some.inj returned]
        exact counted.mpr ends
      · exact absurd huffman raw

omit addressable in
/-- A Huffman string in the buffer. -/
theorem stringCall_huffman_iff (short : octets < 2 ^ 31) (huffman : data.getD 0 0 &&& 0x80 ≠ 0)
    (fits : octets + strLen ≤ data.length) :
    (stringCall rejectsEmpty data).InBounds data.length ↔ LengthFits rejectsEmpty data := by
  obtain ⟨word, _, started⟩ := hpackDecodeInt_bounds data strLen octets decoded
  have position := intPosition_of_lt octets short
  have counted := count_inside_iff octets strLen data.length fits
  obtain ⟨few, ends⟩ := huffmanWalk_inside {} strLen (data.drop octets)
    (by rw [List.length_drop]; omega)
  rw [lengthFits_iff rejectsEmpty decoded, stringCall_huffman rejectsEmpty decoded accepted huffman]
  rw [position] at accepted ⊢
  dsimp only
  rw [if_neg (Int.natCast_nonneg octets).not_gt, Int.toNat_natCast,
    inBounds_append_iff data octets started, positions_inside, ends, if_neg (by decide)]
  constructor
  · rintro ⟨_, returned⟩
    refine Or.inr (Or.inr (Or.inr (Or.inr ⟨short, fits, ?_⟩)))
    by_cases fails : rejectsEmpty = true ∧ 0 < strLen ∧
        huffmanDecode ((data.drop octets).take strLen) = []
    · exact Or.inr ⟨fails.1, huffman, fails.2⟩
    · rw [if_neg fails] at returned
      exact Or.inl (counted.mp (returned _ rfl))
  · rintro (long | beyond | ⟨raw, _⟩ | ⟨_, _, outside, _⟩ | ⟨_, _, inside⟩)
    · omega
    · exact absurd (Or.inr beyond) accepted
    · exact absurd huffman raw
    · omega
    · refine ⟨Or.inr ⟨by omega, by omega⟩, fun count returned => ?_⟩
      split_ifs at returned with fails
      · cases returned
        exact ⟨le_rfl, Int.natCast_nonneg _⟩
      · rw [← Option.some.inj returned]
        rcases inside with small | ⟨rejects, _, empty⟩
        · exact counted.mpr small
        · exact absurd ⟨rejects, empty⟩ fails

/-- A Huffman string whose length wraps. -/
theorem stringCall_wrapped_iff (short : octets < 2 ^ 31) (huffman : data.getD 0 0 &&& 0x80 ≠ 0)
    (outside : data.length < octets + strLen) :
    (stringCall rejectsEmpty data).InBounds data.length ↔ LengthFits rejectsEmpty data := by
  obtain ⟨word, _, started⟩ := hpackDecodeInt_bounds data strLen octets decoded
  have position := intPosition_of_lt octets short
  have longer : (data.drop octets).length < strLen := by rw [List.length_drop]; omega
  rw [lengthFits_iff rejectsEmpty decoded, stringCall_huffman rejectsEmpty decoded accepted huffman]
  rw [position] at accepted ⊢
  have wrapped := count_wrapped octets strLen short word (by omega)
  dsimp only
  rw [if_neg (Int.natCast_nonneg octets).not_gt, Int.toNat_natCast,
    inBounds_append_iff data octets started, positions_inside]
  cases loop : ((data.drop octets).flatMap bitsOf).foldlM HuffmanState.step {} with
  | none =>
    obtain ⟨few, ends⟩ := huffmanWalk_stuck {} strLen (data.drop octets) longer loop
    rw [List.length_drop] at few
    rw [ends, if_neg (by decide)]
    refine iff_of_true ⟨Or.inr ⟨by omega, by omega⟩, fun count returned => ?_⟩
      (Or.inr (Or.inr (Or.inr (Or.inl ⟨huffman, short, outside, rfl⟩))))
    split_ifs at returned
    · cases returned
      exact ⟨le_rfl, Int.natCast_nonneg _⟩
    · rw [← Option.some.inj returned]
      omega
  | some final =>
    rw [huffmanWalk_past {} final strLen (data.drop octets) longer loop, List.length_drop]
    refine iff_of_false (by dsimp only; omega) ?_
    rintro (long | beyond | ⟨raw, _⟩ | ⟨_, _, _, stuck⟩ | ⟨_, inside, _⟩)
    · omega
    · exact accepted (Or.inr beyond)
    · exact raw huffman
    · cases stuck
    · omega

end Accepted

/-- A call of a string decoder is in bounds exactly when the length in front of the string fits. -/
theorem stringCall_inBounds_iff (rejectsEmpty : Bool) (data : Bytes)
    (addressable : data.length < 2 ^ 63) :
    (stringCall rejectsEmpty data).InBounds data.length ↔ LengthFits rejectsEmpty data := by
  cases decoded : hpackDecodeInt data 7 with
  | none =>
    refine iff_of_true (stringCall_none rejectsEmpty data decoded) fun strLen octets decoded' => ?_
    rw [decoded] at decoded'
    cases decoded'
  | some found =>
    obtain ⟨strLen, octets⟩ := found
    obtain ⟨_, positive, _⟩ := hpackDecodeInt_bounds data strLen octets decoded
    by_cases refused : intPosition octets = 0 ∨
      (data.length : Int) < (intPosition octets + strLen) % 2 ^ 64
    · refine iff_of_true (stringCall_refused rejectsEmpty decoded refused) ?_
      rw [lengthFits_iff rejectsEmpty decoded]
      rcases refused with zero | beyond
      · left
        unfold intPosition at zero
        split_ifs at zero with short exactly
        · omega
        · omega
        · omega
      · exact Or.inr (Or.inl beyond)
    · obtain ⟨nonzero, _⟩ := not_or.mp refused
      rcases Nat.lt_trichotomy octets (2 ^ 31) with short | exactly | long
      · by_cases huffman : data.getD 0 0 &&& 0x80 ≠ 0
        · by_cases fits : octets + strLen ≤ data.length
          · exact stringCall_huffman_iff rejectsEmpty decoded refused short huffman fits
          · exact stringCall_wrapped_iff rejectsEmpty decoded addressable refused short huffman
              (not_le.mp fits)
        · exact stringCall_raw_iff rejectsEmpty decoded addressable refused short huffman
      · exact stringCall_negative_iff rejectsEmpty decoded addressable refused exactly
      · refine absurd ?_ nonzero
        rw [intPosition, if_neg (by omega), if_neg (by omega)]

/-- A call returns the count of `decodeString`, unless the length of the string takes 2^31 octets.
-/
theorem decodeStringCall_returned (data : Bytes) (addressable : data.length < 2 ^ 63)
    (short : ∀ strLen octets, hpackDecodeInt data 7 = some (strLen, octets) → octets < 2 ^ 31) :
    (decodeStringCall data).returned = (decodeString data).toOption.map Prod.snd := by
  unfold decodeStringCall decodeString
  cases decoded : hpackDecodeInt data 7 with
  | none =>
    rw [stringCall, decoded]
    rfl
  | some found =>
    obtain ⟨strLen, octets⟩ := found
    obtain ⟨word, positive, started⟩ := hpackDecodeInt_bounds data strLen octets decoded
    have position := intPosition_of_lt octets (short _ _ decoded)
    dsimp only
    by_cases refused : data.length < (octets + strLen) % 2 ^ 64
    · rw [stringCall, decoded]
      dsimp only
      rw [position, if_pos (Or.inr (by omega)), if_pos refused]
      rfl
    · have accepted : ¬ (intPosition octets = 0 ∨
          (data.length : Int) < (intPosition octets + strLen) % 2 ^ 64) := by
        rw [position]
        omega
      rw [if_neg refused]
      by_cases huffman : data.getD 0 0 &&& 0x80 ≠ 0
      · rw [stringCall_huffman false decoded accepted huffman, position]
        dsimp only
        rw [if_neg (Int.natCast_nonneg octets).not_gt, Int.toNat_natCast, if_pos huffman,
          if_pos huffman]
        by_cases outside : data.length < octets + strLen
        · have longer : (data.drop octets).length < strLen := by rw [List.length_drop]; omega
          rw [if_pos outside]
          cases loop : ((data.drop octets).flatMap bitsOf).foldlM HuffmanState.step {} with
          | none =>
            rw [(huffmanWalk_stuck {} strLen (data.drop octets) longer loop).2]
            rfl
          | some final =>
            rw [huffmanWalk_past {} final strLen (data.drop octets) longer loop]
            rfl
        · have inside : strLen ≤ (data.drop octets).length := by rw [List.length_drop]; omega
          rw [if_neg outside, (huffmanWalk_inside {} strLen (data.drop octets) inside).2]
          rfl
      · rw [stringCall_raw false decoded accepted huffman, position, if_neg huffman,
          if_neg huffman]
        by_cases throws : 2 ^ 63 ≤ strLen
        · rw [if_pos throws, if_pos (by omega)]
          rfl
        · rw [if_neg throws, if_neg (by omega)]
          rfl

/-- Both string decoders stay in bounds on exactly the buffers whose length in front fits. -/
theorem stringDecoders_inBounds_iff (data : Bytes) (addressable : data.length < 2 ^ 63) :
    ((decodeStringCall data).InBounds data.length ↔ LengthFits false data) ∧
      ((qpackDecodeStringCall data).InBounds data.length ↔ LengthFits true data) :=
  ⟨stringCall_inBounds_iff false data addressable, stringCall_inBounds_iff true data addressable⟩

/-- A Huffman string of 2^64 - 1 octets, in a buffer that ends with its length. -/
def wrappingLength : Bytes := [0xFF, 0x80, 0xFF, 0xFF, 0xFF, 0xFF, 0xFF, 0xFF, 0xFF, 0xFF, 0x01]

/-- The octet behind the buffer is read. -/
theorem not_inBounds_wrappingLength :
    ¬ (decodeStringCall wrappingLength).InBounds wrappingLength.length ∧
      ¬ (qpackDecodeStringCall wrappingLength).InBounds wrappingLength.length := by
  refine ⟨fun inBounds => ?_, fun inBounds => ?_⟩
  · have past := inBounds.reads 11 (by decide +kernel)
    exact absurd past.2 (by decide)
  · have past := inBounds.reads 11 (by decide +kernel)
    exact absurd past.2 (by decide)

/-- The string `a` is in the buffer. -/
theorem stringDecoders_inBounds_a :
    (decodeStringCall [0x01, 0x61]).InBounds 2 ↔ LengthFits false [0x01, 0x61] :=
  (stringDecoders_inBounds_iff [0x01, 0x61] (by decide)).1

end AsyncNet.Http
