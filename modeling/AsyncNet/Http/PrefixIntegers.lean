/-
This file is about the prefix integers of HPACK and QPACK, with the buffer that they are written to.
What the encoder writes stays inside the buffer, and it is read back when it fits: the loop writes
the bytes of `encodeIntTail`, one place after the other.

The other way round it is not the integer of the standard that is read. The decoder adds septets in
64 bits, up to any shift, and tests neither the sum nor the number of the octets. So it is exact
only on integers below 2^64 that do not take more octets than a shift of a 64-bit word allows.
-/

import AsyncNet.Http.HpackRoundTrip
import AsyncNet.Http.QpackReference

namespace AsyncNet.Http.H2

/-! ### The buffer -/

/-- `buf[pos] = byte`. -/
def store (buf : Bytes) (pos : Nat) (byte : UInt8) : Except Fault Bytes :=
  if pos < buf.length then .ok (buf.set pos byte) else .error .outOfBounds

/-- The loop of `hpack_encode_int` and what follows it, from a position on: the buffer and the
number that is returned. -/
def writeIntTail (buf : Bytes) (pos value : Nat) : Except Fault (Bytes × Nat) :=
  if _large : 128 ≤ value then
    if buf.length ≤ pos then .ok (buf, 0)
    else
      match store buf pos (UInt8.ofNat (value &&& 0x7F ||| 0x80)) with
      | .error fault => .error fault
      | .ok buf => writeIntTail buf (pos + 1) (value >>> 7)
  else if buf.length ≤ pos then .ok (buf, 0)
  else (store buf pos (UInt8.ofNat value)).map fun buf => (buf, pos + 1)
termination_by value
decreasing_by
  rw [Nat.shiftRight_eq_div_pow]
  exact Nat.div_lt_self (by omega) (by decide)

/-- `hpack_encode_int`: the buffer afterwards and the number of bytes that it returns. -/
def writeInt (buf : Bytes) (value : UInt64) (prefixBits : Nat) (firstByteMask : UInt8) :
    Except Fault (Bytes × Nat) :=
  let maxPrefix := 2 ^ prefixBits - 1
  if buf.length = 0 then .ok (buf, 0)
  else if value.toNat < maxPrefix then
    (store buf 0 (firstByteMask ||| UInt8.ofNat value.toNat)).map fun buf => (buf, 1)
  else
    match store buf 0 (firstByteMask ||| UInt8.ofNat maxPrefix) with
    | .error fault => .error fault
    | .ok buf => writeIntTail buf 1 (value.toNat - maxPrefix)

/-- `qpack_encode_int` with its buffer, a copy of `hpack_encode_int`. -/
def qpackWriteInt (buf : Bytes) (value : UInt64) (prefixBits : Nat) (firstByteMask : UInt8) :
    Except Fault (Bytes × Nat) :=
  writeInt buf value prefixBits firstByteMask

/-! ### What the encoder writes -/

theorem store_inside {buf : Bytes} {pos : Nat} (inside : pos < buf.length) (byte : UInt8) :
    store buf pos byte = .ok (buf.set pos byte) := if_pos inside

/-- The bytes up to a position that has been written. -/
theorem take_set {buf : Bytes} {pos : Nat} (inside : pos < buf.length) (byte : UInt8) :
    (buf.set pos byte).take (pos + 1) = buf.take pos ++ [byte] := by
  rw [List.take_set, List.take_succ_eq_append_getElem inside,
    List.set_append_right _ _ (List.length_take_le _ _), List.length_take,
    Nat.min_eq_left inside.le, Nat.sub_self]
  rfl

/-- The bytes of the encoder are written from a position on, or the buffer ends before. -/
structure Writes (buf : Bytes) (pos : Nat) (bytes : Option Bytes)
    (written : Except Fault (Bytes × Nat)) : Prop where
  none : bytes = none → ∃ after, written = .ok (after, 0) ∧ after.length = buf.length
  some : ∀ tail, bytes = some tail → ∃ after, written = .ok (after, pos + tail.length) ∧
    after.length = buf.length ∧ pos + tail.length ≤ buf.length ∧
      after.take (pos + tail.length) = buf.take pos ++ tail

theorem writes_full {buf : Bytes} {pos : Nat} : Writes buf pos none (.ok (buf, 0)) :=
  ⟨fun _ => ⟨buf, rfl, rfl⟩, fun _ wrong => by cases wrong⟩

/-- One more byte in front. -/
theorem Writes.cons {buf : Bytes} {pos : Nat} (inside : pos < buf.length) {byte : UInt8}
    {tail : Option Bytes} {written : Except Fault (Bytes × Nat)}
    (writes : Writes (buf.set pos byte) (pos + 1) tail written) :
    Writes buf pos (tail.map (byte :: ·)) written := by
  refine ⟨fun nothing => ?_, fun bytes isBytes => ?_⟩
  · obtain ⟨after, same, length⟩ := writes.none (Option.map_eq_none_iff.mp nothing)
    exact ⟨after, same, length.trans List.length_set⟩
  · obtain ⟨later, isTail, rfl⟩ := Option.map_eq_some_iff.mp isBytes
    obtain ⟨after, same, length, fits, front⟩ := writes.some later isTail
    have total : pos + 1 + later.length = pos + (byte :: later).length := by
      rw [List.length_cons]
      omega
    rw [total] at same fits front
    rw [take_set inside, List.append_assoc] at front
    rw [List.length_set] at length fits
    exact ⟨after, same, length, fits, front⟩

theorem writes_tail (space : Nat) (buf : Bytes) (pos value : Nat)
    (room : pos + space = buf.length) :
    Writes buf pos (encodeIntTail space value) (writeIntTail buf pos value) := by
  induction space generalizing buf pos value with
  | zero =>
    have full : buf.length ≤ pos := by omega
    rw [writeIntTail, encodeIntTail, if_pos full, if_pos full]
    split
    · exact writes_full
    · exact writes_full
  | succ space inductionHypothesis =>
    have inside : pos < buf.length := by omega
    have left : ¬ buf.length ≤ pos := Nat.not_le.mpr inside
    rw [writeIntTail, encodeIntTail, if_neg left, if_neg left, store_inside inside,
      store_inside inside]
    split
    · refine Writes.cons inside (inductionHypothesis _ _ _ ?_)
      rw [List.length_set]
      omega
    · refine ⟨?_, fun tail isTail => ?_⟩
      · exact fun wrong => by cases wrong
      · cases isTail
        exact ⟨_, rfl, List.length_set, inside, take_set inside _⟩

/-- The buffer version writes what `hpackEncodeInt` returns, or returns zero where that is empty. -/
theorem writeInt_spec (buf : Bytes) (value : UInt64) (prefixBits : Nat) (mask : UInt8) :
    ∃ after, writeInt buf value prefixBits mask =
        .ok (after, (hpackEncodeInt buf.length value.toNat prefixBits mask).length) ∧
      after.length = buf.length ∧
      after.take (hpackEncodeInt buf.length value.toNat prefixBits mask).length =
        hpackEncodeInt buf.length value.toNat prefixBits mask := by
  unfold writeInt hpackEncodeInt
  dsimp only
  split
  · exact ⟨buf, rfl, rfl, rfl⟩
  · rename_i hasRoom
    have inside : 0 < buf.length := Nat.pos_of_ne_zero hasRoom
    rw [store_inside inside, store_inside inside]
    split
    · exact ⟨_, rfl, List.length_set, take_set inside _⟩
    · have writes := writes_tail (buf.length - 1)
        (buf.set 0 (mask ||| UInt8.ofNat (2 ^ prefixBits - 1))) 1
        (value.toNat - (2 ^ prefixBits - 1)) (by rw [List.length_set]; omega)
      have all := Writes.cons inside writes
      dsimp only
      split
      · rename_i nothing
        obtain ⟨after, same, length⟩ := writes.none nothing
        exact ⟨after, same, length.trans List.length_set, rfl⟩
      · rename_i tail isTail
        obtain ⟨after, same, length, _, front⟩ := all.some (_ :: tail) (by rw [isTail]; rfl)
        rw [Nat.zero_add] at same front
        exact ⟨after, same, length, front⟩

/-! ### Round trips -/

/-- A call of an encoder writes inside the buffer, and what it has written is read back, whatever
follows it, unless it returns zero. -/
def RoundTrips (decode : Bytes → Nat → Option (Nat × Nat)) (buf : Bytes) (value : UInt64)
    (prefixBits : Nat) (rest : Bytes) (written : Except Fault (Bytes × Nat)) : Prop :=
  ∃ after length, written = .ok (after, length) ∧ after.length = buf.length ∧
    length ≤ buf.length ∧
      (length = 0 ∨ decode (after.take length ++ rest) prefixBits = some (value.toNat, length))

/-- The two encoders and the two decoders agree on every integer of 64 bits. -/
theorem prefixIntegers_roundTrip (buf : Bytes) (value : UInt64) (prefixBits : Nat)
    (bounds : 1 ≤ prefixBits ∧ prefixBits ≤ 8) (mask : UInt8)
    (clear : mask.toNat % 2 ^ prefixBits = 0) (rest : Bytes) :
    RoundTrips hpackDecodeInt buf value prefixBits rest (writeInt buf value prefixBits mask) ∧
      RoundTrips H3.qpackDecodeInt buf value prefixBits rest
        (qpackWriteInt buf value prefixBits mask) := by
  obtain ⟨after, written, same, front⟩ := writeInt_spec buf value prefixBits mask
  have both : RoundTrips hpackDecodeInt buf value prefixBits rest
      (writeInt buf value prefixBits mask) := by
    refine ⟨after, _, written, same, ?_, ?_⟩
    · have length := congrArg List.length front
      rw [List.length_take] at length
      omega
    · rw [front]
      by_cases nothing : hpackEncodeInt buf.length value.toNat prefixBits mask = []
      · exact Or.inl (List.length_eq_zero_iff.mpr nothing)
      · exact Or.inr (hpackDecodeInt_hpackEncodeInt buf.length value.toNat prefixBits mask rest
          value.toNat_lt bounds.2 clear nothing)
  exact ⟨both, both⟩

/-- The largest integer, in a buffer that holds it, with two bytes behind it. -/
theorem prefixIntegers_roundTrip_largest :
    RoundTrips hpackDecodeInt (List.replicate 16 0) 0xFFFFFFFFFFFFFFFF 8 [7, 255]
        (writeInt (List.replicate 16 0) 0xFFFFFFFFFFFFFFFF 8 0) ∧
      RoundTrips H3.qpackDecodeInt (List.replicate 16 0) 0xFFFFFFFFFFFFFFFF 8 [7, 255]
        (qpackWriteInt (List.replicate 16 0) 0xFFFFFFFFFFFFFFFF 8 0) :=
  prefixIntegers_roundTrip (List.replicate 16 0) 0xFFFFFFFFFFFFFFFF 8 (by decide) 0 (by decide)
    [7, 255]

/-! ### What the decoder reads -/

/-- The octets of an integer whose shifts stay in the word: the one with the prefix and ten others,
the last of which is shifted by 63. -/
def maxOctets : Nat := 11

theorem septet_eq (byte : UInt8) :
    (byte &&& 0x7F).toNat = byte.toNat % 128 ∧ (byte &&& 0x80 ≠ 0 ↔ ¬ byte.toNat < 128) := by
  refine ⟨(UInt8.toNat_and byte 0x7F).trans (Nat.and_two_pow_sub_one_eq_mod _ 7), ?_⟩
  revert byte
  exact forall_byte (by decide +kernel)

/-- The decoder ends where the integer of the standard ends. As long as the shifts stay in the word
it has its value modulo 2^64. -/
structure Reads (read : Option (Nat × Nat)) (denoted : Option (Nat × Bytes)) (length : Nat) :
    Prop where
  none : denoted = none → read = none
  some : ∀ value rest, denoted = some (value, rest) → ∃ result consumed,
    read = some (result, consumed) ∧ consumed + rest.length = length ∧ result < 2 ^ 64 ∧
      (consumed ≤ maxOctets → result = value % 2 ^ 64)

/-- A septet that is shifted inside of the word is added modulo 2^64. -/
theorem add_septet {shift : Nat} (narrow : shift < 64) (value septet : Nat) :
    (value % 2 ^ 64 + (septet <<< (shift % 64)) % 2 ^ 64) % 2 ^ 64 =
      (value + septet * 2 ^ shift) % 2 ^ 64 := by
  rw [Nat.mod_eq_of_lt narrow, Nat.shiftLeft_eq, ← Nat.add_mod]

theorem reads_tail (buf : Bytes) (shift value result pos : Nat) (isShift : shift + 7 = 7 * pos)
    (same : pos ≤ maxOctets → result = value % 2 ^ 64) :
    Reads (decodeIntTail buf shift result pos) (H3.Reference.continuation value shift buf)
      (pos + buf.length) := by
  induction buf generalizing shift value result pos with
  | nil => exact ⟨fun _ => rfl, fun _ _ wrong => by cases wrong⟩
  | cons byte buf inductionHypothesis =>
    obtain ⟨septet, goesOn⟩ := septet_eq byte
    have later : pos + 1 ≤ maxOctets →
        (result + ((byte &&& 0x7F).toNat <<< (shift % 64)) % 2 ^ 64) % 2 ^ 64 =
          (value + byte.toNat % 128 * 2 ^ shift) % 2 ^ 64 := by
      intro few
      unfold maxOctets at few same
      rw [same (by omega), septet]
      exact add_septet (by omega) value _
    rw [decodeIntTail, H3.Reference.continuation]
    by_cases last : byte.toNat < 128
    · rw [if_neg (fun wrong => goesOn.mp wrong last), if_pos last]
      refine ⟨fun wrong => ?_, fun denoted rest isDenoted => ?_⟩
      · cases wrong
      · cases isDenoted
        refine ⟨_, _, rfl, ?_, Nat.mod_lt _ (by decide), later⟩
        rw [List.length_cons]
        omega
    · rw [if_pos (goesOn.mpr last), if_neg last]
      have reads := inductionHypothesis (shift + 7) _ _ (pos + 1) (by omega) later
      rw [List.length_cons, Nat.add_comm buf.length, ← Nat.add_assoc]
      exact reads

theorem reads (buf : Bytes) (prefixBits : Nat) :
    Reads (hpackDecodeInt buf prefixBits) (H3.Reference.integer prefixBits buf) buf.length := by
  cases buf with
  | nil => exact ⟨fun _ => rfl, fun _ _ wrong => by cases wrong⟩
  | cons first rest =>
    have value := Nat.and_two_pow_sub_one_eq_mod first.toNat prefixBits
    have small : first.toNat % 2 ^ prefixBits < 2 ^ 64 :=
      Nat.lt_of_le_of_lt (Nat.mod_le _ _) (Nat.lt_trans first.toNat_lt (by decide))
    rw [hpackDecodeInt, H3.Reference.integer, value]
    split
    · refine ⟨fun wrong => ?_, fun denoted behind isDenoted => ?_⟩
      · cases wrong
      · cases isDenoted
        refine ⟨_, _, rfl, ?_, small, fun _ => (Nat.mod_eq_of_lt small).symm⟩
        rw [List.length_cons, Nat.add_comm]
    · rw [List.length_cons, Nat.add_comm]
      exact reads_tail rest 0 _ _ 1 rfl fun _ => (Nat.mod_eq_of_lt small).symm

/-- A decoder returns zero, or the integer that stands in front of the buffer, which no shift of a
64-bit word is too narrow for. -/
def Exact (decode : Bytes → Nat → Option (Nat × Nat)) (buf : Bytes) (prefixBits : Nat) : Prop :=
  ∀ value consumed, decode buf prefixBits = some (value, consumed) → consumed ≤ maxOctets ∧
    ∃ rest, H3.Reference.integer prefixBits buf = some (value, rest) ∧
      consumed + rest.length = buf.length

/-- The integer in front of a buffer, if there is one, is below 2^64, and it takes at most eleven
octets. -/
def Representable (buf : Bytes) (prefixBits : Nat) : Prop :=
  ∀ value rest, H3.Reference.integer prefixBits buf = some (value, rest) →
    value < 2 ^ 64 ∧ buf.length ≤ maxOctets + rest.length

/-- The two decoders are exact on the integers that fit, and on no others. -/
theorem exact_iff_representable (buf : Bytes) (prefixBits : Nat) :
    (Exact hpackDecodeInt buf prefixBits ↔ Representable buf prefixBits) ∧
      (Exact H3.qpackDecodeInt buf prefixBits ↔ Representable buf prefixBits) := by
  have both : Exact hpackDecodeInt buf prefixBits ↔ Representable buf prefixBits := by
    have reads := reads buf prefixBits
    constructor
    · intro exact value rest denoted
      obtain ⟨result, consumed, read, total, word, _⟩ := reads.some value rest denoted
      obtain ⟨few, others, same, _⟩ := exact result consumed read
      rw [denoted] at same
      cases same
      exact ⟨word, by omega⟩
    · intro representable value consumed read
      cases isDenoted : H3.Reference.integer prefixBits buf with
      | none =>
        rw [reads.none isDenoted] at read
        cases read
      | some denoted =>
        obtain ⟨result, others, readToo, total, _, same⟩ := reads.some _ _ isDenoted
        rw [read] at readToo
        cases readToo
        obtain ⟨small, few⟩ := representable _ _ isDenoted
        have fits : consumed ≤ maxOctets := by omega
        rw [same fits, Nat.mod_eq_of_lt small]
        exact ⟨fits, denoted.2, rfl, total⟩
  exact ⟨both, both⟩

/-- The integer 2^64 + 31, with a prefix of five bits. -/
def wrapping : Bytes := [0x1F, 0x80, 0x80, 0x80, 0x80, 0x80, 0x80, 0x80, 0x80, 0x80, 0x02]

theorem not_exact_wrapping :
    hpackDecodeInt wrapping 5 = some (31, 11) ∧
      H3.Reference.integer 5 wrapping = some (2 ^ 64 + 31, []) ∧
      ¬ Exact hpackDecodeInt wrapping 5 ∧ ¬ Exact H3.qpackDecodeInt wrapping 5 := by
  have read : hpackDecodeInt wrapping 5 = some (31, 11) := by decide
  have denoted : H3.Reference.integer 5 wrapping = some (2 ^ 64 + 31, []) := by decide
  have both : ¬ Exact hpackDecodeInt wrapping 5 := by
    intro exact
    obtain ⟨_, rest, same, _⟩ := exact 31 11 read
    rw [denoted] at same
    cases same
  exact ⟨read, denoted, both, both⟩

end AsyncNet.Http.H2
