/-
This file models `peer_message` of `p2p/peer.hpp`: a byte for the type, the length of the payload as
a `uint32_t`, and the payload. What is written is read back, whatever follows it in the buffer. The
test that all of the payload is there adds the five bytes of the header to the declared length in 32
bits. So it lets a datagram pass that declares one of the five largest lengths, and what it declares
is then read past its end.
-/

import AsyncNet.Http.Http2Wire
import AsyncNet.Library.Framing

namespace AsyncNet.P2p

open Http Http.H2 Library

/-! ### Messages -/

/-- `msg_type`. Every byte is a value of the enumeration, also one without a name. -/
structure MsgType where
  byte : UInt8
  deriving DecidableEq

namespace MsgType

def ping : MsgType := ⟨1⟩
def pong : MsgType := ⟨2⟩
def handshake : MsgType := ⟨3⟩
def data : MsgType := ⟨4⟩
def bye : MsgType := ⟨5⟩

end MsgType

/-- `peer_message`. -/
structure PeerMessage where
  type : MsgType
  payload : Bytes
  deriving DecidableEq

namespace PeerMessage

/-- `serialize`. -/
def serialize (message : PeerMessage) : Bytes :=
  [message.type.byte] ++ (putUint32 (message.payload.length % 2 ^ 32) ++ message.payload)

/-- `deserialize`. The sum is one of `uint32_t`, and the payload is copied from where the header
ends, also from behind the data. -/
def deserialize (data : Bytes) : Except Fault (Option PeerMessage) :=
  let plen := getUint32 data 1
  if data.length < 5 then .ok none
  else if data.length < (5 + plen) % 2 ^ 32 then .ok none
  else if data.length < 5 + plen then .error .outOfBounds
  else .ok (some { type := ⟨data.getD 0 0⟩, payload := (data.drop 5).take plen })

/-- `make_data`. -/
def makeData (text : Bytes) : PeerMessage := ⟨.data, text⟩

/-- `make_bye`. -/
def makeBye : PeerMessage := ⟨.bye, []⟩

/-! ### What is meant -/

/-- A buffer that holds a header and all of the payload that the header declares. -/
def Whole (buffer : Bytes) : Prop := 5 ≤ buffer.length ∧ 5 + getUint32 buffer 1 ≤ buffer.length

instance (buffer : Bytes) : Decidable (Whole buffer) :=
  inferInstanceAs (Decidable (5 ≤ buffer.length ∧ 5 + getUint32 buffer 1 ≤ buffer.length))

/-- A buffer with a header whose length lets the sum wrap. -/
def Wide (buffer : Bytes) : Prop := 5 ≤ buffer.length ∧ 2 ^ 32 - 5 ≤ getUint32 buffer 1

instance (buffer : Bytes) : Decidable (Wide buffer) :=
  inferInstanceAs (Decidable (5 ≤ buffer.length ∧ 2 ^ 32 - 5 ≤ getUint32 buffer 1))

/-- A buffer is refused unless it is whole, and then the payload of the message is exactly what the
header declares of the bytes behind it. Nothing is read outside of the buffer. -/
structure ReadsExactly (buffer : Bytes) : Prop where
  inside : deserialize buffer ≠ .error .outOfBounds
  message_iff : (∃ message, deserialize buffer = .ok (some message)) ↔ Whole buffer
  payload : ∀ message, deserialize buffer = .ok (some message) →
    message.payload.length = getUint32 buffer 1 ∧ message.payload <+: buffer.drop 5

/-! ### Round trip -/

theorem length_serialize (message : PeerMessage) :
    message.serialize.length = 5 + message.payload.length := by
  rw [serialize, List.length_append, List.length_append, ← Nat.add_assoc]
  rfl

theorem deserialize_serialize_append (message : PeerMessage) (rest : Bytes)
    (short : message.payload.length < 2 ^ 32) :
    deserialize (message.serialize ++ rest) = .ok (some message) := by
  have bytes : message.serialize ++ rest =
      [message.type.byte] ++ (putUint32 message.payload.length ++ (message.payload ++ rest)) := by
    rw [serialize, Nat.mod_eq_of_lt short, List.append_assoc, List.append_assoc]
  have declared : getUint32 (message.serialize ++ rest) 1 = message.payload.length := by
    rw [bytes]
    exact getUint32_append [message.type.byte] (message.payload ++ rest) _ short
  have length : (message.serialize ++ rest).length = 5 + message.payload.length + rest.length := by
    rw [List.length_append, length_serialize]
  have wraps : (5 + message.payload.length) % 2 ^ 32 ≤ 5 + message.payload.length :=
    Nat.mod_le _ _
  have payload : (message.serialize ++ rest).drop 5 = message.payload ++ rest := by
    rw [bytes]
    rfl
  unfold deserialize
  rw [declared, length, if_neg (by omega), if_neg (by omega), if_neg (by omega), payload,
    List.take_left, bytes]
  rfl

/-! ### Any buffer -/

variable (buffer : Bytes)

/-- The tests of the header decide whether the buffer is whole, unless the sum wraps. -/
theorem deserialize_eq :
    deserialize buffer =
      if Whole buffer then
        .ok (some ⟨⟨buffer.getD 0 0⟩, (buffer.drop 5).take (getUint32 buffer 1)⟩)
      else if Wide buffer then .error .outOfBounds else .ok none :=
  test_wrapping_sum (getUint32_lt buffer 1) (by decide) buffer.length _ _ _

theorem readsExactly_iff : ReadsExactly buffer ↔ (Wide buffer → Whole buffer) := by
  have reads := deserialize_eq buffer
  by_cases whole : Whole buffer
  · refine iff_of_true ?_ fun _ => whole
    rw [if_pos whole] at reads
    refine ⟨?_, iff_of_true ⟨_, reads⟩ whole, ?_⟩
    · rw [reads]
      exact fun wrong => by cases wrong
    · intro message found
      cases reads.symm.trans found
      have fits := whole.2
      refine ⟨?_, List.take_prefix _ _⟩
      rw [List.length_take, List.length_drop]
      omega
  · rw [if_neg whole] at reads
    by_cases wide : Wide buffer
    · rw [if_pos wide] at reads
      exact iff_of_false (fun exact => exact.inside reads) fun sound => whole (sound wide)
    · rw [if_neg wide] at reads
      refine iff_of_true ⟨?_, iff_of_false ?_ whole, ?_⟩ fun wide' => absurd wide' wide
      · rw [reads]
        exact fun wrong => by cases wrong
      · rintro ⟨message, found⟩
        cases reads.symm.trans found
      · intro message found
        cases reads.symm.trans found

/-- What is written is read back whatever follows it, and a buffer is read exactly if and only if it
does not declare one of the five largest lengths without holding all of it. -/
theorem roundTrip_and_readsExactly_iff (message : PeerMessage) (rest buffer : Bytes)
    (short : message.payload.length < 2 ^ 32) :
    deserialize (message.serialize ++ rest) = .ok (some message) ∧
      (ReadsExactly buffer ↔ (Wide buffer → Whole buffer)) :=
  ⟨deserialize_serialize_append message rest short, readsExactly_iff buffer⟩

/-- A message of two bytes, followed by another one, and a datagram that is cut off. -/
theorem roundTrip_and_readsExactly_two :
    deserialize ((makeData [72, 105]).serialize ++ makeBye.serialize) =
        .ok (some (makeData [72, 105])) ∧
      (ReadsExactly [4, 0, 0, 0, 2, 72] ↔
        (Wide [4, 0, 0, 0, 2, 72] → Whole [4, 0, 0, 0, 2, 72])) :=
  roundTrip_and_readsExactly_iff (makeData [72, 105]) makeBye.serialize [4, 0, 0, 0, 2, 72]
    (by decide)

/-- A datagram of five bytes that declares the largest length is read past its end. -/
theorem not_readsExactly_largest :
    deserialize [0x01, 0xFF, 0xFF, 0xFF, 0xFF] = .error .outOfBounds ∧
      ¬ Whole [0x01, 0xFF, 0xFF, 0xFF, 0xFF] ∧ ¬ ReadsExactly [0x01, 0xFF, 0xFF, 0xFF, 0xFF] := by
  have past : deserialize [0x01, 0xFF, 0xFF, 0xFF, 0xFF] = .error .outOfBounds := by
    decide +kernel
  exact ⟨past, by decide +kernel, fun exact => exact.inside past⟩

end PeerMessage

end AsyncNet.P2p
