/-
This file is about `sha1_detail::compute` of `http/websocket.hpp`, the digest in the handshake of a
WebSocket. The message is padded byte by byte, and a loop goes over the chunks of 64 bytes with
one array of 80 words for each. The content here is that it is SHA-1 as FIPS 180-4 has it for a
message of bytes: the padding with the fewest zeros, the words of the schedule by their recurrence,
and the functions `Ch`, `Parity` and `Maj`.
-/

import AsyncNet.Http.Base64
import AsyncNet.Http.Http1Server
import AsyncNet.Http.Websocket
import Mathlib.Data.List.Range

namespace AsyncNet.Http.Sha1

open H2 Http1

/-! ### The code -/

def leftRotate (value bits : UInt32) : UInt32 := value <<< bits ||| value >>> (32 - bits)

/-- `h0` to `h4`, and `a` to `e`. -/
structure State where
  a : UInt32
  b : UInt32
  c : UInt32
  d : UInt32
  e : UInt32
  deriving DecidableEq, Repr

def State.initial : State := ⟨0x67452301, 0xEFCDAB89, 0x98BADCFE, 0x10325476, 0xC3D2E1F0⟩

/-- The loop that pushes zeros. -/
def pushZeros (msg : Bytes) : Bytes :=
  if msg.length % 64 ≠ 56 then pushZeros (msg ++ [0x00]) else msg
termination_by (120 - msg.length % 64) % 64
decreasing_by
  rw [List.length_append, List.length_singleton]
  omega

/-- The message with its padding. The length in bits is a `uint64_t`. -/
def preprocess (input : Bytes) : Bytes :=
  pushZeros (input ++ [0x80]) ++ Ws.putUint64 (input.length * 8 % 2 ^ 64)

/-- `w[i]` for the first sixteen words of the chunk. -/
def chunkWord (msg : Bytes) (offset i : Nat) : UInt32 :=
  (msg.getD (offset + i * 4) 0).toUInt32 <<< 24 |||
    (msg.getD (offset + i * 4 + 1) 0).toUInt32 <<< 16 |||
    (msg.getD (offset + i * 4 + 2) 0).toUInt32 <<< 8 |||
    (msg.getD (offset + i * 4 + 3) 0).toUInt32

/-- The loop that computes the other words, each from words that are there. -/
def extend : Nat → List UInt32 → List UInt32
  | 0, w => w
  | count + 1, w =>
      let i := w.length
      extend count (w ++ [leftRotate (w.getD (i - 3) 0 ^^^ w.getD (i - 8) 0 ^^^
        w.getD (i - 14) 0 ^^^ w.getD (i - 16) 0) 1])

def words (msg : Bytes) (offset : Nat) : List UInt32 :=
  extend 64 ((List.range 16).map (chunkWord msg offset))

/-- The body of the loop of 80 rounds. -/
def round (w : List UInt32) (state : State) (i : Nat) : State :=
  let ⟨a, b, c, d, e⟩ := state
  let (f, k) : UInt32 × UInt32 :=
    if i < 20 then (b &&& c ||| ~~~b &&& d, 0x5A827999)
    else if i < 40 then (b ^^^ c ^^^ d, 0x6ED9EBA1)
    else if i < 60 then (b &&& c ||| b &&& d ||| c &&& d, 0x8F1BBCDC)
    else (b ^^^ c ^^^ d, 0xCA62C1D6)
  let temp := leftRotate a 5 + f + e + k + w.getD i 0
  ⟨temp, a, leftRotate b 30, c, d⟩

/-- `h0 += a`, and so on. -/
def State.add (state next : State) : State :=
  ⟨state.a + next.a, state.b + next.b, state.c + next.c, state.d + next.d, state.e + next.e⟩

/-- The loop over the chunks, from an offset on. -/
def processFrom (msg : Bytes) (offset : Nat) (state : State) : State :=
  if offset < msg.length then
    processFrom msg (offset + 64)
      (state.add ((List.range 80).foldl (round (words msg offset)) state))
  else state
termination_by msg.length - offset

/-- `store32`. -/
def store32 (result : Bytes) (offset : Nat) (value : UInt32) : Bytes :=
  (((result.set offset (value >>> 24 &&& 0xFF).toUInt8).set (offset + 1)
    (value >>> 16 &&& 0xFF).toUInt8).set (offset + 2) (value >>> 8 &&& 0xFF).toUInt8).set
      (offset + 3) (value &&& 0xFF).toUInt8

def compute (input : Bytes) : Bytes :=
  let state := processFrom (preprocess input) 0 .initial
  store32 (store32 (store32 (store32 (store32 (List.replicate 20 0) 0 state.a) 4 state.b) 8
    state.c) 12 state.d) 16 state.e

/-- `kWsGuid`. -/
def wsGuid : Bytes := ascii "258EAFA5-E914-47DA-95CA-C5AB0DC85B11"

def computeAcceptKey (key : Bytes) : Bytes := Base64.encode (compute (key ++ wsGuid))

/-! ### The standard -/

namespace Standard

/-- `ROTL`. -/
def rotl (count : Nat) (x : UInt32) : UInt32 := ⟨x.toBitVec.rotateLeft count⟩

def ch (x y z : UInt32) : UInt32 := (x &&& y) ^^^ (~~~x &&& z)
def parity (x y z : UInt32) : UInt32 := x ^^^ y ^^^ z
def maj (x y z : UInt32) : UInt32 := (x &&& y) ^^^ (x &&& z) ^^^ (y &&& z)

/-- The function and the constant of a round. -/
def f (t : Nat) : UInt32 → UInt32 → UInt32 → UInt32 :=
  if t ≤ 19 then ch else if t ≤ 39 then parity else if t ≤ 59 then maj else parity

def constant (t : Nat) : UInt32 :=
  if t ≤ 19 then 0x5A827999 else if t ≤ 39 then 0x6ED9EBA1 else if t ≤ 59 then 0x8F1BBCDC
  else 0xCA62C1D6

/-- The fewest zeros after a message and the byte `0x80` that leave 64 bits of a block. -/
def zeros (length : Nat) : Nat := (119 - length % 64) % 64

/-- The message, the bit 1, zeros, and the length in bits. -/
def padded (message : Bytes) : Bytes :=
  message ++ [0x80] ++ List.replicate (zeros message.length) 0 ++ Ws.putUint64 (8 * message.length)

/-- The number that big-endian bytes stand for. -/
def bigEndian (bytes : Bytes) : Nat := bytes.foldl (fun value byte => value * 256 + byte.toNat) 0

/-- A word of a block. -/
def blockWord (data : Bytes) (block t : Nat) : UInt32 :=
  UInt32.ofNat (bigEndian ((data.drop (64 * block + 4 * t)).take 4))

/-- The words of the schedule by their recurrence. -/
def schedule (block : Nat → UInt32) (t : Nat) : UInt32 :=
  if t < 16 then block t
  else rotl 1 (schedule block (t - 3) ^^^ schedule block (t - 8) ^^^ schedule block (t - 14) ^^^
    schedule block (t - 16))
termination_by t

/-- The working variables after so many rounds. -/
def rounds (w : Nat → UInt32) (state : State) : Nat → State
  | 0 => state
  | t + 1 =>
      let ⟨a, b, c, d, e⟩ := rounds w state t
      ⟨rotl 5 a + f t b c d + e + constant t + w t, a, rotl 30 b, c, d⟩

/-- The hash value after so many blocks. -/
def hash (data : Bytes) : Nat → State
  | 0 => .initial
  | block + 1 =>
      (hash data block).add (rounds (schedule (blockWord data block)) (hash data block) 80)

def digest (state : State) : Bytes :=
  [state.a, state.b, state.c, state.d, state.e].flatMap fun word => putUint32 word.toNat

def sha1 (message : Bytes) : Bytes :=
  let data := padded message
  digest (hash data (data.length / 64))

end Standard

open Standard

/-! ### Words -/

theorem leftRotate_eq (x : UInt32) {count : Nat} (some : 0 < count) (few : count < 32) :
    leftRotate x (UInt32.ofNat count) = rotl count x := by
  have left : ((UInt32.ofNat count).toBitVec % 32).toNat = count := by
    simp
    omega
  have right : ((32 - UInt32.ofNat count).toBitVec % 32).toNat = 32 - count := by
    simp
    omega
  apply UInt32.toBitVec_inj.mp
  rw [leftRotate, rotl, BitVec.rotateLeft_def, Nat.mod_eq_of_lt few, UInt32.toBitVec_or,
    UInt32.toBitVec_shiftLeft, UInt32.toBitVec_shiftRight, BitVec.shiftLeft_eq',
    BitVec.ushiftRight_eq', left, right]

theorem or_eq_ch (b c d : UInt32) : b &&& c ||| ~~~b &&& d = ch b c d := by
  apply UInt32.toBitVec_inj.mp
  ext bit
  simp only [ch, UInt32.toBitVec_or, UInt32.toBitVec_and, UInt32.toBitVec_xor, UInt32.toBitVec_not,
    BitVec.getElem_or, BitVec.getElem_and, BitVec.getElem_xor, BitVec.getElem_not]
  cases b.toBitVec[bit] <;> simp

theorem or_eq_maj (b c d : UInt32) : b &&& c ||| b &&& d ||| c &&& d = maj b c d := by
  apply UInt32.toBitVec_inj.mp
  ext bit
  simp only [maj, UInt32.toBitVec_or, UInt32.toBitVec_and, UInt32.toBitVec_xor,
    BitVec.getElem_or, BitVec.getElem_and, BitVec.getElem_xor]
  cases b.toBitVec[bit] <;> cases c.toBitVec[bit] <;> simp

/-- Four bytes, shifted to their places, are the number that they stand for. -/
theorem shifted_eq (p q r s : UInt8) :
    p.toUInt32 <<< 24 ||| q.toUInt32 <<< 16 ||| r.toUInt32 <<< 8 ||| s.toUInt32 =
      UInt32.ofNat (bigEndian [p, q, r, s]) := by
  have smallP := p.toNat_lt
  have smallQ := q.toNat_lt
  have smallR := r.toNat_lt
  have smallS := s.toNat_lt
  have last : r.toNat <<< 8 ||| s.toNat = r.toNat <<< 8 + s.toNat :=
    (Nat.shiftLeft_add_eq_or_of_lt smallS _).symm
  have later : q.toNat <<< 16 ||| (r.toNat <<< 8 + s.toNat) =
      q.toNat <<< 16 + (r.toNat <<< 8 + s.toNat) :=
    (Nat.shiftLeft_add_eq_or_of_lt (by omega) _).symm
  have all : p.toNat <<< 24 ||| (q.toNat <<< 16 + (r.toNat <<< 8 + s.toNat)) =
      p.toNat <<< 24 + (q.toNat <<< 16 + (r.toNat <<< 8 + s.toNat)) :=
    (Nat.shiftLeft_add_eq_or_of_lt (by omega) _).symm
  have shifted (byte : UInt8) {shift : Nat} (few : shift ≤ 24) :
      (byte.toUInt32 <<< UInt32.ofNat shift).toNat = byte.toNat <<< shift := by
    have small : byte.toNat * 2 ^ shift < 2 ^ 8 * 2 ^ 24 :=
      Nat.mul_lt_mul_of_lt_of_le byte.toNat_lt (Nat.pow_le_pow_right Nat.two_pos few)
        (Nat.two_pow_pos 24)
    rw [UInt32.toNat_shiftLeft, UInt8.toNat_toUInt32,
      UInt32.toNat_ofNat_of_lt' (Nat.lt_of_le_of_lt few (by decide)),
      Nat.mod_eq_of_lt (show shift < 32 by omega), Nat.shiftLeft_eq]
    exact Nat.mod_eq_of_lt small
  have first : (p.toUInt32 <<< 24).toNat = p.toNat <<< 24 := shifted p (by decide)
  have second : (q.toUInt32 <<< 16).toNat = q.toNat <<< 16 := shifted q (by decide)
  have third : (r.toUInt32 <<< 8).toNat = r.toNat <<< 8 := shifted r (by decide)
  apply UInt32.toNat_inj.mp
  rw [UInt32.toNat_or, UInt32.toNat_or, UInt32.toNat_or, first, second, third,
    UInt8.toNat_toUInt32, Nat.or_assoc, Nat.or_assoc, last, later, all, UInt32.toNat_ofNat']
  simp only [Nat.shiftLeft_eq, bigEndian, List.foldl_cons, List.foldl_nil]
  omega

theorem chunkWord_eq {msg : Bytes} {block t : Nat} (within : 64 * block + 4 * t + 4 ≤ msg.length) :
    chunkWord msg (64 * block) t = blockWord msg block t := by
  have four : (msg.drop (64 * block + 4 * t)).take 4 =
      [msg.getD (64 * block + 4 * t) 0, msg.getD (64 * block + 4 * t + 1) 0,
        msg.getD (64 * block + 4 * t + 2) 0, msg.getD (64 * block + 4 * t + 3) 0] := by
    rw [List.drop_eq_getElem_cons (by omega), List.drop_eq_getElem_cons (by omega),
      List.drop_eq_getElem_cons (by omega), List.drop_eq_getElem_cons (by omega),
      List.getD_eq_getElem _ _ (by omega), List.getD_eq_getElem _ _ (by omega),
      List.getD_eq_getElem _ _ (by omega), List.getD_eq_getElem _ _ (by omega)]
    rfl
  rw [chunkWord, blockWord, four, shifted_eq, Nat.mul_comm t 4]

/-- The bytes that `store32` writes. -/
theorem toUInt8_and (value : UInt32) {shift : Nat} (few : shift < 32) :
    (value >>> UInt32.ofNat shift &&& 0xFF).toUInt8 = byteAt value.toNat shift := by
  apply UInt8.toNat_inj.mp
  rw [byteAt, UInt8.toNat_ofNat', UInt32.toNat_toUInt8, UInt32.toNat_and, UInt32.toNat_shiftRight,
    UInt32.toNat_ofNat_of_lt' (few.trans_le (by decide)), Nat.mod_eq_of_lt few]
  exact (congrArg (· % 256) (Nat.and_two_pow_sub_one_eq_mod _ 8)).trans (Nat.mod_mod _ _)

/-! ### A chunk -/

theorem getD_schedule (block : Nat → UInt32) {i n : Nat} (within : i < n) :
    ((List.range n).map (schedule block)).getD i 0 = schedule block i := by
  rw [List.getD_eq_getElem?_getD, List.getElem?_map, List.getElem?_range within]
  rfl

theorem extend_schedule (block : Nat → UInt32) (count : Nat) {n : Nat} (sixteen : 16 ≤ n) :
    extend count ((List.range n).map (schedule block)) =
      (List.range (n + count)).map (schedule block) := by
  induction count generalizing n with
  | zero => rfl
  | succ count inductionHypothesis =>
    have next : schedule block n = leftRotate (schedule block (n - 3) ^^^ schedule block (n - 8) ^^^
        schedule block (n - 14) ^^^ schedule block (n - 16)) 1 := by
      rw [schedule, if_neg (Nat.not_lt.mpr sixteen)]
      exact (leftRotate_eq _ Nat.one_pos (by decide)).symm
    unfold extend
    dsimp only
    rw [List.length_map, List.length_range, getD_schedule block (by omega),
      getD_schedule block (by omega), getD_schedule block (by omega),
      getD_schedule block (by omega), ← next]
    have grown := inductionHypothesis (Nat.le_succ_of_le sixteen)
    rw [List.range_succ, List.map_append, List.map_singleton, Nat.succ_add_eq_add_succ] at grown
    exact grown

theorem words_eq {msg : Bytes} {block : Nat} (within : 64 * block + 64 ≤ msg.length) :
    words msg (64 * block) = (List.range 80).map (schedule (blockWord msg block)) := by
  have first : (List.range 16).map (chunkWord msg (64 * block)) =
      (List.range 16).map (schedule (blockWord msg block)) := by
    refine List.map_congr_left fun t member => ?_
    have few := List.mem_range.mp member
    rw [schedule, if_pos few]
    exact chunkWord_eq (by omega)
  rw [words, first]
  exact extend_schedule _ 64 le_rfl

theorem round_eq (w : List UInt32) (state : State) (t : Nat) :
    round w state t =
      ⟨rotl 5 state.a + f t state.b state.c state.d + state.e + constant t + w.getD t 0, state.a,
        rotl 30 state.b, state.c, state.d⟩ := by
  have first : (t < 20) = (t ≤ 19) := propext Nat.lt_succ_iff
  have second : (t < 40) = (t ≤ 39) := propext Nat.lt_succ_iff
  have third : (t < 60) = (t ≤ 59) := propext Nat.lt_succ_iff
  have five : leftRotate state.a 5 = rotl 5 state.a := leftRotate_eq _ (by decide) (by decide)
  have thirty : leftRotate state.b 30 = rotl 30 state.b := leftRotate_eq _ (by decide) (by decide)
  unfold round f constant
  dsimp only
  simp only [first, second, third]
  rw [five, thirty, or_eq_ch, or_eq_maj]
  split
  · rfl
  · split
    · rfl
    · split <;> rfl

theorem foldl_round (block : Nat → UInt32) (state : State) {n : Nat} (within : n ≤ 80) :
    (List.range n).foldl (round ((List.range 80).map (schedule block))) state =
      rounds (schedule block) state n := by
  induction n with
  | zero => rfl
  | succ n inductionHypothesis =>
    rw [@List.range_succ n, List.foldl_append, List.foldl_cons, List.foldl_nil,
      inductionHypothesis (Nat.le_of_succ_le within), round_eq, getD_schedule block within]
    rfl

/-! ### All chunks -/

theorem processFrom_eq {msg : Bytes} {count : Nat} (whole : msg.length = 64 * count) (block : Nat)
    (within : block ≤ count) :
    processFrom msg (64 * block) (hash msg block) = hash msg count := by
  induction left : count - block generalizing block with
  | zero =>
    obtain rfl : block = count := by omega
    rw [processFrom, if_neg (by omega)]
  | succ left inductionHypothesis =>
    rw [processFrom, if_pos (by omega), words_eq (by omega), foldl_round _ _ le_rfl]
    exact inductionHypothesis (block + 1) (by omega) (by omega)

/-! ### The padding -/

theorem zeros_fill (length : Nat) :
    (length + 1 + zeros length) % 64 = 56 ∧ zeros length < 64 := by
  unfold zeros
  omega

/-- Zeros are pushed as long as there are too few. -/
theorem pushZeros_eq (count : Nat) (msg : Bytes) (fill : (msg.length + count) % 64 = 56)
    (few : count < 64) : pushZeros msg = msg ++ List.replicate count 0 := by
  induction count generalizing msg with
  | zero =>
    rw [Nat.add_zero] at fill
    rw [pushZeros, if_neg (not_not_intro fill), List.replicate_zero, List.append_nil]
  | succ count inductionHypothesis =>
    rw [pushZeros, if_pos (by omega), inductionHypothesis (msg ++ [0])
      (by rw [List.length_append, List.length_singleton]; omega) (by omega), List.append_assoc]
    rfl

theorem preprocess_eq {input : Bytes} (fits : input.length < 2 ^ 61) :
    preprocess input = padded input := by
  obtain ⟨fill, few⟩ := zeros_fill input.length
  have pushed := pushZeros_eq (zeros input.length) (input ++ [0x80])
    (by rw [List.length_append, List.length_singleton]; exact fill) few
  rw [preprocess, padded, pushed, Nat.mod_eq_of_lt (by omega), Nat.mul_comm]

theorem length_padded (message : Bytes) :
    (padded message).length = 64 * ((padded message).length / 64) := by
  have fill := (zeros_fill message.length).1
  have total : (padded message).length = message.length + 1 + zeros message.length + 8 := by
    unfold padded
    simp only [List.length_append, List.length_singleton, List.length_replicate]
    rfl
  omega

/-! ### The digest -/

theorem store_digest (state : State) :
    store32 (store32 (store32 (store32 (store32 (List.replicate 20 0) 0 state.a) 4 state.b) 8
      state.c) 12 state.d) 16 state.e = digest state := by
  have bytes (value : UInt32) : putUint32 value.toNat =
      [(value >>> 24 &&& 0xFF).toUInt8, (value >>> 16 &&& 0xFF).toUInt8,
        (value >>> 8 &&& 0xFF).toUInt8, (value &&& 0xFF).toUInt8] := by
    have last : (value &&& 0xFF).toUInt8 = byteAt value.toNat 0 := by
      rw [← toUInt8_and value (by decide)]
      exact congrArg (fun word => (word &&& 0xFF).toUInt8) (UInt32.shiftRight_zero).symm
    rw [putUint32, last, ← toUInt8_and value (by decide), ← toUInt8_and value (by decide),
      ← toUInt8_and value (by decide)]
    rfl
  unfold digest store32
  simp only [List.flatMap_cons, List.flatMap_nil, bytes, List.replicate_succ, List.replicate_zero,
    List.set_cons_zero, List.set_cons_succ, List.cons_append, List.nil_append, List.append_nil,
    Nat.reduceAdd]

theorem length_digest (state : State) : (digest state).length = 20 := rfl

/-- `compute` is SHA-1 of every message whose length in bits fits 64 bits. -/
theorem compute_eq_sha1 (input : Bytes) (fits : input.length < 2 ^ 61) :
    compute input = sha1 input := by
  have whole := length_padded input
  have processed := processFrom_eq whole 0 (Nat.zero_le _)
  unfold compute
  rw [preprocess_eq fits]
  dsimp only
  rw [store_digest]
  exact congrArg digest processed

example : compute (ascii "abc") =
    [0xA9, 0x99, 0x3E, 0x36, 0x47, 0x06, 0x81, 0x6A, 0xBA, 0x3E, 0x25, 0x71, 0x78, 0x50, 0xC2, 0x6C,
      0x9C, 0xD0, 0xD8, 0x9D] := by decide +kernel

/-! ### The handshake -/

/-- What a server answers to the key of a client is in Base64 the SHA-1 of the key and the GUID. -/
theorem handshake_accepts (ctx : Http1.ServerContext) {req : Request} {key : Bytes}
    (sent : req.hdrs.get (ascii "Sec-WebSocket-Key") = some key)
    (fits : key.length + 36 < 2 ^ 61) :
    ∃ accept, { ctx with computeAcceptKey }.buildHandshakeResponse req =
        ascii "HTTP/1.1 101 Switching Protocols\r\nUpgrade: websocket\r\nConnection: Upgrade\r\n" ++
          ascii "Sec-WebSocket-Accept: " ++ accept ++ crlf ++ crlf ∧
      Base64.decode accept = some (sha1 (key ++ wsGuid)) ∧ accept.length = 28 := by
  have digested : compute (key ++ wsGuid) = sha1 (key ++ wsGuid) :=
    compute_eq_sha1 _ (List.length_append.trans_lt fits)
  have groups : computeAcceptKey key = Base64.groups (sha1 (key ++ wsGuid)) := by
    rw [computeAcceptKey, digested]
    exact Base64.encodeFrom_eq [] _
  refine ⟨Base64.groups (sha1 (key ++ wsGuid)), ?_, Base64.decode_groups _, ?_⟩
  · rw [Http1.ServerContext.buildHandshakeResponse, sent, ← groups]
  · rw [Base64.length_groups, sha1, length_digest]

/-- The key of the example in RFC 6455. -/
theorem handshake_accepts_sample :
    ∃ accept, ({ computeAcceptKey } : Http1.ServerContext).buildHandshakeResponse
        { hdrs := [(ascii "Sec-WebSocket-Key", ascii "dGhlIHNhbXBsZSBub25jZQ==")] } =
        ascii "HTTP/1.1 101 Switching Protocols\r\nUpgrade: websocket\r\nConnection: Upgrade\r\n" ++
          ascii "Sec-WebSocket-Accept: " ++ accept ++ crlf ++ crlf ∧
      Base64.decode accept = some (sha1 (ascii "dGhlIHNhbXBsZSBub25jZQ==" ++ wsGuid)) ∧
        accept.length = 28 :=
  handshake_accepts {} rfl (by decide)

end AsyncNet.Http.Sha1
