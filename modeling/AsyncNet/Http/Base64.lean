/-
This file is about `base64_detail::encode` of `http/websocket.hpp`, which the handshake of a
WebSocket ends with. The loop takes three bytes at a time as a number of 24 bits. The content here
is that it writes the groups of RFC 4648: a strict decoder gives the bytes back, and the padding
stands only behind a final group that is short.
-/

import AsyncNet.Http.Types
import Mathlib.Algebra.Group.Nat.Defs
import Mathlib.Data.List.GetD

namespace AsyncNet.Http.Base64

/-! ### The loop -/

def table : Bytes := ascii "ABCDEFGHIJKLMNOPQRSTUVWXYZabcdefghijklmnopqrstuvwxyz0123456789+/"

/-- `'='` -/
def pad : UInt8 := 61

/-- `table[(triple >> shift) & 0x3F]` -/
def character (triple shift : Nat) : UInt8 := table.getD (triple >>> shift &&& 0x3F) 0

/-- The loop of `encode` from an index on. -/
def encodeFrom (input : Bytes) (i : Nat) : Bytes :=
  if i < input.length then
    let a := (input.getD i 0).toNat
    let b := if i + 1 < input.length then (input.getD (i + 1) 0).toNat else 0
    let c := if i + 2 < input.length then (input.getD (i + 2) 0).toNat else 0
    let triple := a <<< 16 ||| b <<< 8 ||| c
    character triple 18 :: character triple 12 ::
      (if i + 1 < input.length then character triple 6 else pad) ::
      (if i + 2 < input.length then character triple 0 else pad) :: encodeFrom input (i + 3)
  else []
termination_by input.length - i

def encode (input : Bytes) : Bytes := encodeFrom input 0

/-! ### The standard -/

/-- The value of a character of the alphabet of RFC 4648. -/
def sextet (char : UInt8) : Option Nat :=
  if 65 ≤ char ∧ char ≤ 90 then some (char.toNat - 65)
  else if 97 ≤ char ∧ char ≤ 122 then some (char.toNat - 97 + 26)
  else if 48 ≤ char ∧ char ≤ 57 then some (char.toNat - 48 + 52)
  else if char = 43 then some 62
  else if char = 47 then some 63
  else none

/-- The octets of a full group of sextets. -/
def firstOctet (w x : Nat) : UInt8 := UInt8.ofNat (w * 4 + x / 16)
def secondOctet (x y : Nat) : UInt8 := UInt8.ofNat (x % 16 * 16 + y / 4)
def thirdOctet (y z : Nat) : UInt8 := UInt8.ofNat (y % 4 * 64 + z)

/-- A strict decoder of RFC 4648: padding is there exactly behind a short final group, whose unused
bits are zero, and no character is outside of the alphabet. -/
def decode : Bytes → Option Bytes
  | [] => some []
  | w :: x :: y :: z :: rest =>
      if z = pad then
        if rest ≠ [] then none
        else if y = pad then do
          let w ← sextet w
          let x ← sextet x
          if x % 16 = 0 then some [firstOctet w x] else none
        else do
          let w ← sextet w
          let x ← sextet x
          let y ← sextet y
          if y % 4 = 0 then some [firstOctet w x, secondOctet x y] else none
      else do
        let w ← sextet w
        let x ← sextet x
        let y ← sextet y
        let z ← sextet z
        let rest ← decode rest
        some (firstOctet w x :: secondOctet x y :: thirdOctet y z :: rest)
  | _ => none

/-- The character of a sextet. -/
def letter (value : Nat) : UInt8 := table.getD value 0

/-- The groups of an encoding, by the sextets of each of them. -/
def groups : Bytes → Bytes
  | [] => []
  | [a] => [letter (a.toNat / 4), letter (a.toNat % 4 * 16), pad, pad]
  | [a, b] =>
      [letter (a.toNat / 4), letter (a.toNat % 4 * 16 + b.toNat / 16), letter (b.toNat % 16 * 4),
        pad]
  | a :: b :: c :: rest =>
      letter (a.toNat / 4) :: letter (a.toNat % 4 * 16 + b.toNat / 16) ::
        letter (b.toNat % 16 * 4 + c.toNat / 64) :: letter (c.toNat % 64) :: groups rest

/-! ### The loop writes the groups -/

theorem triple_eq (a b c : UInt8) :
    a.toNat <<< 16 ||| b.toNat <<< 8 ||| c.toNat =
      a.toNat * 65536 + b.toNat * 256 + c.toNat := by
  have low : b.toNat <<< 8 < 2 ^ 16 := by
    have small := b.toNat_lt
    rw [Nat.shiftLeft_eq]
    omega
  have whole : a.toNat <<< 16 ||| b.toNat <<< 8 = (a.toNat * 256 + b.toNat) <<< 8 := by
    rw [← Nat.shiftLeft_add_eq_or_of_lt low, Nat.shiftLeft_eq, Nat.shiftLeft_eq, Nat.shiftLeft_eq]
    omega
  rw [whole, ← Nat.shiftLeft_add_eq_or_of_lt c.toNat_lt, Nat.shiftLeft_eq]
  omega

theorem character_eq (triple shift : Nat) :
    character triple shift = letter (triple / 2 ^ shift % 64) := by
  unfold character letter
  rw [Nat.shiftRight_eq_div_pow]
  exact congrArg (table.getD · 0) (Nat.and_two_pow_sub_one_eq_mod _ 6)

/-- The four sextets of three octets. -/
theorem characters (a b c : UInt8) :
    let triple := a.toNat <<< 16 ||| b.toNat <<< 8 ||| c.toNat
    character triple 18 = letter (a.toNat / 4) ∧
      character triple 12 = letter (a.toNat % 4 * 16 + b.toNat / 16) ∧
      character triple 6 = letter (b.toNat % 16 * 4 + c.toNat / 64) ∧
      character triple 0 = letter (c.toNat % 64) := by
  have a_lt := a.toNat_lt
  have b_lt := b.toNat_lt
  have c_lt := c.toNat_lt
  dsimp only
  rw [triple_eq]
  simp only [character_eq]
  refine ⟨?_, ?_, ?_, ?_⟩ <;> refine congrArg letter ?_ <;> omega

theorem encodeFrom_end {input : Bytes} {i : Nat} (ended : input.length ≤ i) :
    encodeFrom input i = [] := by
  rw [encodeFrom, if_neg (Nat.not_lt.mpr ended)]

theorem getD_behind (front rest : Bytes) (i : Nat) :
    (front ++ rest).getD (front.length + i) 0 = rest.getD i 0 := by
  rw [List.getD_append_right _ _ _ _ (Nat.le_add_right _ _), Nat.add_sub_cancel_left]

/-- A byte that is not there counts as zero. -/
theorem getD_inside (input : Bytes) (i : Nat) :
    (if i < input.length then (input.getD i 0).toNat else 0) = (input.getD i 0).toNat := by
  split
  · rfl
  · rename_i outside
    rw [List.getD_eq_default _ _ (Nat.not_lt.mp outside)]
    rfl

/-- One iteration, on the bytes from the index on. -/
theorem encodeFrom_group (front : Bytes) (a : UInt8) (rest : Bytes) :
    let b := (rest.getD 0 0).toNat
    let c := (rest.getD 1 0).toNat
    encodeFrom (front ++ a :: rest) front.length =
      letter (a.toNat / 4) :: letter (a.toNat % 4 * 16 + b / 16) ::
        (if 0 < rest.length then letter (b % 16 * 4 + c / 64) else pad) ::
        (if 1 < rest.length then letter (c % 64) else pad) ::
        encodeFrom (front ++ a :: rest) (front.length + 3) := by
  have byte (i : Nat) : (front ++ a :: rest).getD (front.length + i) 0 = (a :: rest).getD i 0 :=
    getD_behind front (a :: rest) i
  have inside (i : Nat) : front.length + i < (front ++ a :: rest).length ↔ i < rest.length + 1 := by
    rw [List.length_append, List.length_cons]
    exact Nat.add_lt_add_iff_left
  have here : (front ++ a :: rest).getD front.length 0 = a := byte 0
  have some : front.length < (front ++ a :: rest).length := (inside 0).mpr (Nat.succ_pos _)
  have next : 1 < rest.length + 1 ↔ 0 < rest.length := Nat.succ_lt_succ_iff
  have last : 2 < rest.length + 1 ↔ 1 < rest.length := Nat.succ_lt_succ_iff
  obtain ⟨one, two, three, four⟩ := characters a (rest.getD 0 0) (rest.getD 1 0)
  dsimp only
  rw [encodeFrom, if_pos some]
  dsimp only
  rw [getD_inside, getD_inside, here, byte 1, byte 2, List.getD_cons_succ, List.getD_cons_succ,
    one, two, three, four]
  simp only [inside, next, last]

/-- From an index on the loop writes the groups of the bytes that are left. -/
theorem encodeFrom_eq (front rest : Bytes) :
    encodeFrom (front ++ rest) front.length = groups rest := by
  have ended (front last : Bytes) (short : last.length ≤ 3) :
      encodeFrom (front ++ last) (front.length + 3) = [] := by
    refine encodeFrom_end ?_
    rw [List.length_append]
    exact Nat.add_le_add_left short _
  induction rest using groups.induct generalizing front with
  | case1 =>
    rw [List.append_nil]
    exact encodeFrom_end le_rfl
  | case2 a =>
    rw [encodeFrom_group, ended front [a] (Nat.le_of_ble_eq_true rfl)]
    rfl
  | case3 a b =>
    have absent : ([b].getD 1 0).toNat = 0 := rfl
    rw [encodeFrom_group, ended front [a, b] (Nat.le_of_ble_eq_true rfl), absent, Nat.zero_div]
    rfl
  | case4 a b c rest inductionHypothesis =>
    have same : front ++ a :: b :: c :: rest = (front ++ [a, b, c]) ++ rest :=
      (List.append_assoc front [a, b, c] rest).symm
    have length : front.length + 3 = (front ++ [a, b, c]).length := by
      rw [List.length_append]
      rfl
    rw [encodeFrom_group, same, length, inductionHypothesis]
    rfl

/-! ### The groups -/

theorem sextet_letter {value : Nat} (small : value < 64) : sextet (letter value) = some value := by
  have all : ∀ value : Fin 64, sextet (letter value) = some value.val := by decide +kernel
  exact all ⟨value, small⟩

theorem letter_ne_pad {value : Nat} (small : value < 64) : letter value ≠ pad := by
  intro wrong
  have isValue := sextet_letter small
  rw [wrong] at isValue
  cases isValue

theorem length_groups (input : Bytes) : (groups input).length = 4 * ((input.length + 2) / 3) := by
  induction input using groups.induct with
  | case1 => rfl
  | case2 a =>
    rw [groups]
    simp only [List.length_cons, List.length_nil]
  | case3 a b =>
    rw [groups]
    simp only [List.length_cons, List.length_nil]
  | case4 a b c rest inductionHypothesis =>
    rw [groups]
    simp only [List.length_cons]
    rw [inductionHypothesis]
    omega

/-- The octets of a group come back from its sextets. -/
theorem octet_eq {value : Nat} {octet : UInt8} (same : value = octet.toNat) :
    UInt8.ofNat value = octet := by
  rw [same]
  exact UInt8.ofNat_toNat

/-- The decoder undoes each group: all but the last are full. -/
theorem decode_groups (input : Bytes) : decode (groups input) = some input := by
  induction input using groups.induct with
  | case1 => rfl
  | case2 a =>
    have a_lt := a.toNat_lt
    have one : firstOctet (a.toNat / 4) (a.toNat % 4 * 16) = a := octet_eq (by omega)
    have isOne := sextet_letter (show a.toNat / 4 < 64 by omega)
    have isTwo := sextet_letter (show a.toNat % 4 * 16 < 64 by omega)
    have unused : a.toNat % 4 * 16 % 16 = 0 := Nat.mul_mod_left _ 16
    rw [groups, decode, if_pos rfl, if_neg (fun wrong => wrong rfl), if_pos rfl, isOne, isTwo]
    show (if _ then some [firstOctet _ _] else none) = _
    rw [if_pos unused, one]
  | case3 a b =>
    have a_lt := a.toNat_lt
    have b_lt := b.toNat_lt
    have one : firstOctet (a.toNat / 4) (a.toNat % 4 * 16 + b.toNat / 16) = a := octet_eq (by omega)
    have two : secondOctet (a.toNat % 4 * 16 + b.toNat / 16) (b.toNat % 16 * 4) = b :=
      octet_eq (by omega)
    have isOne := sextet_letter (show a.toNat / 4 < 64 by omega)
    have isTwo := sextet_letter (show a.toNat % 4 * 16 + b.toNat / 16 < 64 by omega)
    have third_lt : b.toNat % 16 * 4 < 64 := by omega
    have unused : b.toNat % 16 * 4 % 4 = 0 := Nat.mul_mod_left _ 4
    rw [groups, decode, if_pos rfl, if_neg (fun wrong => wrong rfl),
      if_neg (letter_ne_pad third_lt), isOne, isTwo, sextet_letter third_lt]
    show (if _ then some [firstOctet _ _, secondOctet _ _] else none) = _
    rw [if_pos unused, one, two]
  | case4 a b c rest inductionHypothesis =>
    have a_lt := a.toNat_lt
    have b_lt := b.toNat_lt
    have c_lt := c.toNat_lt
    have one : firstOctet (a.toNat / 4) (a.toNat % 4 * 16 + b.toNat / 16) = a := octet_eq (by omega)
    have two :
        secondOctet (a.toNat % 4 * 16 + b.toNat / 16) (b.toNat % 16 * 4 + c.toNat / 64) = b :=
      octet_eq (by omega)
    have three : thirdOctet (b.toNat % 16 * 4 + c.toNat / 64) (c.toNat % 64) = c :=
      octet_eq (by omega)
    have isOne := sextet_letter (show a.toNat / 4 < 64 by omega)
    have isTwo := sextet_letter (show a.toNat % 4 * 16 + b.toNat / 16 < 64 by omega)
    have isThree := sextet_letter (show b.toNat % 16 * 4 + c.toNat / 64 < 64 by omega)
    have fourth_lt : c.toNat % 64 < 64 := Nat.mod_lt _ (Nat.succ_pos _)
    rw [groups, decode, if_neg (letter_ne_pad fourth_lt), isOne, isTwo, isThree,
      sextet_letter fourth_lt, inductionHypothesis]
    show some (firstOctet _ _ :: secondOctet _ _ :: thirdOctet _ _ :: rest) = _
    rw [one, two, three]

/-- The padding is what the final group falls short of three octets. -/
theorem padding_groups (input : Bytes) : ∃ digits, pad ∉ digits ∧
    groups input = digits ++ List.replicate ((3 - input.length % 3) % 3) pad := by
  have others {value : Nat} {digits : Bytes} (small : value < 64) (none : pad ∉ digits) :
      pad ∉ letter value :: digits :=
    List.not_mem_cons_of_ne_of_not_mem (letter_ne_pad small).symm none
  induction input using groups.induct with
  | case1 => exact ⟨[], List.not_mem_nil, rfl⟩
  | case2 a =>
    have a_lt := a.toNat_lt
    rw [groups]
    refine ⟨[letter (a.toNat / 4), letter (a.toNat % 4 * 16)], ?_, rfl⟩
    exact others (by omega) (others (by omega) List.not_mem_nil)
  | case3 a b =>
    have a_lt := a.toNat_lt
    have b_lt := b.toNat_lt
    rw [groups]
    refine ⟨[letter (a.toNat / 4), letter (a.toNat % 4 * 16 + b.toNat / 16),
      letter (b.toNat % 16 * 4)], ?_, rfl⟩
    exact others (by omega) (others (by omega) (others (by omega) List.not_mem_nil))
  | case4 a b c rest inductionHypothesis =>
    have a_lt := a.toNat_lt
    have b_lt := b.toNat_lt
    have c_lt := c.toNat_lt
    obtain ⟨digits, none, same⟩ := inductionHypothesis
    have length : (a :: b :: c :: rest).length % 3 = rest.length % 3 := Nat.add_mod_right _ 3
    rw [groups, length, same]
    refine ⟨letter (a.toNat / 4) :: letter (a.toNat % 4 * 16 + b.toNat / 16) ::
      letter (b.toNat % 16 * 4 + c.toNat / 64) :: letter (c.toNat % 64) :: digits, ?_, rfl⟩
    exact others (by omega) (others (by omega) (others (by omega) (others (by omega) none)))

/-- For every byte string the encoding has its length, a decoder gives the bytes back, and the
padding is what the final group falls short of three octets, with none before it. -/
theorem encode_decodes (input : Bytes) :
    (encode input).length = 4 * ((input.length + 2) / 3) ∧ decode (encode input) = some input ∧
      ∃ digits, pad ∉ digits ∧
        encode input = digits ++ List.replicate ((3 - input.length % 3) % 3) pad := by
  have same : encode input = groups input := encodeFrom_eq [] input
  rw [same]
  exact ⟨length_groups input, decode_groups input, padding_groups input⟩

end AsyncNet.Http.Base64
