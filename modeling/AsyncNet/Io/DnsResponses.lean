/-
This file is about `parse_dns_response_a` of `io/dns.cpp`. Every read is spelled out at its
position, and one outside of the buffer is a fault. The position is moved by labels, pointers
and lengths that come from the network. A step over a name may leave the buffer, and a test
follows it before the next read, so no packet leads to a fault, and a call that fails has not
touched the address.

On a response that is well formed the position comes to the end of each part in turn, and the
address is the data of the first answer that is an address of four bytes. Positions are natural
numbers: a packet is far below 2^63 bytes, and a step adds at most 2^16.
-/

import AsyncNet.Io.DnsQueries

namespace AsyncNet.Io.Dns

open Http

/-! ### Reads -/

inductive Fault where
  | outOfBounds
  deriving DecidableEq, Repr

/-- `data[off]` -/
def readByte (data : Bytes) (off : Nat) : Except Fault UInt8 :=
  match data[off]? with
  | none => .error .outOfBounds
  | some byte => .ok byte

def read16 (data : Bytes) (off : Nat) : Except Fault UInt16 := do
  let high ← readByte data off
  let low ← readByte data (off + 1)
  return high.toUInt16 <<< 8 ||| low.toUInt16

/-- `memcpy(&addr, data + pos, count)`: the bytes that are copied. -/
def copy (data : Bytes) (pos count : Nat) : Except Fault Bytes :=
  if pos + count ≤ data.length then .ok ((data.drop pos).take count) else .error .outOfBounds

/-! ### The parser -/

/-- `struct sockaddr_in` -/
structure SockaddrIn where
  family : UInt16 := 0
  port : UInt16 := 0
  addr : Bytes := List.replicate 4 0
  padding : Bytes := List.replicate 8 0
  deriving DecidableEq, Repr

/-- `AF_INET` -/
def afInet : UInt16 := 2

/-- The loop over the labels of a name, up to its zero or its pointer. -/
def skipName (data : Bytes) (pos : Nat) : Except Fault Nat :=
  if _inside : pos < data.length then
    match readByte data pos with
    | .error fault => .error fault
    | .ok labelLen =>
        if labelLen = 0 then .ok (pos + 1)
        else if labelLen &&& 0xC0 = 0xC0 then .ok (pos + 2)
        else skipName data (pos + 1 + labelLen.toNat)
  else .ok pos
termination_by data.length - pos

/-- The loop over the questions, of which so many are left. -/
def skipQuestions (data : Bytes) : Nat → Nat → Except Fault Nat
  | 0, pos => .ok pos
  | left + 1, pos =>
      if pos < data.length then do
        let pos ← skipName data pos
        skipQuestions data left (pos + 4)
      else .ok pos

/-- The loop over the answers, of which so many are left. -/
def parseAnswers (data : Bytes) : Nat → Nat → SockaddrIn → Except Fault (Bool × SockaddrIn)
  | 0, _, out => .ok (false, out)
  | left + 1, pos, out =>
      if pos < data.length then do
        let pos ← skipName data pos
        if data.length < pos + 10 then return (false, out)
        let type ← read16 data pos
        let rdlength ← read16 data (pos + 8)
        let pos := pos + 10
        if data.length < pos + rdlength.toNat then return (false, out)
        if type = typeA ∧ rdlength = 4 then
          let addr ← copy data pos 4
          return (true, { family := afInet, addr })
        parseAnswers data left (pos + rdlength.toNat) out
      else .ok (false, out)

def parseDnsResponseA (data : Bytes) (expectedId : UInt16) (out : SockaddrIn) :
    Except Fault (Bool × SockaddrIn) := do
  if data.length < 12 then return (false, out)
  let id ← read16 data 0
  if id ≠ expectedId then return (false, out)
  let flags ← read16 data 2
  let rcode := flags &&& 0x000F
  if rcode ≠ 0 then return (false, out)
  let qdcount ← read16 data 4
  let ancount ← read16 data 6
  if ancount = 0 then return (false, out)
  let pos ← skipQuestions data qdcount.toNat 12
  parseAnswers data ancount.toNat pos out

/-! ### Well-formed responses -/

/-- A label by the grammar of RFC 1035. -/
structure Label where
  octets : Bytes
  nonempty : octets ≠ []
  short : octets.length ≤ 63

/-- A name, which ends with a zero or with a pointer of 14 bits. -/
structure Name where
  labels : List Label
  pointer : Option (Fin (2 ^ 14))

def Name.ending (name : Name) : Bytes :=
  match name.pointer with
  | none => [0]
  | some offset => [UInt8.ofNat (192 + offset / 256), UInt8.ofNat (offset % 256)]

def Name.encode (name : Name) : Bytes :=
  name.labels.flatMap (fun label => labelBytes label.octets) ++ name.ending

structure Question where
  name : Name
  qtype : UInt16
  qclass : UInt16

def Question.encode (question : Question) : Bytes :=
  question.name.encode ++ (push16 question.qtype ++ push16 question.qclass)

structure Record where
  name : Name
  type : UInt16
  rclass : UInt16
  ttl : UInt32
  rdata : Bytes
  fits : rdata.length < 2 ^ 16

/-- The fields between a name and the data. -/
def Record.fields (record : Record) : Bytes :=
  push16 record.type ++ push16 record.rclass ++ push16 (record.ttl >>> 16).toUInt16 ++
    push16 record.ttl.toUInt16 ++ push16 (UInt16.ofNat record.rdata.length)

def Record.encode (record : Record) : Bytes :=
  record.name.encode ++ (record.fields ++ record.rdata)

/-- An address of four bytes. -/
def Record.isAddress (record : Record) : Bool := record.type = typeA ∧ record.rdata.length = 4

/-- A response without an error, with whatever stands behind its answers. -/
structure Response where
  id : UInt16
  flags : UInt16
  noError : flags &&& 0x000F = 0
  questions : List Question
  fewQuestions : questions.length < 2 ^ 16
  answers : List Record
  fewAnswers : answers.length < 2 ^ 16
  nscount : UInt16
  arcount : UInt16
  rest : Bytes

def Response.header (response : Response) : Bytes :=
  push16 response.id ++ push16 response.flags ++ push16 (UInt16.ofNat response.questions.length) ++
    push16 (UInt16.ofNat response.answers.length) ++ push16 response.nscount ++
    push16 response.arcount

def Response.encode (response : Response) : Bytes :=
  response.header ++ (response.questions.flatMap Question.encode ++
    (response.answers.flatMap Record.encode ++ response.rest))

/-- The outcome for answers: the data of the first address among them. -/
def firstAddress (answers : List Record) (out : SockaddrIn) : Bool × SockaddrIn :=
  match answers.find? Record.isAddress with
  | none => (false, out)
  | some record => (true, { family := afInet, addr := record.rdata })

/-! ### No read leaves the buffer -/

section Reading

variable {data : Bytes} {pos : Nat}

theorem readByte_eq {byte : UInt8} (found : data[pos]? = some byte) :
    readByte data pos = .ok byte := by
  rw [readByte, found]

theorem lt_length_of_readByte {byte : UInt8} (read : readByte data pos = .ok byte) :
    pos < data.length := by
  by_contra outside
  rw [readByte, List.getElem?_eq_none (Nat.le_of_not_lt outside)] at read
  cases read

/-- One iteration of the loop over a name. -/
theorem skipName_eq {labelLen : UInt8} (read : readByte data pos = .ok labelLen) :
    skipName data pos =
      if labelLen = 0 then .ok (pos + 1)
      else if labelLen &&& 0xC0 = 0xC0 then .ok (pos + 2)
      else skipName data (pos + 1 + labelLen.toNat) := by
  rw [skipName, dif_pos (lt_length_of_readByte read), read]

theorem readByte_ok (inside : pos < data.length) : ∃ byte, readByte data pos = .ok byte :=
  ⟨_, readByte_eq (List.getElem?_eq_getElem inside)⟩

theorem read16_ok (inside : pos + 1 < data.length) : ∃ value, read16 data pos = .ok value := by
  obtain ⟨high, isHigh⟩ := readByte_ok (Nat.lt_of_succ_lt inside)
  obtain ⟨low, isLow⟩ := readByte_ok inside
  rw [read16, isHigh, isLow]
  exact ⟨_, rfl⟩

theorem skipName_ok (data : Bytes) (pos : Nat) : ∃ next, skipName data pos = .ok next := by
  induction pos using skipName.induct data with
  | case1 pos inside fault failed =>
    obtain ⟨byte, read⟩ := readByte_ok inside
    rw [read] at failed
    cases failed
  | case2 pos inside read => exact ⟨_, (skipName_eq read).trans (if_pos rfl)⟩
  | case3 pos inside labelLen read some pointer =>
    rw [skipName_eq read, if_neg some]
    exact ⟨_, if_pos pointer⟩
  | case4 pos inside labelLen read some label inductionHypothesis =>
    rw [skipName_eq read, if_neg some, if_neg label]
    exact inductionHypothesis
  | case5 pos outside => exact ⟨pos, by rw [skipName, dif_neg outside]⟩

theorem skipQuestions_ok (data : Bytes) (left pos : Nat) :
    ∃ next, skipQuestions data left pos = .ok next := by
  induction left generalizing pos with
  | zero => exact ⟨pos, rfl⟩
  | succ left inductionHypothesis =>
    rw [skipQuestions]
    split
    · obtain ⟨next, skipped⟩ := skipName_ok data pos
      rw [skipped]
      exact inductionHypothesis (next + 4)
    · exact ⟨pos, rfl⟩

/-- A result without a fault, which leaves the address as it was if nothing is found. -/
def Sound (result : Except Fault (Bool × SockaddrIn)) (out : SockaddrIn) : Prop :=
  ∃ found address, result = .ok (found, address) ∧ (found = false → address = out)

theorem sound_false (out : SockaddrIn) : Sound (.ok (false, out)) out :=
  ⟨false, out, rfl, fun _ => rfl⟩

/-- An answer that is not there completely. -/
theorem parseAnswers_short {next : Nat} (inside : pos < data.length)
    (skipped : skipName data pos = .ok next) (short : data.length < next + 10) (left : Nat)
    (out : SockaddrIn) : parseAnswers data (left + 1) pos out = .ok (false, out) := by
  rw [parseAnswers, if_pos inside, skipped]
  exact if_pos short

/-- An answer whose fields are there. -/
theorem parseAnswers_fields {next : Nat} {type rdlength : UInt16} (inside : pos < data.length)
    (skipped : skipName data pos = .ok next) (long : next + 10 ≤ data.length)
    (isType : read16 data next = .ok type) (isLength : read16 data (next + 8) = .ok rdlength)
    (left : Nat) (out : SockaddrIn) :
    parseAnswers data (left + 1) pos out =
      if data.length < next + 10 + rdlength.toNat then .ok (false, out)
      else if type = typeA ∧ rdlength = 4 then
        .ok (true, { family := afInet, addr := (data.drop (next + 10)).take 4 })
      else parseAnswers data left (next + 10 + rdlength.toNat) out := by
  rw [parseAnswers, if_pos inside, skipped]
  dsimp only [bind, Except.bind, pure, Except.pure]
  rw [if_neg (Nat.not_lt.mpr long), isType]
  dsimp only
  rw [isLength]
  dsimp only
  by_cases wide : data.length < next + 10 + rdlength.toNat
  · rw [if_pos wide, if_pos wide]
  · rw [if_neg wide, if_neg wide]
    by_cases address : type = typeA ∧ rdlength = 4
    · have four : rdlength.toNat = 4 := congrArg UInt16.toNat address.2
      have copied : copy data (next + 10) 4 = .ok ((data.drop (next + 10)).take 4) :=
        if_pos (by omega)
      rw [if_pos address, if_pos address, copied]
    · rw [if_neg address, if_neg address]

theorem parseAnswers_sound (data : Bytes) (left pos : Nat) (out : SockaddrIn) :
    Sound (parseAnswers data left pos out) out := by
  induction left generalizing pos with
  | zero => exact sound_false out
  | succ left inductionHypothesis =>
    by_cases inside : pos < data.length
    · obtain ⟨next, skipped⟩ := skipName_ok data pos
      rcases Nat.lt_or_ge data.length (next + 10) with short | long
      · rw [parseAnswers_short inside skipped short]
        exact sound_false out
      · obtain ⟨type, isType⟩ := read16_ok (show next + 1 < data.length by omega)
        obtain ⟨rdlength, isLength⟩ := read16_ok (show next + 8 + 1 < data.length by omega)
        rw [parseAnswers_fields inside skipped long isType isLength]
        split
        · exact sound_false out
        · split
          · exact ⟨true, _, rfl, fun wrong => by cases wrong⟩
          · exact inductionHypothesis _
    · rw [parseAnswers, if_neg inside]
      exact sound_false out

/-- A packet whose header is there. -/
theorem parseDnsResponseA_header {id flags qdcount ancount : UInt16} (long : 12 ≤ data.length)
    (isId : read16 data 0 = .ok id) (isFlags : read16 data 2 = .ok flags)
    (isQdcount : read16 data 4 = .ok qdcount) (isAncount : read16 data 6 = .ok ancount)
    (skipped : skipQuestions data qdcount.toNat 12 = .ok pos) (expectedId : UInt16)
    (out : SockaddrIn) :
    parseDnsResponseA data expectedId out =
      if id ≠ expectedId ∨ flags &&& 0x000F ≠ 0 ∨ ancount = 0 then .ok (false, out)
      else parseAnswers data ancount.toNat pos out := by
  unfold parseDnsResponseA
  rw [if_neg (Nat.not_lt.mpr long), isId]
  dsimp only [bind, Except.bind, pure, Except.pure]
  by_cases other : id ≠ expectedId
  · rw [if_pos other, if_pos (Or.inl other)]
  · rw [if_neg other, isFlags]
    dsimp only
    by_cases failed : flags &&& 0x000F ≠ 0
    · rw [if_pos failed, if_pos (Or.inr (Or.inl failed))]
    · rw [if_neg failed, isQdcount]
      dsimp only
      rw [isAncount]
      dsimp only
      by_cases none : ancount = 0
      · rw [if_pos none, if_pos (Or.inr (Or.inr none))]
      · rw [if_neg none, skipped]
        have all : ¬(id ≠ expectedId ∨ flags &&& 0x000F ≠ 0 ∨ ancount = 0) :=
          not_or.mpr ⟨other, not_or.mpr ⟨failed, none⟩⟩
        rw [if_neg all]

theorem parseDnsResponseA_sound (data : Bytes) (expectedId : UInt16) (out : SockaddrIn) :
    Sound (parseDnsResponseA data expectedId out) out := by
  rcases Nat.lt_or_ge data.length 12 with short | long
  · rw [parseDnsResponseA, if_pos short]
    exact sound_false out
  · obtain ⟨id, isId⟩ := read16_ok (show 0 + 1 < data.length by omega)
    obtain ⟨flags, isFlags⟩ := read16_ok (show 2 + 1 < data.length by omega)
    obtain ⟨qdcount, isQdcount⟩ := read16_ok (show 4 + 1 < data.length by omega)
    obtain ⟨ancount, isAncount⟩ := read16_ok (show 6 + 1 < data.length by omega)
    obtain ⟨pos, skipped⟩ := skipQuestions_ok data qdcount.toNat 12
    rw [parseDnsResponseA_header long isId isFlags isQdcount isAncount skipped]
    split
    · exact sound_false out
    · exact parseAnswers_sound data ancount.toNat pos out

end Reading

/-! ### What is read of a response -/

/-- The two bytes of a number are joined again. -/
theorem join16 (value : UInt16) :
    (value >>> 8).toUInt8.toUInt16 <<< 8 ||| (value &&& 0xFF).toUInt8.toUInt16 = value := by
  have small := value.toNat_lt
  have low : value.toNat % 2 ^ 8 < 2 ^ 8 := Nat.mod_lt _ (Nat.two_pow_pos 8)
  have high : value.toNat / 2 ^ 8 < 2 ^ 8 := by omega
  have first : (value >>> 8).toUInt8.toNat = value.toNat / 2 ^ 8 := by
    rw [UInt16.toNat_toUInt8, UInt16.toNat_shiftRight]
    exact (Nat.mod_eq_of_lt (by rw [Nat.shiftRight_eq_div_pow]; exact high)).trans
      (Nat.shiftRight_eq_div_pow _ _)
  have second : (value &&& 0xFF).toUInt8.toNat = value.toNat % 2 ^ 8 := by
    rw [UInt16.toNat_toUInt8, UInt16.toNat_and]
    refine (congrArg (· % 2 ^ 8) (Nat.and_two_pow_sub_one_eq_mod value.toNat 8)).trans ?_
    exact Nat.mod_mod _ _
  refine UInt16.toNat_inj.mp ?_
  rw [UInt16.toNat_or, UInt16.toNat_shiftLeft, UInt8.toNat_toUInt16, UInt8.toNat_toUInt16, first,
    second]
  have shifted : (value.toNat / 2 ^ 8) <<< 8 % 2 ^ 16 = (value.toNat / 2 ^ 8) <<< 8 := by
    rw [Nat.shiftLeft_eq]
    exact Nat.mod_eq_of_lt (by omega)
  show (value.toNat / 2 ^ 8) <<< 8 % 2 ^ 16 ||| value.toNat % 2 ^ 8 = value.toNat
  rw [shifted, ← Nat.shiftLeft_add_eq_or_of_lt low, Nat.shiftLeft_eq]
  omega

theorem readByte_behind (front : Bytes) (byte : UInt8) (rest : Bytes) :
    readByte (front ++ byte :: rest) front.length = .ok byte := by
  refine readByte_eq ?_
  rw [List.getElem?_append_right (Nat.le_refl _), Nat.sub_self]
  rfl

theorem read16_behind (front : Bytes) (value : UInt16) (rest : Bytes) :
    read16 (front ++ (push16 value ++ rest)) front.length = .ok value := by
  have high : readByte (front ++ (push16 value ++ rest)) front.length =
      .ok (value >>> 8).toUInt8 := readByte_behind front _ _
  have low : readByte (front ++ (push16 value ++ rest)) (front.length + 1) =
      .ok (value &&& 0xFF).toUInt8 := by
    have behind := readByte_behind (front ++ [(value >>> 8).toUInt8]) (value &&& 0xFF).toUInt8 rest
    rw [List.append_assoc, List.length_append] at behind
    exact behind
  rw [read16, high]
  dsimp only [bind, Except.bind]
  rw [low]
  exact congrArg Except.ok (join16 value)

/-- The number of a label is neither the zero at the end of a name nor a pointer. -/
theorem label_byte {count : Nat} (positive : 0 < count) (small : count ≤ 63) :
    UInt8.ofNat count ≠ 0 ∧ UInt8.ofNat count &&& 0xC0 ≠ 0xC0 ∧
      (UInt8.ofNat count).toNat = count := by
  have all : ∀ count ≤ 63, 0 < count → UInt8.ofNat count ≠ 0 ∧
      UInt8.ofNat count &&& 0xC0 ≠ 0xC0 ∧ (UInt8.ofNat count).toNat = count := by decide
  exact all count small positive

theorem pointer_byte {high : Nat} (small : high < 64) :
    UInt8.ofNat (192 + high) ≠ 0 ∧ UInt8.ofNat (192 + high) &&& 0xC0 = 0xC0 := by
  have all : ∀ high < 64, UInt8.ofNat (192 + high) ≠ 0 ∧
      UInt8.ofNat (192 + high) &&& 0xC0 = 0xC0 := by decide
  exact all high small

theorem skipName_ending (front : Bytes) (name : Name) (rest : Bytes) :
    skipName (front ++ (name.ending ++ rest)) front.length =
      .ok (front ++ name.ending).length := by
  unfold Name.ending
  rw [List.length_append]
  cases name.pointer with
  | none =>
    have read := readByte_behind front 0 rest
    exact (skipName_eq read).trans (if_pos rfl)
  | some offset =>
    have small : offset.val / 256 < 64 := by omega
    obtain ⟨some, pointer⟩ := pointer_byte small
    have read := readByte_behind front (UInt8.ofNat (192 + offset / 256))
      (UInt8.ofNat (offset % 256) :: rest)
    exact (skipName_eq read).trans ((if_neg some).trans (if_pos pointer))

/-- A name is skipped to its end. -/
theorem skipName_encode (front : Bytes) (name : Name) (rest : Bytes) :
    skipName (front ++ (name.encode ++ rest)) front.length =
      .ok (front ++ name.encode).length := by
  obtain ⟨labels, pointer⟩ := name
  induction labels generalizing front with
  | nil => exact skipName_ending front ⟨[], pointer⟩ rest
  | cons label labels inductionHypothesis =>
    have positive := List.length_pos_of_ne_nil label.nonempty
    obtain ⟨some, plain, count⟩ := label_byte positive label.short
    have encoded : Name.encode ⟨label :: labels, pointer⟩ =
        labelBytes label.octets ++ Name.encode ⟨labels, pointer⟩ := by
      unfold Name.encode
      rw [List.flatMap_cons, List.append_assoc]
      rfl
    have read := readByte_behind front (UInt8.ofNat label.octets.length)
      (label.octets ++ (Name.encode ⟨labels, pointer⟩ ++ rest))
    have later := inductionHypothesis (front ++ labelBytes label.octets)
    have length : (front ++ labelBytes label.octets).length =
        front.length + 1 + label.octets.length := by
      rw [List.length_append, labelBytes, List.length_cons]
      omega
    rw [encoded, List.append_assoc]
    refine (skipName_eq read).trans ?_
    rw [if_neg some, if_neg plain, count, ← length]
    rw [List.append_assoc, List.append_assoc] at later
    exact later

theorem length_pos_encode (name : Name) : 0 < name.encode.length := by
  unfold Name.encode Name.ending
  rw [List.length_append]
  cases name.pointer with
  | none => exact Nat.lt_add_left _ Nat.one_pos
  | some offset => exact Nat.lt_add_left _ Nat.two_pos

/-- The questions are skipped to the end of the last one. -/
theorem skipQuestions_encode (front : Bytes) (questions : List Question) (rest : Bytes) :
    skipQuestions (front ++ (questions.flatMap Question.encode ++ rest)) questions.length
      front.length = .ok (front ++ questions.flatMap Question.encode).length := by
  induction questions generalizing front with
  | nil =>
    rw [List.flatMap_nil, List.append_nil]
    rfl
  | cons question questions inductionHypothesis =>
    have positive := length_pos_encode question.name
    have skipped := skipName_encode front question.name
      (push16 question.qtype ++ push16 question.qclass ++
        (questions.flatMap Question.encode ++ rest))
    have later := inductionHypothesis (front ++ question.encode)
    have length :
        (front ++ question.encode).length = (front ++ question.name.encode).length + 4 := by
      rw [Question.encode, ← List.append_assoc, List.length_append]
      rfl
    have inside : front.length <
        (front ++ ((question :: questions).flatMap Question.encode ++ rest)).length := by
      rw [List.flatMap_cons, Question.encode]
      simp only [List.length_append]
      omega
    rw [length] at later
    rw [List.length_cons, skipQuestions, if_pos inside]
    simp only [List.flatMap_cons, Question.encode, List.append_assoc] at skipped later ⊢
    rw [skipped]
    exact later

/-- A number that is written in 16 bits. -/
theorem toNat_count {count : Nat} (fits : count < 2 ^ 16) : (UInt16.ofNat count).toNat = count :=
  UInt16.toNat_ofNat_of_lt fits

/-- One answer, wherever it stands. -/
theorem parseAnswers_record (front : Bytes) (record : Record) (more : Bytes) (left : Nat)
    (out : SockaddrIn) :
    parseAnswers (front ++ (record.encode ++ more)) (left + 1) front.length out =
      if record.isAddress then .ok (true, { family := afInet, addr := record.rdata })
      else parseAnswers (front ++ (record.encode ++ more)) left (front ++ record.encode).length
        out := by
  have positive := length_pos_encode record.name
  have ten : record.fields.length = 10 := rfl
  have skipped := skipName_encode front record.name (record.fields ++ (record.rdata ++ more))
  have isType := read16_behind (front ++ record.name.encode) record.type
    (record.fields.drop 2 ++ (record.rdata ++ more))
  have isLength := read16_behind (front ++ record.name.encode ++ record.fields.take 8)
    (UInt16.ofNat record.rdata.length) (record.rdata ++ more)
  rw [List.append_assoc] at isType
  rw [List.length_append, List.append_assoc, List.append_assoc] at isLength
  have whole : front ++ (record.encode ++ more) =
      front ++ (record.name.encode ++ (record.fields ++ (record.rdata ++ more))) := by
    simp only [Record.encode, List.append_assoc]
  have total : (front ++ (record.encode ++ more)).length =
      (front ++ record.name.encode).length + 10 + record.rdata.length + more.length := by
    simp only [whole, List.length_append, ten]
    omega
  have before : front.length < (front ++ record.name.encode).length := by
    rw [List.length_append]
    exact Nat.lt_add_of_pos_right positive
  have last : (front ++ record.encode).length =
      (front ++ record.name.encode).length + 10 + record.rdata.length := by
    rw [Record.encode, ← List.append_assoc, ← List.append_assoc, List.length_append,
      List.length_append, ten]
  have octets (four : record.rdata.length = 4) : ((front ++ (record.encode ++ more)).drop
      ((front ++ record.name.encode).length + 10)).take 4 = record.rdata := by
    have here : (front ++ record.name.encode ++ record.fields).length =
        (front ++ record.name.encode).length + 10 := by rw [List.length_append, ten]
    rw [whole, ← List.append_assoc, ← List.append_assoc, List.drop_left' here,
      List.take_left' four]
  have isFour : UInt16.ofNat record.rdata.length = 4 ↔ record.rdata.length = 4 := by
    rw [← UInt16.toNat_inj, toNat_count record.fits]
    rfl
  rw [← whole] at skipped
  have fields := parseAnswers_fields (by omega) skipped (by omega)
    ((congrArg (read16 · _) whole).trans isType) ((congrArg (read16 · _) whole).trans isLength)
    left out
  rw [toNat_count record.fits, if_neg (by omega), ← last] at fields
  refine fields.trans ?_
  by_cases address : record.type = typeA ∧ record.rdata.length = 4
  · have found : record.isAddress = true := decide_eq_true address
    rw [if_pos ⟨address.1, isFour.mpr address.2⟩, if_pos found, octets address.2]
  · have other : ¬ record.isAddress = true := fun wrong => address (of_decide_eq_true wrong)
    rw [if_neg fun both => address ⟨both.1, isFour.mp both.2⟩, if_neg other]

/-- The answers are read up to the first address. -/
theorem parseAnswers_encode (front : Bytes) (answers : List Record) (rest : Bytes)
    (out : SockaddrIn) :
    parseAnswers (front ++ (answers.flatMap Record.encode ++ rest)) answers.length front.length
      out = .ok (firstAddress answers out) := by
  induction answers generalizing front with
  | nil => rfl
  | cons record answers inductionHypothesis =>
    have later := inductionHypothesis (front ++ record.encode)
    rw [List.append_assoc] at later
    rw [List.flatMap_cons, List.append_assoc, List.length_cons, parseAnswers_record, later]
    unfold firstAddress
    rw [List.find?_cons]
    cases record.isAddress <;> rfl

/-- On a response that is well formed, the position comes behind the header, the questions and one
answer after the other. -/
theorem parseDnsResponseA_encode (response : Response) (out : SockaddrIn) :
    parseDnsResponseA response.encode response.id out =
      .ok (firstAddress response.answers out) := by
  have questions := toNat_count response.fewQuestions
  have answers := toNat_count response.fewAnswers
  have twelve : response.header.length = 12 := rfl
  have long : 12 ≤ response.encode.length := by
    rw [Response.encode, List.length_append, twelve]
    exact Nat.le_add_right 12 _
  have isId : read16 response.encode 0 = .ok response.id := read16_behind [] response.id _
  have isFlags : read16 response.encode 2 = .ok response.flags :=
    read16_behind (push16 response.id) response.flags _
  have isQdcount : read16 response.encode 4 = .ok (UInt16.ofNat response.questions.length) :=
    read16_behind (push16 response.id ++ push16 response.flags)
      (UInt16.ofNat response.questions.length) _
  have isAncount : read16 response.encode 6 = .ok (UInt16.ofNat response.answers.length) :=
    read16_behind (push16 response.id ++ push16 response.flags ++
      push16 (UInt16.ofNat response.questions.length)) (UInt16.ofNat response.answers.length) _
  have skipped := skipQuestions_encode response.header response.questions
    (response.answers.flatMap Record.encode ++ response.rest)
  rw [twelve, ← questions] at skipped
  rw [parseDnsResponseA_header long isId isFlags isQdcount isAncount skipped]
  have parsed := parseAnswers_encode
    (response.header ++ response.questions.flatMap Question.encode) response.answers response.rest
    out
  rw [List.append_assoc, ← answers] at parsed
  split
  · rename_i refused
    obtain wrong | wrong | none := refused
    · exact absurd rfl wrong
    · exact absurd response.noError wrong
    · rw [none] at answers
      rw [List.length_eq_zero_iff.mp answers.symm]
      rfl
  · exact parsed

/-- For every packet, the parser ends without a read outside of it, and if nothing is found the
address is as it was. On a response that is well formed and has the identifier, what is found is the
data of the first answer that is an address. -/
theorem dnsResponses (data : Bytes) (expectedId : UInt16) (out : SockaddrIn) :
    Sound (parseDnsResponseA data expectedId out) out ∧
      ∀ response : Response, response.id = expectedId → response.encode = data →
        parseDnsResponseA data expectedId out = .ok (firstAddress response.answers out) := by
  refine ⟨parseDnsResponseA_sound data expectedId out, ?_⟩
  rintro response rfl rfl
  exact parseDnsResponseA_encode response out

end AsyncNet.Io.Dns
