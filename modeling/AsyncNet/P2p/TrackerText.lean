/-
This file is about the text of the tracker's protocol, from both ends: a line that is written is
read back, and so are the words and the numbers in it. It ends with the reply to `LIST` as the
client reads it. What the client makes of the lines is right in any case; what it leaves behind
depends on whether the number counts a peer that has no line.
-/

import AsyncNet.Http.Decimal
import AsyncNet.P2p.TrackerClient
import Mathlib.Data.List.TakeWhile

namespace AsyncNet.P2p

open Http

/-! ### Words -/

/-- What `operator>>` reads into a string. -/
structure IsWord (word : Bytes) : Prop where
  nonempty : word ≠ []
  solid : ∀ byte ∈ word, isSpace byte = false

theorem isWord_of_all {word : Bytes} (nonempty : word ≠ [])
    (solid : word.all (fun byte => !isSpace byte) = true) : IsWord word where
  nonempty := nonempty
  solid := by
    intro byte member
    have other := List.all_eq_true.mp solid byte member
    rwa [Bool.not_eq_true'] at other

theorem isWord_append {first second : Bytes} (isFirst : IsWord first) (isSecond : IsWord second) :
    IsWord (first ++ second) := by
  constructor
  · intro empty
    exact isFirst.nonempty (List.append_eq_nil_iff.mp empty).1
  · intro byte member
    obtain inFirst | inSecond := List.mem_append.mp member
    · exact isFirst.solid byte inFirst
    · exact isSecond.solid byte inSecond

theorem isSpace_of_isDigit {byte : UInt8} (digit : isDigit byte = true) : isSpace byte = false := by
  rw [isDigit, Bool.and_eq_true, decide_eq_true_eq, decide_eq_true_eq, UInt8.le_iff_toNat_le,
    UInt8.le_iff_toNat_le] at digit
  have low : 48 ≤ byte.toNat := digit.1
  rw [isSpace, Bool.or_eq_false_iff, Bool.and_eq_false_iff, decide_eq_false_iff_not,
    decide_eq_false_iff_not, decide_eq_false_iff_not, UInt8.le_iff_toNat_le, UInt8.le_iff_toNat_le]
  refine ⟨?_, Or.inr fun high => ?_⟩
  · rintro rfl
    exact absurd low (by decide)
  · have high : byte.toNat ≤ 13 := high
    omega

theorem isWord_decimal (value : Nat) : IsWord (decimal value) :=
  ⟨decimal_ne_nil value, fun _ member => isSpace_of_isDigit (isDigit_of_mem_decimal member)⟩

theorem isWord_clientIp (endpoint : Endpoint) : IsWord endpoint.clientIp := by
  have dot : IsWord (ascii ".") := isWord_of_all (by decide) (by decide)
  unfold Endpoint.clientIp
  iterate 3 refine isWord_append (isWord_append ?_ dot) (isWord_decimal _)
  exact isWord_decimal _

theorem length_clientIp_le (endpoint : Endpoint) : endpoint.clientIp.length ≤ 15 := by
  have octet (byte : UInt8) : (decimal byte.toNat).length ≤ 3 :=
    length_decimal_le (by decide) (byte.toNat_lt.trans (by decide))
  have first := octet endpoint.ip.1
  have second := octet endpoint.ip.2.1
  have third := octet endpoint.ip.2.2.1
  have fourth := octet endpoint.ip.2.2.2
  have dot : (ascii ".").length = 1 := rfl
  unfold Endpoint.clientIp
  rw [List.length_append, List.length_append, List.length_append, List.length_append,
    List.length_append, List.length_append, dot]
  omega

theorem dropWhile_isSpace_append {word rest : Bytes} (isWord : IsWord word) :
    (word ++ rest).dropWhile isSpace = word ++ rest := by
  obtain ⟨byte, bytes, rfl⟩ := List.exists_cons_of_ne_nil isWord.nonempty
  have solid := isWord.solid byte List.mem_cons_self
  rw [List.cons_append, List.dropWhile_cons_of_neg (Bool.eq_false_iff.mp solid)]

/-- A word that ends where the text does, or at a space. -/
theorem extractWord_append {word rest : Bytes} (isWord : IsWord word)
    (ends : ∀ byte ∈ rest.head?, isSpace byte = true) :
    extractWord (some (word ++ rest)) = (word, some rest) := by
  have front : (word ++ rest).takeWhile (fun byte => !isSpace byte) = word := by
    rw [List.takeWhile_append_of_pos fun byte member => by rw [isWord.solid byte member]; rfl]
    cases rest with
    | nil => rw [List.takeWhile_nil, List.append_nil]
    | cons byte rest =>
      rw [List.takeWhile_cons_of_neg (by rw [ends byte rfl]; decide), List.append_nil]
  unfold extractWord
  dsimp only
  rw [dropWhile_isSpace_append isWord, front, if_neg isWord.nonempty, List.drop_left]

theorem extractWord_append_space {word : Bytes} (isWord : IsWord word) (rest : Bytes) :
    extractWord (some (word ++ (ascii " " ++ rest))) = (word, some (ascii " " ++ rest)) := by
  refine extractWord_append isWord fun byte first => ?_
  cases first
  rfl

theorem extractWord_space (text : Bytes) :
    extractWord (some (ascii " " ++ text)) = extractWord (some text) := rfl

/-- What is extracted is a word, and it is taken from the text. -/
theorem extractWord_cases (text : Bytes) :
    extractWord (some text) = ([], none) ∨
      ∃ word rest, extractWord (some text) = (word, some rest) ∧ IsWord word ∧
        word.length + rest.length ≤ text.length := by
  unfold extractWord
  dsimp only
  have shorter : (text.dropWhile isSpace).length ≤ text.length :=
    (List.dropWhile_suffix isSpace).length_le
  generalize text.dropWhile isSpace = tail at shorter ⊢
  split
  · exact Or.inl rfl
  · rename_i some
    refine Or.inr ⟨_, _, rfl, ⟨some, fun byte member => ?_⟩, ?_⟩
    · have solid : (!isSpace byte) = true :=
        List.mem_takeWhile_imp (p := fun byte => !isSpace byte) member
      rwa [Bool.not_eq_true'] at solid
    · have part : (tail.takeWhile fun byte => !isSpace byte).length ≤ tail.length :=
        (List.takeWhile_prefix _).length_le
      rw [List.length_drop]
      omega

/-! ### Numbers -/

/-- A number begins with no sign. -/
theorem head?_decimal_ne (value : Nat) {sign : UInt8} (isSign : isDigit sign = false) :
    (decimal value).head? ≠ some sign := by
  intro first
  have digit := isDigit_of_mem_decimal (List.mem_of_mem_head? first)
  rw [isSign] at digit
  cases digit

theorem takeWhile_decimal (value : Nat) : (decimal value).takeWhile isDigit = decimal value := by
  have all := @takeWhile_decimal_append value [] (by nofun)
  rwa [List.append_nil] at all

theorem dropWhile_decimal (value : Nat) : (decimal value).dropWhile isSpace = decimal value := by
  have same := @dropWhile_isSpace_append _ [] (isWord_decimal value)
  rwa [List.append_nil] at same

theorem extractUint16_decimal {value : Nat} (small : value < 2 ^ 16) :
    extractUint16 (some (ascii " " ++ decimal value)) = (value, some []) := by
  have text : (ascii " " ++ decimal value).dropWhile isSpace = decimal value :=
    dropWhile_decimal value
  have minus := head?_decimal_ne value (show isDigit 45 = false by decide)
  have plus := head?_decimal_ne value (show isDigit 43 = false by decide)
  unfold extractUint16
  dsimp only
  rw [text, if_neg (not_or.mpr ⟨minus, plus⟩), takeWhile_decimal, digitsValue_decimal,
    if_neg (decimal_ne_nil value), if_neg (by omega), if_neg minus, List.drop_length]

/-- `std::stoi` throws from `2 ^ 31` on. -/
theorem stoi_decimal (value : Nat) :
    stoi (decimal value) = if value < 2 ^ 31 then some (value : Int) else none := by
  have minus := head?_decimal_ne value (show isDigit 45 = false by decide)
  have plus := head?_decimal_ne value (show isDigit 43 = false by decide)
  unfold stoi
  dsimp only
  rw [dropWhile_decimal, if_neg (not_or.mpr ⟨minus, plus⟩), takeWhile_decimal, digitsValue_decimal,
    if_neg minus]
  by_cases small : value < 2 ^ 31
  · rw [if_pos small, if_pos ⟨decimal_ne_nil value, by omega, by omega⟩]
  · rw [if_neg small, if_neg fun fits => small (by omega)]

/-! ### Lines -/

/-- A line that is written is read, and nothing after it. -/
theorem readLine_append {limit : Nat} {begun line : Bytes} (rest : Bytes)
    (short : begun.length + line.length < limit) (single : 10 ∉ line) :
    readLine limit begun (line ++ 10 :: rest) = some (dropCr (begun ++ line), rest) := by
  induction line generalizing begun with
  | nil =>
    rw [List.length_nil, Nat.add_zero] at short
    rw [List.nil_append, readLine, if_neg (by omega), if_pos rfl, List.append_nil]
  | cons byte line inductionHypothesis =>
    rw [List.length_cons] at short
    obtain ⟨other, tail⟩ := not_or.mp (List.mem_cons.not.mp single)
    rw [List.cons_append, readLine, if_neg (by omega), if_neg (Ne.symm other),
      inductionHypothesis (by rw [List.length_append, List.length_singleton]; omega) tail,
      List.append_assoc, List.singleton_append]

/-- A line that reaches the limit is read as an empty one. -/
theorem readLine_long {limit : Nat} {begun line : Bytes} (rest : Bytes)
    (long : limit ≤ begun.length + line.length) (begins : begun.length ≤ limit)
    (single : 10 ∉ line) :
    ∃ left, readLine limit begun (line ++ rest) = some ([], left) := by
  induction line generalizing begun with
  | nil =>
    rw [List.length_nil, Nat.add_zero] at long
    rw [List.nil_append]
    cases rest with
    | nil => exact ⟨[], by rw [readLine, if_pos long]⟩
    | cons byte rest => exact ⟨byte :: rest, by rw [readLine, if_pos long]⟩
  | cons byte line inductionHypothesis =>
    rw [List.length_cons] at long
    obtain ⟨other, tail⟩ := not_or.mp (List.mem_cons.not.mp single)
    rw [List.cons_append, readLine]
    split
    · exact ⟨_, rfl⟩
    · rw [if_neg (Ne.symm other)]
      have longer : (begun ++ [byte]).length = begun.length + 1 := List.length_append
      exact inductionHypothesis (by omega) (by omega) tail

theorem length_dropCr_le (line : Bytes) : (dropCr line).length ≤ line.length := by
  unfold dropCr
  split
  · rw [List.length_dropLast]
    omega
  · exact le_rfl

/-- What is read is shorter than the limit. -/
theorem length_of_readLine {limit : Nat} {begun input line rest : Bytes} (some : 0 < limit)
    (read : readLine limit begun input = Option.some (line, rest)) : line.length < limit := by
  induction input generalizing begun with
  | nil =>
    rw [readLine] at read
    split at read
    · cases read
      exact some
    · cases read
  | cons byte input inductionHypothesis =>
    rw [readLine] at read
    split at read
    · cases read
      exact some
    · split at read
      · cases read
        have shorter := length_dropCr_le begun
        omega
      · exact inductionHypothesis read

theorem dropCr_of_isWord {text word : Bytes} (isWord : IsWord word) :
    dropCr (text ++ word) = text ++ word := by
  have last : (text ++ word).getLast? ≠ some 13 := by
    rw [List.getLast?_append_of_ne_nil _ isWord.nonempty]
    intro last
    have solid := isWord.solid 13 (List.mem_of_getLast? last)
    exact absurd solid (by decide)
  unfold dropCr
  rw [if_neg last]

/-! ### The reply to `LIST` -/

/-- What a line of the reply tells of a peer. -/
def PeerInfo.listed (info : PeerInfo) : PeerInfo :=
  { id := info.id, publicAddress := info.publicAddress, udpPort := info.udpPort }

/-- What `REGISTER` allows in an entry. -/
structure PeerInfo.WellFormed (info : PeerInfo) : Prop where
  id : IsWord info.id
  short : info.id.length + 8 < 1024
  address : ∃ endpoint : Endpoint, info.publicAddress = endpoint.clientIp
  udpPort : info.udpPort < 2 ^ 16

section Lines

open TrackerServer (peerLine listResponse)

theorem not_mem_of_isWord {word : Bytes} (isWord : IsWord word) : 10 ∉ word := fun member =>
  absurd (isWord.solid 10 member) (by decide)

theorem parsePeer_peerLine {info : PeerInfo} (wellFormed : info.WellFormed) :
    parsePeer (peerLine info) = info.listed := by
  obtain ⟨endpoint, address⟩ := wellFormed.address
  have isAddress : IsWord info.publicAddress := address ▸ isWord_clientIp endpoint
  have first : extractWord (some (peerLine info)) = (info.id,
      some (ascii " " ++ (info.publicAddress ++ (ascii " " ++ decimal info.udpPort)))) := by
    unfold peerLine
    rw [List.append_assoc, List.append_assoc, List.append_assoc]
    exact extractWord_append_space wellFormed.id _
  have second : extractWord
      (some (ascii " " ++ (info.publicAddress ++ (ascii " " ++ decimal info.udpPort)))) =
        (info.publicAddress, some (ascii " " ++ decimal info.udpPort)) := by
    rw [extractWord_space]
    exact extractWord_append_space isAddress _
  unfold parsePeer
  rw [first]
  dsimp only
  rw [second]
  dsimp only
  rw [extractUint16_decimal wellFormed.udpPort]
  rfl

theorem length_peerLine_lt {info : PeerInfo} (wellFormed : info.WellFormed) :
    (peerLine info).length < 4096 := by
  obtain ⟨endpoint, address⟩ := wellFormed.address
  have addressLength : info.publicAddress.length ≤ 15 := address ▸ length_clientIp_le endpoint
  have portLength : (decimal info.udpPort).length ≤ 5 :=
    length_decimal_le (by decide) (wellFormed.udpPort.trans (by decide))
  have idLength := wellFormed.short
  have space : (ascii " ").length = 1 := rfl
  unfold peerLine
  rw [List.length_append, List.length_append, List.length_append, List.length_append, space]
  omega

theorem not_mem_peerLine {info : PeerInfo} (wellFormed : info.WellFormed) : 10 ∉ peerLine info := by
  obtain ⟨endpoint, address⟩ := wellFormed.address
  have inId := not_mem_of_isWord wellFormed.id
  have inAddress : 10 ∉ info.publicAddress := address ▸ not_mem_of_isWord (isWord_clientIp endpoint)
  have inPort := not_mem_of_isWord (isWord_decimal info.udpPort)
  have inSpace : (10 : UInt8) ∉ ascii " " := by decide
  unfold peerLine
  intro member
  obtain member | member := List.mem_append.mp member
  · obtain member | member := List.mem_append.mp member
    · obtain member | member := List.mem_append.mp member
      · obtain member | member := List.mem_append.mp member
        · exact inId member
        · exact inSpace member
      · exact inAddress member
    · exact inSpace member
  · exact inPort member

theorem readLine_peerLine {info : PeerInfo} (wellFormed : info.WellFormed) (rest : Bytes) :
    readLine 4096 [] (peerLine info ++ 10 :: rest) = some (peerLine info, rest) := by
  rw [readLine_append rest
    (by rw [List.length_nil, Nat.zero_add]; exact length_peerLine_lt wellFormed)
    (not_mem_peerLine wellFormed), List.nil_append]
  unfold peerLine
  rw [dropCr_of_isWord (isWord_decimal info.udpPort)]

theorem peerLine_ne_nil (info : PeerInfo) : peerLine info ≠ [] := by
  unfold peerLine
  intro empty
  exact decimal_ne_nil _ (List.append_eq_nil_iff.mp empty).2

/-- The loop reads the lines of the peers, and goes on as it would at what follows them. -/
theorem readPeers_append {peers : List PeerInfo}
    (wellFormed : ∀ info ∈ peers, info.WellFormed) (more : Nat) (rest : Bytes) :
    readPeers (peers.length + more) ((peers.flatMap fun info => peerLine info ++ [10]) ++ rest) =
      (readPeers more rest).map fun (others, left) =>
        (peers.map PeerInfo.listed ++ others, left) := by
  induction peers with
  | nil =>
    rw [List.length_nil, Nat.zero_add]
    exact Option.map_id'.symm
  | cons info peers inductionHypothesis =>
    have first := wellFormed info List.mem_cons_self
    have count : (info :: peers).length + more = (peers.length + more) + 1 := by
      rw [List.length_cons]
      omega
    have named : (parsePeer (peerLine info)).id ≠ [] := by
      rw [parsePeer_peerLine first]
      exact first.id.nonempty
    rw [count, List.flatMap_cons, List.append_assoc, List.append_assoc, List.singleton_append,
      readPeers, readLine_peerLine first, Option.bind_some]
    dsimp only
    rw [if_neg (peerLine_ne_nil info),
      inductionHypothesis fun other member => wellFormed other (List.mem_cons_of_mem _ member),
      Option.map_map]
    refine congrArg (Option.map · _) (funext fun found => ?_)
    show ((if (parsePeer (peerLine info)).id = [] then _ else _), found.2) = _
    rw [if_neg named, parsePeer_peerLine first]
    rfl

/-- The number of the header, with no newline. -/
theorem not_mem_header (count : Nat) : (10 : UInt8) ∉ ascii "PEERS " ++ decimal count := by
  intro member
  obtain member | member := List.mem_append.mp member
  · exact absurd member (by decide)
  · exact not_mem_of_isWord (isWord_decimal count) member

/-- The reply begins with the number of all peers. -/
theorem listPeersReply_header (count : Nat) (rest : Bytes) (small : count < 2 ^ 31) :
    listPeersReply (ascii "PEERS " ++ decimal count ++ 10 :: rest) =
      (readPeers count rest).map fun (peers, left) => (.peers peers, left) := by
  have length : (ascii "PEERS " ++ decimal count).length ≤ 16 := by
    have digits : (decimal count).length ≤ 10 :=
      length_decimal_le (by decide) (small.trans (by decide))
    rw [List.length_append]
    exact Nat.add_le_add_left digits 6
  have read : readLine 4096 [] (ascii "PEERS " ++ decimal count ++ 10 :: rest) =
      some (ascii "PEERS " ++ decimal count, rest) := by
    rw [readLine_append rest (by rw [List.length_nil]; omega) (not_mem_header count),
      List.nil_append, dropCr_of_isWord (isWord_decimal count)]
  have marked : ¬(ascii "PEERS " ++ decimal count = [] ∨
      (ascii "PEERS " ++ decimal count).take 6 ≠ ascii "PEERS ") := by
    rintro (empty | other)
    · exact decimal_ne_nil count (List.append_eq_nil_iff.mp empty).2
    · exact other rfl
  unfold listPeersReply
  rw [read, Option.bind_some]
  dsimp only
  rw [if_neg marked, show (ascii "PEERS " ++ decimal count).drop 6 = decimal count from rfl,
    stoi_decimal, if_pos small]
  rfl

/-- A number that `int` does not hold. -/
theorem listPeersReply_large (count : Nat) (rest : Bytes) (large : 2 ^ 31 ≤ count) :
    ∃ result left, listPeersReply (ascii "PEERS " ++ decimal count ++ 10 :: rest) =
      some (result, left) ∧ (result = .threw ∨ result = .peers []) := by
  by_cases short : (ascii "PEERS " ++ decimal count).length < 4096
  · have read : readLine 4096 [] (ascii "PEERS " ++ decimal count ++ 10 :: rest) =
        some (ascii "PEERS " ++ decimal count, rest) := by
      rw [readLine_append rest (by rw [List.length_nil]; omega) (not_mem_header count),
        List.nil_append, dropCr_of_isWord (isWord_decimal count)]
    unfold listPeersReply
    rw [read, Option.bind_some]
    dsimp only
    split
    · exact ⟨_, _, rfl, Or.inr rfl⟩
    · rw [show (ascii "PEERS " ++ decimal count).drop 6 = decimal count from rfl, stoi_decimal,
        if_neg (by omega)]
      exact ⟨_, _, rfl, Or.inl rfl⟩
  · obtain ⟨left, read⟩ := readLine_long (10 :: rest)
      (show 4096 ≤ ([] : Bytes).length + _ by rw [List.length_nil]; omega) (by decide)
      (not_mem_header count)
    unfold listPeersReply
    rw [read, Option.bind_some]
    dsimp only
    rw [if_pos (Or.inl rfl)]
    exact ⟨_, _, rfl, Or.inr rfl⟩

/-- The number counts one peer more than there are lines if the peer that asks is among them. -/
theorem length_filter_present {peers : List PeerInfo} (distinct : (peers.map (·.id)).Nodup)
    (myId : Bytes) :
    peers.length = (peers.filter (·.id ≠ myId)).length +
      if myId ∈ peers.map (·.id) then 1 else 0 := by
  have counted : (peers.map (·.id)).countP (· == myId) = if myId ∈ peers.map (·.id) then 1 else 0 :=
    distinct.count
  have own : (peers.filter fun info => !decide (info.id ≠ myId)).length =
      (peers.map (·.id)).countP (· == myId) := by
    rw [List.countP_map, List.countP_eq_length_filter]
    refine congrArg List.length (List.filter_congr fun info _ => ?_)
    rw [decide_not, Bool.not_not]
    exact (beq_eq_decide info.id myId).symm
  rw [← counted, ← own]
  exact List.length_eq_length_filter_add _

theorem writeLine_listResponse (peers : List PeerInfo) (myId : Bytes) :
    writeLine (listResponse peers myId) = ascii "PEERS " ++ decimal peers.length ++
      10 :: ((peers.filter (·.id ≠ myId)).flatMap (fun info => peerLine info ++ [10]) ++ [10]) := by
  unfold writeLine listResponse
  rw [List.append_assoc _ _ [10], List.append_assoc _ [10], List.singleton_append]

/-- What `list_peers` makes of the reply and what it leaves: the line that ends the reply, where all
peers have lines. -/
theorem listPeersReply_listResponse {peers : List PeerInfo}
    (wellFormed : ∀ info ∈ peers, info.WellFormed) (distinct : (peers.map (·.id)).Nodup)
    (small : peers.length < 2 ^ 31) (myId : Bytes) :
    listPeersReply (writeLine (listResponse peers myId)) =
      some (.peers ((peers.filter (·.id ≠ myId)).map PeerInfo.listed),
        if myId ∈ peers.map (·.id) then [] else [10]) := by
  have others : ∀ info ∈ peers.filter (·.id ≠ myId), info.WellFormed := fun info member =>
    wellFormed info (List.mem_of_mem_filter member)
  rw [writeLine_listResponse, listPeersReply_header _ _ small]
  nth_rewrite 1 [length_filter_present distinct myId]
  rw [readPeers_append others]
  split
  · show some (CallResult.peers (_ ++ []), _) = _
    rw [List.append_nil]
  · show some (CallResult.peers (_ ++ []), _) = _
    rw [List.append_nil]

end Lines

end AsyncNet.P2p
