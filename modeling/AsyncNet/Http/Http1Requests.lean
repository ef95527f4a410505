/-
This file says what a request is on the wire, and that the codec finds the end of one. A
request is a head that an empty line ends and the body that the head announces, in one piece
or in chunks. The codec reads such a request whatever follows it, and it asks for more as
long as bytes of the request are missing.
-/

import AsyncNet.Http.Http1Codec

namespace AsyncNet.Http

open Library

namespace Http1

/-! ### Requests on the wire -/

/-- A line that gives the size of a chunk, with whatever extension. -/
structure SizeLine (line : Bytes) (size : Nat) : Prop where
  value : fromCharsHex line = some size
  whole : indexOf crlf (line ++ crlf) = some line.length

/-- A chunked body with the data that it carries. -/
inductive Chunked : Bytes → Bytes → Prop
  | last {line : Bytes} (sizeLine : SizeLine line 0) : Chunked (line ++ crlf ++ crlf) []
  | chunk {line data wire body : Bytes} (sizeLine : SizeLine line data.length)
      (nonempty : data ≠ []) (later : Chunked wire body) :
      Chunked (line ++ crlf ++ (data ++ crlf ++ wire)) (data ++ body)

/-- The body that the headers announce, with the data that it carries. -/
inductive BodyOf (hdrs : Headers) : Bytes → Bytes → Prop
  | none (plain : hdrs.isChunked = false) (unknown : hdrs.contentLength = none) : BodyOf hdrs [] []
  | length {data : Bytes} (plain : hdrs.isChunked = false)
      (known : hdrs.contentLength = some data.length) : BodyOf hdrs data data
  | chunked {wire data : Bytes} (isChunked : hdrs.isChunked = true) (chunks : Chunked wire data) :
      BodyOf hdrs wire data

/-- A request on the wire: a head that the codec understands, an empty line and the body. A string
can hold it. -/
inductive WellFormed : Bytes → Request → Prop
  | request {head body data : Bytes} {firstLineEnd : Nat} {req : Request}
      (ends : indexOf blankLine (head ++ blankLine) = some head.length)
      (firstLine : indexOf crlf (head ++ blankLine) = some firstLineEnd)
      (parsed : parseHead (head ++ blankLine) firstLineEnd (head.length + 4) = .ok req)
      (hasBody : BodyOf req.hdrs body data)
      (short : (head ++ blankLine ++ body).length < 2 ^ 63) :
      WellFormed (head ++ blankLine ++ body) { req with bd := data }

theorem crlf_ne_nil : crlf ≠ [] := by decide

theorem length_crlf : crlf.length = 2 := rfl

theorem blankLine_ne_nil : blankLine ≠ [] := by decide

theorem length_blankLine : blankLine.length = 4 := rfl

/-! ### Chunks -/

section Chunks

variable (front : Bytes) (passes : Nat) (body : Bytes)

theorem find_append_left (text pattern : Bytes) :
    find (front ++ text) pattern front.length =
      (indexOf pattern text).map (· + front.length) := by
  rw [find, List.drop_left]

/-- A chunk whose size line has not come in. -/
theorem parseChunks_noLine {text : Bytes} (none : indexOf crlf text = none) :
    ∃ result, parseChunks (front ++ text) (passes + 1) front.length body = .ok result ∧
      result.complete = false := by
  rw [parseChunks, find_append_left, none]
  split
  · exact ⟨_, rfl, rfl⟩
  · exact ⟨_, rfl, rfl⟩

/-- A chunk whose size line has come in. -/
theorem parseChunks_line {line : Bytes} {size : Nat} (sizeLine : SizeLine line size)
    (rest : Bytes) :
    parseChunks (front ++ (line ++ crlf ++ rest)) (passes + 1) front.length body =
      let start := (front ++ (line ++ crlf)).length
      if size = 0 then
        if 2 ≤ rest.length then .ok { data := body, consumed := start + 2, complete := true }
        else .ok { data := body, consumed := start }
      else
        let next := (start + size + 2) % 2 ^ 64
        if start + rest.length < next then .ok { data := body }
        else
          parseChunks (front ++ (line ++ crlf ++ rest)) passes next (body ++ rest.take size) := by
  have found := indexOf_append sizeLine.whole crlf_ne_nil rest
  have total : (front ++ (line ++ crlf ++ rest)).length =
      (front ++ (line ++ crlf)).length + rest.length := by
    simp only [List.length_append, Nat.add_assoc]
  have start : line.length + front.length + 2 = (front ++ (line ++ crlf)).length := by
    simp only [List.length_append, length_crlf]
    omega
  have notDone : ¬ (front ++ (line ++ crlf ++ rest)).length ≤ front.length := by
    rw [total, ← start]
    omega
  have sizeText : ((front ++ (line ++ crlf ++ rest)).drop front.length).take
      (line.length + front.length - front.length) = line := by
    rw [List.drop_left, Nat.add_sub_cancel, List.append_assoc, List.take_left]
  have tail : (front ++ (line ++ crlf ++ rest)).drop (front ++ (line ++ crlf)).length = rest := by
    have joined : front ++ (line ++ crlf ++ rest) = front ++ (line ++ crlf) ++ rest :=
      (List.append_assoc front (line ++ crlf) rest).symm
    rw [joined, List.drop_left]
  rw [parseChunks, if_neg notDone, find_append_left, found]
  dsimp only [Option.map_some]
  rw [sizeText, sizeLine.value]
  dsimp only
  rw [start, tail, total]
  simp only [Nat.add_le_add_iff_left]

/-- What has been read of a chunked body after one of its chunks. -/
def afterChunk (line data : Bytes) : Bytes := front ++ (line ++ crlf) ++ (data ++ crlf)

theorem append_afterChunk (line data rest : Bytes) :
    front ++ (line ++ crlf ++ (data ++ crlf ++ rest)) = afterChunk front line data ++ rest := by
  simp only [afterChunk, List.append_assoc]

theorem length_afterChunk (line data : Bytes) :
    (afterChunk front line data).length = (front ++ (line ++ crlf)).length + data.length + 2 := by
  simp only [afterChunk, List.length_append, length_crlf]
  omega

/-- A chunk that has come in is taken, and the next one is looked at. -/
theorem parseChunks_chunk {line data : Bytes} (sizeLine : SizeLine line data.length)
    (nonempty : data ≠ []) (rest : Bytes) (short : (afterChunk front line data).length < 2 ^ 64) :
    parseChunks (front ++ (line ++ crlf ++ (data ++ crlf ++ rest))) (passes + 1) front.length body =
      parseChunks (afterChunk front line data ++ rest) passes (afterChunk front line data).length
        (body ++ data) := by
  have positive : data.length ≠ 0 := List.length_pos_of_ne_nil nonempty |>.ne'
  have taken : (data ++ crlf ++ rest).take data.length = data := by
    rw [List.append_assoc, List.take_left]
  have fits : ¬ (front ++ (line ++ crlf)).length + (data ++ crlf ++ rest).length <
      (afterChunk front line data).length := by
    simp only [length_afterChunk, List.length_append, length_crlf]
    omega
  rw [parseChunks_line front passes body sizeLine, if_neg positive, ← length_afterChunk,
    Nat.mod_eq_of_lt short]
  dsimp only
  rw [if_neg fits, taken, append_afterChunk]

/-- A chunked body is read whatever follows it. -/
theorem parseChunks_chunked {wire data : Bytes} (chunks : Chunked wire data) (more : Bytes)
    (short : (front ++ wire).length < 2 ^ 63) (enough : wire.length ≤ passes) :
    parseChunks (front ++ (wire ++ more)) passes front.length body =
      .ok { data := body ++ data, consumed := (front ++ wire).length, complete := true } := by
  induction chunks generalizing front passes body with
  | @last line sizeLine =>
    have positive : 0 < passes := by
      rw [List.length_append, length_crlf] at enough
      omega
    obtain ⟨passes, rfl⟩ := Nat.exists_eq_succ_of_ne_zero positive.ne'
    have two : 2 ≤ (crlf ++ more).length := by
      rw [List.length_append, length_crlf]
      omega
    have consumed : (front ++ (line ++ crlf)).length + 2 =
        (front ++ (line ++ crlf ++ crlf)).length := by
      simp only [List.length_append, length_crlf]
      omega
    rw [List.append_assoc (line ++ crlf), parseChunks_line front passes body sizeLine, if_pos rfl,
      if_pos two, List.append_nil, consumed]
  | @chunk line data wire rest sizeLine nonempty later inductionHypothesis =>
    have positive : 0 < passes := by
      rw [List.length_append, List.length_append, length_crlf] at enough
      omega
    obtain ⟨passes, rfl⟩ := Nat.exists_eq_succ_of_ne_zero positive.ne'
    rw [append_afterChunk] at short ⊢
    have shortFront : (afterChunk front line data).length < 2 ^ 64 := by
      rw [List.length_append] at short
      omega
    have fewer : wire.length ≤ passes := by
      simp only [List.length_append, length_crlf] at enough
      omega
    rw [show line ++ crlf ++ (data ++ crlf ++ wire) ++ more =
        line ++ crlf ++ (data ++ crlf ++ (wire ++ more)) by simp only [List.append_assoc],
      parseChunks_chunk front passes body sizeLine nonempty _ shortFront,
      inductionHypothesis _ passes _ short fewer, List.append_assoc]

/-- As long as bytes of a chunked body are missing, more are asked for. -/
theorem parseChunks_prefix {wire data text : Bytes} (chunks : Chunked wire data)
    (isPrefix : text <+: wire) (proper : text ≠ wire) (short : (front ++ wire).length < 2 ^ 63)
    (enough : text.length < passes) :
    ∃ result, parseChunks (front ++ text) passes front.length body = .ok result ∧
      result.complete = false := by
  induction chunks generalizing front passes body text with
  | @last line sizeLine =>
    obtain ⟨passes, rfl⟩ := Nat.exists_eq_succ_of_ne_zero (Nat.zero_lt_of_lt enough).ne'
    obtain none | ⟨rest, rfl, begins⟩ :=
      indexOf_prefix_cases crlf_ne_nil sizeLine.whole isPrefix
    · exact parseChunks_noLine front passes body none
    · have less : ¬ 2 ≤ rest.length := by
        intro two
        have whole := begins.eq_of_length_le (by rw [length_crlf]; exact two)
        exact proper (by rw [whole])
      rw [parseChunks_line front passes body sizeLine, if_pos rfl, if_neg less]
      exact ⟨_, rfl, rfl⟩
  | @chunk line data wire carried sizeLine nonempty later inductionHypothesis =>
    obtain ⟨passes, rfl⟩ := Nat.exists_eq_succ_of_ne_zero (Nat.zero_lt_of_lt enough).ne'
    rw [append_afterChunk] at short
    have shortFront : (afterChunk front line data).length < 2 ^ 64 := by
      rw [List.length_append] at short
      omega
    obtain none | ⟨rest, rfl, begins⟩ :=
      indexOf_prefix_cases crlf_ne_nil sizeLine.whole isPrefix
    · exact parseChunks_noLine front passes body none
    · by_cases whole : (data ++ crlf).length ≤ rest.length
      · obtain ⟨rest, rfl⟩ := List.prefix_of_prefix_length_le
          (List.prefix_append (data ++ crlf) wire) begins whole
        rw [parseChunks_chunk front passes body sizeLine nonempty rest shortFront]
        refine inductionHypothesis _ passes _ ((List.prefix_append_right_inj _).mp begins)
          (fun same => proper (by rw [same])) short ?_
        simp only [List.length_append, length_crlf] at enough
        omega
      · have positive : data.length ≠ 0 := List.length_pos_of_ne_nil nonempty |>.ne'
        have missing : (front ++ (line ++ crlf)).length + rest.length <
            (afterChunk front line data).length := by
          rw [length_afterChunk]
          rw [List.length_append, length_crlf] at whole
          omega
        rw [parseChunks_line front passes body sizeLine, if_neg positive, ← length_afterChunk,
          Nat.mod_eq_of_lt shortFront]
        dsimp only
        rw [if_pos missing]
        exact ⟨_, rfl, rfl⟩

end Chunks

/-! ### Bodies -/

section Bodies

variable {hdrs : Headers} {wire data : Bytes}

theorem parseBody_append (is : BodyOf hdrs wire data) (short : wire.length < 2 ^ 63)
    (more : Bytes) :
    parseBody (wire ++ more) hdrs =
      .ok { data := data, consumed := wire.length, complete := true } := by
  cases is with
  | none plain unknown =>
    rw [parseBody, if_neg (Bool.eq_false_iff.mp plain), unknown]
    rfl
  | length plain known =>
    have enough : ¬ (wire ++ more).length < wire.length := by
      rw [List.length_append]
      exact not_lt.mpr (Nat.le_add_right _ _)
    rw [parseBody, if_neg (Bool.eq_false_iff.mp plain), known]
    dsimp only
    rw [if_neg enough, List.take_left]
  | chunked isChunked chunks =>
    have enough : wire.length ≤ (wire ++ more).length + 1 := by
      rw [List.length_append]
      omega
    rw [parseBody, if_pos isChunked]
    exact parseChunks_chunked [] _ [] chunks more short enough

theorem parseBody_prefix {text : Bytes} (is : BodyOf hdrs wire data) (short : wire.length < 2 ^ 63)
    (isPrefix : text <+: wire) (proper : text ≠ wire) :
    ∃ result, parseBody text hdrs = .ok result ∧ result.complete = false := by
  cases is with
  | none plain unknown => exact absurd (List.prefix_nil.mp isPrefix) proper
  | length plain known =>
    have less : text.length < wire.length :=
      lt_of_not_ge fun long => proper (isPrefix.eq_of_length_le long)
    rw [parseBody, if_neg (Bool.eq_false_iff.mp plain), known]
    dsimp only
    rw [if_pos less]
    exact ⟨_, rfl, rfl⟩
  | chunked isChunked chunks =>
    rw [parseBody, if_pos isChunked]
    exact parseChunks_prefix [] _ [] chunks isPrefix proper short (Nat.lt_succ_self _)

end Bodies

/-! ### Heads -/

/-- The bytes that end a head. -/
theorem findHeaderEnd_eq {data : Bytes} {headerEnd : Nat}
    (found : findHeaderEnd data = some headerEnd) :
    headerEnd ≤ data.length ∧ ∃ firstLineEnd, firstLineEnd + 4 ≤ headerEnd ∧
      indexOf crlf data = some firstLineEnd := by
  obtain ⟨position, here, rfl⟩ := Option.map_eq_some_iff.mp found
  have fits := indexOf_add_length_le here blankLine_ne_nil
  have begins : crlf <+: blankLine := by decide
  obtain ⟨first, before, line⟩ :=
    exists_indexOf_le (begins.trans (prefix_drop_of_indexOf here)) crlf_ne_nil
  exact ⟨fits, first, Nat.add_le_add_right before 4, line⟩

section Heads

variable {text data : Bytes} {headerEnd : Nat}

theorem findHeaderEnd_prefix (isPrefix : text <+: data)
    (found : findHeaderEnd data = some headerEnd) :
    findHeaderEnd text = if text.length < headerEnd then none else some headerEnd := by
  obtain ⟨position, here, rfl⟩ := Option.map_eq_some_iff.mp found
  unfold findHeaderEnd
  by_cases short : text.length < position + 4
  · rw [if_pos short, Option.map_eq_none_iff]
    cases other : indexOf blankLine text with
    | none => rfl
    | some first =>
      have same := indexOf_unique isPrefix blankLine_ne_nil here other
      have fits := indexOf_add_length_le other blankLine_ne_nil
      rw [length_blankLine] at fits
      omega
  · rw [if_neg short, indexOf_isPrefix isPrefix blankLine_ne_nil here (Nat.not_lt.mp short)]
    rfl

theorem findHeaderEnd_prefix_none (isPrefix : text <+: data) (none : findHeaderEnd data = none) :
    findHeaderEnd text = .none := by
  unfold findHeaderEnd at none ⊢
  rw [Option.map_eq_none_iff] at none ⊢
  cases here : indexOf blankLine text with
  | none => rfl
  | some first =>
    obtain ⟨more, rfl⟩ := isPrefix
    rw [indexOf_append here blankLine_ne_nil more] at none
    cases none


end Heads

/-! ### Requests -/

/-- What follows the head does not change what the head says. -/
theorem parseHead_append (text more : Bytes) (firstLineEnd : Nat)
    (fits : firstLineEnd + 2 ≤ text.length) :
    parseHead (text ++ more) firstLineEnd text.length =
      parseHead text firstLineEnd text.length := by
  have line : (text ++ more).take firstLineEnd = text.take firstLineEnd :=
    List.take_append_of_le_length (by omega)
  have block : ((text ++ more).drop (firstLineEnd + 2)).take (text.length - firstLineEnd - 4) =
      (text.drop (firstLineEnd + 2)).take (text.length - firstLineEnd - 4) := by
    rw [List.drop_append_of_le_length fits, List.take_append_of_le_length]
    rw [List.length_drop]
    omega
  rw [parseHead, parseHead, line, block]

section Requests

variable {head : Bytes} {firstLineEnd : Nat} {req : Request}

/-- What the codec makes of a request whose head has come in, by the head and by its body. -/
theorem parseRequest_bind (ends : indexOf blankLine (head ++ blankLine) = some head.length)
    (firstLine : indexOf crlf (head ++ blankLine) = some firstLineEnd) (rest : Bytes) :
    parseRequest (head ++ blankLine ++ rest) =
      (parseHead (head ++ blankLine) firstLineEnd (head.length + 4)).bind fun req =>
        (parseBody rest req.hdrs).map fun result =>
          if result.complete then
            some ({ req with bd := result.data }, (head ++ blankLine).length + result.consumed)
          else none := by
  have length : (head ++ blankLine).length = head.length + 4 := List.length_append
  have found := indexOf_append ends blankLine_ne_nil rest
  have line := indexOf_append firstLine crlf_ne_nil rest
  have fits := indexOf_add_length_le firstLine crlf_ne_nil
  have same := parseHead_append (head ++ blankLine) rest firstLineEnd fits
  rw [parseRequest, findHeaderEnd, found]
  dsimp only [Option.map_some]
  rw [line, ← length]
  dsimp only
  rw [same, List.drop_left]
  cases parseHead (head ++ blankLine) firstLineEnd (head ++ blankLine).length with
  | error error => rfl
  | ok req =>
    show (parseBody rest req.hdrs >>= _) = (parseBody rest req.hdrs).map _
    cases parseBody rest req.hdrs <;> rfl

/-- A request whose head has come in: what is left is to read its body. -/
theorem parseRequest_head (ends : indexOf blankLine (head ++ blankLine) = some head.length)
    (firstLine : indexOf crlf (head ++ blankLine) = some firstLineEnd)
    (parsed : parseHead (head ++ blankLine) firstLineEnd (head.length + 4) = .ok req)
    (rest : Bytes) :
    parseRequest (head ++ blankLine ++ rest) =
      (parseBody rest req.hdrs).map fun result =>
        if result.complete then
          some ({ req with bd := result.data }, (head ++ blankLine).length + result.consumed)
        else none := by
  rw [parseRequest_bind ends firstLine, parsed]
  rfl

end Requests

variable {wire : Bytes} {req : Request}

theorem WellFormed.length_pos (wellFormed : WellFormed wire req) : 0 < wire.length := by
  cases wellFormed with
  | @request head body =>
    rw [List.length_append, List.length_append, length_blankLine]
    omega

/-- The codec reads a request whatever follows it. -/
theorem WellFormed.parseRequest_append (wellFormed : WellFormed wire req) (more : Bytes) :
    parseRequest (wire ++ more) = .ok (some (req, wire.length)) := by
  cases wellFormed with
  | @request head body data firstLineEnd start ends firstLine parsed hasBody short =>
    have shortBody : body.length < 2 ^ 63 := by
      rw [List.length_append] at short
      omega
    have total : (head ++ blankLine ++ body).length = (head ++ blankLine).length + body.length :=
      List.length_append
    rw [List.append_assoc, parseRequest_head ends firstLine parsed,
      parseBody_append hasBody shortBody, total]
    rfl

/-- As long as bytes of a request are missing, the codec asks for more. -/
theorem WellFormed.parseRequest_prefix (wellFormed : WellFormed wire req) {text : Bytes}
    (isPrefix : text <+: wire) (proper : text ≠ wire) : parseRequest text = .ok none := by
  cases wellFormed with
  | @request head body data firstLineEnd start ends firstLine parsed hasBody short =>
    have shortBody : body.length < 2 ^ 63 := by
      rw [List.length_append] at short
      omega
    obtain none | ⟨rest, rfl, begins⟩ := indexOf_prefix_cases blankLine_ne_nil ends isPrefix
    · rw [parseRequest, findHeaderEnd, none]
      rfl
    · obtain ⟨result, incomplete, missing⟩ := parseBody_prefix hasBody shortBody begins
        fun same => proper (by rw [same])
      rw [parseRequest_head ends firstLine parsed, incomplete]
      show Except.ok (if result.complete = true then _ else _) = _
      rw [missing]
      rfl

end Http1

end AsyncNet.Http
