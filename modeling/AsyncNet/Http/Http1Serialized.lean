/-
This file is about a request that the codec of HTTP/1.1 writes and reads again. The request line
and the header lines come back as they were, one after another, and the body does if the headers
announce its length. What does not come back is the query, which the codec never writes. A
request whose headers announce chunks does not either, since its body is written as it is.
-/

import AsyncNet.Http.Http1Requests
import AsyncNet.Http.RequestTargets

namespace AsyncNet.Http

open Library

/-! ### Requests that can be written -/

/-- No blank is at an end of the text. -/
structure Trimmed (text : Bytes) : Prop where
  front : ∀ byte ∈ text.head?, Http1.isBlank byte = false
  back : ∀ byte ∈ text.getLast?, Http1.isBlank byte = false

instance (text : Bytes) : Decidable (Trimmed text) :=
  @decidable_of_iff _ ((∀ byte ∈ text.head?, Http1.isBlank byte = false) ∧
    ∀ byte ∈ text.getLast?, Http1.isBlank byte = false)
    ⟨fun both => ⟨both.1, both.2⟩, fun trimmed => ⟨trimmed.front, trimmed.back⟩⟩
    (@instDecidableAnd _ _ (Option.decidableForallMem _) (Option.decidableForallMem _))

/-- A header of 7-bit text on one line, whose name has no colon. -/
structure CleanHeader (header : Header) : Prop where
  isAscii : IsAscii header.1 ∧ IsAscii header.2
  noColon : 58 ∉ header.1
  noReturn : 13 ∉ header.1 ∧ 13 ∉ header.2
  noFeed : 10 ∉ header.1 ∧ 10 ∉ header.2
  trimmed : Trimmed header.1 ∧ Trimmed header.2

instance (header : Header) : Decidable (CleanHeader header) :=
  decidable_of_iff ((IsAscii header.1 ∧ IsAscii header.2) ∧ 58 ∉ header.1 ∧
    (13 ∉ header.1 ∧ 13 ∉ header.2) ∧ (10 ∉ header.1 ∧ 10 ∉ header.2) ∧
    Trimmed header.1 ∧ Trimmed header.2)
    ⟨fun ⟨isAscii, noColon, noReturn, noFeed, trimmed⟩ =>
      ⟨isAscii, noColon, noReturn, noFeed, trimmed⟩,
    fun clean => ⟨clean.isAscii, clean.noColon, clean.noReturn, clean.noFeed, clean.trimmed⟩⟩

/-- A header that a line can hold: a name without a colon, no line break and no blank at an end. -/
structure LineHeader (header : Header) : Prop where
  noColon : 58 ∉ header.1
  noReturn : 13 ∉ header.1 ∧ 13 ∉ header.2
  trimmed : Trimmed header.1 ∧ Trimmed header.2

theorem CleanHeader.line {header : Header} (clean : CleanHeader header) : LineHeader header :=
  ⟨clean.noColon, clean.noReturn, clean.trimmed⟩

instance (header : Header) : Decidable (LineHeader header) :=
  decidable_of_iff (58 ∉ header.1 ∧ (13 ∉ header.1 ∧ 13 ∉ header.2) ∧
    Trimmed header.1 ∧ Trimmed header.2)
    ⟨fun ⟨noColon, noReturn, trimmed⟩ => ⟨noColon, noReturn, trimmed⟩,
    fun line => ⟨line.noColon, line.noReturn, line.trimmed⟩⟩

/-- A request with a path and a query that a request line can hold, and with clean headers. -/
structure Request.Clean (req : Request) : Prop where
  slash : req.path.head? = some 47
  path : 63 ∉ req.path ∧ 32 ∉ req.path ∧ 13 ∉ req.path ∧ 10 ∉ req.path
  query : 32 ∉ req.query ∧ 13 ∉ req.query ∧ 10 ∉ req.query
  headers : ∀ header ∈ req.hdrs, CleanHeader header

instance (req : Request) : Decidable req.Clean :=
  decidable_of_iff (req.path.head? = some 47 ∧
    (63 ∉ req.path ∧ 32 ∉ req.path ∧ 13 ∉ req.path ∧ 10 ∉ req.path) ∧
    (32 ∉ req.query ∧ 13 ∉ req.query ∧ 10 ∉ req.query) ∧
    ∀ header ∈ req.hdrs, CleanHeader header)
    ⟨fun ⟨slash, path, query, headers⟩ => ⟨slash, path, query, headers⟩,
    fun clean => ⟨clean.slash, clean.path, clean.query, clean.headers⟩⟩

/-- The request that was received is the one that was sent, with the headers of a list. -/
structure Request.CarriedAs (req : Request) (hdrs : Headers) (received : Request) : Prop where
  method : received.method = req.method
  path : received.path = req.path
  query : received.query = req.query
  hdrs : received.hdrs = hdrs
  bd : received.bd = req.bd

theorem Request.Clean.path_ne_nil {req : Request} (clean : req.Clean) : req.path ≠ [] := by
  intro empty
  have slash := clean.slash
  rw [empty] at slash
  exact absurd slash (Option.some_ne_none _).symm

/-- A clean path is a target of its own. -/
theorem Request.Clean.routeTarget_path {req : Request} (clean : req.Clean) :
    routeTarget req.path = (req.path, []) :=
  (routeTarget_eq_iff req.path).mpr ⟨clean.path_ne_nil, clean.path.1⟩

namespace Http1

/-! ### Header lines -/

/-- The line of a header. -/
def headerLine (header : Header) : Bytes := header.1 ++ ascii ": " ++ header.2

theorem dropWhile_of_head {text : Bytes} (front : ∀ byte ∈ text.head?, isBlank byte = false) :
    text.dropWhile isBlank = text := by
  cases text with
  | nil => rfl
  | cons byte rest => exact List.dropWhile_cons_of_neg (Bool.eq_false_iff.mp (front byte rfl))

theorem trimRight_of_trimmed {text : Bytes} (trimmed : Trimmed text) : trimRight text = text := by
  have front : ∀ byte ∈ text.reverse.head?, isBlank byte = false := by
    rw [List.head?_reverse]
    exact trimmed.back
  rw [trimRight, dropWhile_of_head front, List.reverse_reverse]

/-- A header is read from its line. -/
theorem splitHeader_headerLine {header : Header} (holds : LineHeader header) :
    splitHeader (headerLine header) = some header := by
  have line : headerLine header = header.1 ++ 58 :: (32 :: header.2) :=
    List.append_assoc header.1 (ascii ": ") header.2
  have colon : indexOf (ascii ":") (header.1 ++ 58 :: (32 :: header.2)) =
      some header.1.length := indexOf_singleton_append holds.noColon (32 :: header.2)
  have name : (header.1 ++ 58 :: (32 :: header.2)).take header.1.length = header.1 :=
    List.take_left
  have value : (header.1 ++ 58 :: (32 :: header.2)).drop (header.1.length + 1) =
      32 :: header.2 := drop_append_cons _ _ _
  have unblanked : (32 :: header.2).dropWhile isBlank = header.2 := by
    rw [List.dropWhile_cons_of_pos (by decide), dropWhile_of_head holds.trimmed.2.front]
  rw [splitHeader, line, colon, Option.map_some, name, value, unblanked,
    trimRight_of_trimmed holds.trimmed.1, trimRight_of_trimmed holds.trimmed.2]

theorem serialize_eq_flatMap (headers : Headers) :
    headers.serialize = (headers.map headerLine).flatMap (· ++ crlf) :=
  (List.flatMap_map headerLine (· ++ crlf) headers).symm

theorem headerLine_ne_nil (header : Header) : headerLine header ≠ [] := by
  unfold headerLine
  exact List.append_ne_nil_of_left_ne_nil (List.append_ne_nil_of_right_ne_nil _ (by decide)) _

theorem notMem_headerLine {header : Header} (holds : LineHeader header) :
    13 ∉ headerLine header := by
  simp only [headerLine, List.mem_append, not_or]
  exact ⟨⟨holds.noReturn.1, by decide⟩, holds.noReturn.2⟩

/-- The line of a header does not go on with the line before it. -/
theorem isBlank_head?_headerLine {header : Header} (holds : LineHeader header) (rest : Bytes) :
    ((headerLine header ++ rest).head?.map isBlank).getD false = false := by
  cases name : header.1 with
  | nil =>
    rw [headerLine, name]
    rfl
  | cons byte name' =>
    have front := holds.trimmed.1.front byte (by rw [name]; rfl)
    rw [headerLine, name]
    exact front

theorem unfoldLine_of_not_blank {rest : Bytes} (passes : Nat) (line : Bytes)
    (whole : (rest.head?.map isBlank).getD false = false) :
    unfoldLine passes line rest = (line, rest) := by
  cases passes with
  | zero => rfl
  | succ passes => rw [unfoldLine, if_neg (Bool.eq_false_iff.mp whole)]

theorem length_le_serialize (headers : Headers) :
    headers.length ≤ headers.serialize.length := by
  induction headers with
  | nil => exact Nat.zero_le _
  | cons header headers inductionHypothesis =>
    rw [serialize_eq_flatMap] at inductionHypothesis ⊢
    rw [List.map_cons, List.flatMap_cons, List.length_append, List.length_append, length_crlf,
      List.length_cons]
    omega

/-- The lines of headers are read as the headers, in their order. -/
theorem parseHeaderLines_serialize (headers : Headers)
    (holds : ∀ header ∈ headers, LineHeader header) (passes : Nat)
    (enough : headers.length ≤ passes) : parseHeaderLines passes headers.serialize = headers := by
  induction headers generalizing passes with
  | nil =>
    cases passes with
    | zero => rfl
    | succ passes => rfl
  | cons header headers inductionHypothesis =>
    obtain ⟨passes, rfl⟩ := Nat.exists_eq_succ_of_ne_zero (Nat.ne_zero_of_lt enough)
    have first := holds header List.mem_cons_self
    have later (other : Header) (member : other ∈ headers) :=
      holds other (List.mem_cons_of_mem header member)
    set rest := Headers.serialize headers with restEq
    have block : Headers.serialize (header :: headers) = headerLine header ++ (crlf ++ rest) :=
      List.append_assoc (headerLine header) crlf rest
    obtain ⟨length, long⟩ := Nat.exists_eq_succ_of_ne_zero
      (List.length_pos_of_ne_nil (headerLine_ne_nil header)).ne'
    have lineEnd : indexOf crlf (headerLine header ++ (crlf ++ rest)) = some (length + 1) :=
      (@indexOf_first _ _ 13 [10] _ (notMem_headerLine first) rest).trans
        (congrArg some long)
    have line : (headerLine header ++ (crlf ++ rest)).take (length + 1) = headerLine header := by
      rw [← Nat.succ_eq_add_one, ← long, List.take_left]
    have after : (headerLine header ++ (crlf ++ rest)).drop (length + 3) = rest := by
      rw [show length + 3 = (headerLine header).length + 2 by omega, ← List.drop_drop,
        List.drop_left]
      rfl
    have whole : (rest.head?.map isBlank).getD false = false := by
      cases headers with
      | nil => rfl
      | cons next headers =>
        rw [restEq, serialize_eq_flatMap, List.map_cons, List.flatMap_cons, List.append_assoc]
        exact isBlank_head?_headerLine (later next List.mem_cons_self) _
    rw [block, parseHeaderLines, lineEnd]
    dsimp only
    rw [line, after, unfoldLine_of_not_blank _ _ whole]
    dsimp only
    rw [splitHeader_headerLine first,
      inductionHypothesis later passes (Nat.le_of_succ_le_succ enough)]
    rfl

/-! ### The head -/

/-- The lines of a head with the line break after each. -/
def joinLines (lines : List Bytes) : Bytes := lines.flatMap (· ++ crlf)

/-- A blank line does not begin at a line break that text follows. -/
theorem indexOf_blankLine_crlf {text : Bytes} (differs : text.head? ≠ some 13) :
    indexOf blankLine (crlf ++ text) = (indexOf blankLine text).map (· + 2) := by
  have first : ¬ blankLine <+: 13 :: 10 :: text := by
    intro begins
    obtain ⟨rest, same⟩ := begins
    have tail : 13 :: 10 :: rest = text := (List.cons.inj (List.cons.inj same).2).2
    exact differs (by rw [← tail]; rfl)
  have second : ¬ blankLine <+: 10 :: text := fun begins =>
    absurd (List.cons_prefix_cons.mp begins).1 (by decide)
  show indexOf blankLine (13 :: 10 :: text) = _
  rw [indexOf, if_neg first, indexOf, if_neg second, Option.map_map]
  rfl

/-- The first blank line is the one behind the lines. -/
theorem exists_head_joinLines (line : Bytes) (lines : List Bytes)
    (whole : ∀ other ∈ line :: lines, other ≠ [] ∧ 13 ∉ other) :
    ∃ head, joinLines (line :: lines) ++ crlf = head ++ blankLine ∧
      indexOf blankLine (head ++ blankLine) = some head.length := by
  induction lines generalizing line with
  | nil =>
    refine ⟨line, ?_, @indexOf_first _ _ 13 [10, 13, 10] line (whole line List.mem_cons_self).2 []⟩
    simp only [joinLines, List.flatMap_cons, List.flatMap_nil, List.append_nil, List.append_assoc]
    rfl
  | cons next lines inductionHypothesis =>
    obtain ⟨head, split, found⟩ := inductionHypothesis next fun other member =>
      whole other (List.mem_cons_of_mem line member)
    have joined : joinLines (line :: next :: lines) ++ crlf =
        line ++ (crlf ++ (head ++ blankLine)) := by
      rw [← split]
      simp only [joinLines, List.flatMap_cons, List.append_assoc]
    have differs : (head ++ blankLine).head? ≠ some 13 := by
      obtain ⟨nonempty, noReturn⟩ := whole next (List.mem_cons_of_mem line List.mem_cons_self)
      obtain ⟨byte, rest, rfl⟩ := List.exists_cons_of_ne_nil nonempty
      rw [← split]
      exact fun same => noReturn (List.mem_cons.mpr (Or.inl (Option.some.inj same).symm))
    refine ⟨line ++ (crlf ++ head), ?_, ?_⟩
    · rw [joined]
      simp only [List.append_assoc]
    · have skipped : indexOf blankLine (line ++ (crlf ++ (head ++ blankLine))) =
          (indexOf blankLine (crlf ++ (head ++ blankLine))).map (· + line.length) :=
        @indexOf_of_not_mem _ _ 13 [10, 13, 10] line (whole line List.mem_cons_self).2 _
      rw [List.append_assoc, List.append_assoc, skipped, indexOf_blankLine_crlf differs, found]
      simp only [Option.map_some, List.length_append, length_crlf]
      exact congrArg some (by omega)

section Heads

variable {line : Bytes} {hdrs : Headers}

/-- The lines of a head have no line break in them. -/
theorem whole_lines (nonempty : line ≠ []) (noReturn : 13 ∉ line)
    (holds : ∀ header ∈ hdrs, LineHeader header) :
    ∀ other ∈ line :: hdrs.map headerLine, other ≠ [] ∧ 13 ∉ other := by
  intro other member
  rcases List.mem_cons.mp member with rfl | inHeaders
  · exact ⟨nonempty, noReturn⟩
  · obtain ⟨header, among, rfl⟩ := List.mem_map.mp inHeaders
    exact ⟨headerLine_ne_nil header, notMem_headerLine (holds header among)⟩

/-- The parts of a head: its first line and the header lines. -/
theorem parts_joinLines (line : Bytes) (hdrs : Headers) :
    (joinLines (line :: hdrs.map headerLine) ++ crlf).take line.length = line ∧
      ((joinLines (line :: hdrs.map headerLine) ++ crlf).drop (line.length + 2)).take
        ((joinLines (line :: hdrs.map headerLine) ++ crlf).length - line.length - 4) =
          hdrs.serialize := by
  have split : joinLines (line :: hdrs.map headerLine) ++ crlf =
      line ++ (crlf ++ (hdrs.serialize ++ crlf)) := by
    rw [serialize_eq_flatMap]
    simp only [joinLines, List.flatMap_cons, List.append_assoc]
  have rest : (line ++ (crlf ++ (hdrs.serialize ++ crlf))).drop (line.length + 2) =
      hdrs.serialize ++ crlf := by
    rw [← List.drop_drop, List.drop_left]
    rfl
  have length : (line ++ (crlf ++ (hdrs.serialize ++ crlf))).length - line.length - 4 =
      hdrs.serialize.length := by
    simp only [List.length_append, length_crlf]
    omega
  rw [split, rest, length, List.take_left, List.take_left]
  exact ⟨rfl, rfl⟩

/-- The first line break is behind the first line. -/
theorem indexOf_crlf_joinLines (noReturn : 13 ∉ line) :
    indexOf crlf (joinLines (line :: hdrs.map headerLine) ++ crlf) = some line.length := by
  rw [joinLines, List.flatMap_cons, List.append_assoc, List.append_assoc]
  exact @indexOf_first _ _ 13 [10] _ noReturn _

end Heads

section Requests

variable {req : Request}

/-- The request line. -/
def requestLine (req : Request) : Bytes :=
  req.method.toBytes ++ 32 :: (req.path ++ 32 :: req.ver.toBytes)

theorem serializeRequest_eq (req : Request) :
    serializeRequest req =
      joinLines (requestLine req :: req.hdrs.map headerLine) ++ crlf ++ req.bd := by
  have line : req.method.toBytes ++ ascii " " ++ req.path ++ ascii " " ++ req.ver.toBytes =
      requestLine req := by
    simp only [requestLine, List.append_assoc]
    rfl
  rw [serializeRequest, line, serialize_eq_flatMap]
  simp only [joinLines, List.flatMap_cons, List.append_assoc]

theorem notMem_toBytes (method : Method) : 32 ∉ method.toBytes ∧ 13 ∉ method.toBytes := by
  cases method <;> decide

theorem notMem_version (ver : Version) : 13 ∉ ver.toBytes := by
  cases ver <;> decide

theorem notMem_requestLine (clean : req.Clean) : 13 ∉ requestLine req := by
  simp only [requestLine, List.mem_append, List.mem_cons, not_or]
  exact ⟨(notMem_toBytes req.method).2, by decide, clean.path.2.2.1, by decide,
    notMem_version req.ver⟩

theorem requestLine_ne_nil (req : Request) : requestLine req ≠ [] :=
  List.append_ne_nil_of_right_ne_nil _ (List.cons_ne_nil _ _)

theorem lines_of_clean (clean : req.Clean) : ∀ header ∈ req.hdrs, LineHeader header :=
  fun header among => (clean.headers header among).line

/-- What the codec makes of the head of a clean request: all but the query and the body. -/
def headOf (req : Request) : Request :=
  { method := req.method
    path := req.path
    ver := if req.ver.toBytes = ascii "HTTP/1.0" then .http10 else .http11
    hdrs := req.hdrs }

theorem parseHead_joinLines (clean : req.Clean) :
    parseHead (joinLines (requestLine req :: req.hdrs.map headerLine) ++ crlf)
      (requestLine req).length
      (joinLines (requestLine req :: req.hdrs.map headerLine) ++ crlf).length =
        .ok (headOf req) := by
  obtain ⟨line, block⟩ := parts_joinLines (requestLine req) req.hdrs
  rw [parseHead, line, block, requestLine,
    parseRequestLine_eq (notMem_toBytes req.method).1 clean.path.2.1, parseMethod_toBytes,
    clean.routeTarget_path]
  dsimp only
  show Except.ok _ = _
  dsimp only
  rw [parseHeaderLines_serialize req.hdrs (lines_of_clean clean) _ (length_le_serialize req.hdrs)]
  rfl

/-- The codec reads the head of a clean request, and the body as the headers announce it. -/
theorem parseRequest_serializeRequest (clean : req.Clean) (more : Bytes) :
    parseRequest (serializeRequest req ++ more) =
      (parseBody (req.bd ++ more) req.hdrs).map fun result =>
        if result.complete then
          some ({ headOf req with bd := result.data },
            (serializeRequest req).length - req.bd.length + result.consumed)
        else none := by
  obtain ⟨head, split, found⟩ := exists_head_joinLines _ _
    (whole_lines (requestLine_ne_nil req) (notMem_requestLine clean) (lines_of_clean clean))
  have firstLine : indexOf crlf (head ++ blankLine) = some (requestLine req).length := by
    rw [← split]
    exact indexOf_crlf_joinLines (notMem_requestLine clean)
  have parsed : parseHead (head ++ blankLine) (requestLine req).length (head.length + 4) =
      .ok (headOf req) := by
    have whole := parseHead_joinLines clean
    rw [split, @List.length_append _ head blankLine] at whole
    exact whole
  have length : (serializeRequest req).length - req.bd.length = (head ++ blankLine).length := by
    rw [serializeRequest_eq, split, List.length_append, Nat.add_sub_cancel]
  rw [length, serializeRequest_eq, split, List.append_assoc, parseRequest_head found firstLine
    parsed]
  rfl

end Requests

/-! ### Chunks -/

section Chunks

variable {text : Bytes} {count position : Nat}

/-- A line break that is found is not among the letters behind the text. -/
theorem find_crlf_bounds {lineEnd : Nat}
    (found : find (text ++ List.replicate count 120) crlf position = some lineEnd) :
    position ≤ lineEnd ∧ lineEnd + 2 ≤ text.length := by
  obtain ⟨first, here, rfl⟩ := Option.map_eq_some_iff.mp found
  refine ⟨Nat.le_add_left _ _, ?_⟩
  obtain ⟨rest, same⟩ := prefix_drop_of_indexOf here
  rw [List.drop_drop] at same
  have feed : (text ++ List.replicate count 120)[position + first + 1]? = some 10 := by
    rw [← List.getElem?_drop, ← same]
    rfl
  by_contra long
  rw [List.getElem?_append_right (by omega), List.getElem?_replicate] at feed
  split at feed
  · exact absurd feed (by decide)
  · cases feed

/-- What a chunked body carries is shorter than the bytes that carry it, unless a position has
wrapped. Then the letters behind the text have been taken for data. -/
theorem length_parseChunks (small : text.length + count + 2 ≤ 2 ^ 64) {passes : Nat}
    {body : Bytes} {result : BodyResult}
    (parsed : parseChunks (text ++ List.replicate count 120) passes position body = .ok result)
    (complete : result.complete = true) :
    body.length ≤ result.data.length ∧ (count ≤ result.data.length ∨
      result.data.length + position < result.consumed + body.length) := by
  induction passes generalizing position body with
  | zero => cases parsed
  | succ passes inductionHypothesis =>
    rw [parseChunks] at parsed
    split at parsed
    · cases parsed
      cases complete
    · split at parsed
      · cases parsed
        cases complete
      · rename_i lineEnd found
        obtain ⟨later, inside⟩ := find_crlf_bounds found
        split at parsed
        · cases parsed
        · rename_i size _
          dsimp only at parsed
          split at parsed
          · split at parsed
            · cases parsed
              exact ⟨le_rfl, Or.inr (by dsimp only; omega)⟩
            · cases parsed
              cases complete
          · split at parsed
            · cases parsed
              cases complete
            · obtain ⟨longer, grown⟩ := inductionHypothesis parsed
              rw [List.length_append, List.length_take, List.length_drop, List.length_append,
                List.length_replicate] at longer grown
              refine ⟨by omega, ?_⟩
              rcases grown with taken | grown
              · exact Or.inl taken
              · by_cases wraps : lineEnd + 2 + size + 2 < 2 ^ 64
                · rw [Nat.mod_eq_of_lt wraps] at grown
                  exact Or.inr (by omega)
                · exact Or.inl (by omega)

end Chunks

/-! ### Requests that come back -/

/-- The codec reads a request as it has been written, and takes no more than its bytes, whatever
follows them. -/
def RoundTrips (req : Request) : Prop :=
  ∀ more, ∃ received,
    parseRequest (serializeRequest req ++ more) =
        .ok (some (received, (serializeRequest req).length)) ∧
      req.CarriedAs req.hdrs received

section RoundTrip

variable {req : Request}

theorem length_bd_le_serializeRequest (req : Request) :
    req.bd.length + 2 ≤ (serializeRequest req).length := by
  rw [serializeRequest_eq, List.length_append, List.length_append, length_crlf]
  omega

/-- What a request that comes back is read as. -/
theorem RoundTrips.parseBody_eq (roundTrips : RoundTrips req) (clean : req.Clean) (more : Bytes) :
    req.query = [] ∧ ∃ result, parseBody (req.bd ++ more) req.hdrs = .ok result ∧
      result.complete = true ∧ result.data = req.bd ∧ result.consumed = req.bd.length := by
  obtain ⟨received, read, carried⟩ := roundTrips more
  have long := length_bd_le_serializeRequest req
  rw [parseRequest_serializeRequest clean] at read
  cases parsed : parseBody (req.bd ++ more) req.hdrs with
  | error error =>
    rw [parsed] at read
    cases read
  | ok result =>
    rw [parsed] at read
    have read := Except.ok.inj read
    dsimp only at read
    split at read
    · rename_i complete
      obtain ⟨rfl, consumed⟩ := Prod.mk.inj (Option.some.inj read)
      exact ⟨carried.query.symm, result, rfl, complete, carried.bd, by omega⟩
    · cases read

/-- A request that announces chunks does not come back. -/
theorem not_roundTrips_of_isChunked (clean : req.Clean)
    (short : (serializeRequest req).length < 2 ^ 63) (chunked : req.hdrs.isChunked = true) :
    ¬ RoundTrips req := by
  intro roundTrips
  have long := length_bd_le_serializeRequest req
  obtain ⟨-, result, parsed, complete, data, consumed⟩ :=
    roundTrips.parseBody_eq clean (List.replicate (req.bd.length + 1) 120)
  rw [parseBody, if_pos chunked] at parsed
  obtain ⟨-, grown⟩ := length_parseChunks (by omega) parsed complete
  rw [data, consumed, List.length_nil] at grown
  omega

/-- A clean request whose body has the length that its headers announce comes back if and only if it
has no query and does not announce chunks. -/
theorem roundTrips_iff (clean : req.Clean)
    (announced : req.hdrs.contentLength = some req.bd.length)
    (short : (serializeRequest req).length < 2 ^ 63) :
    RoundTrips req ↔ req.query = [] ∧ req.hdrs.isChunked = false := by
  refine ⟨fun roundTrips => ⟨(roundTrips.parseBody_eq clean []).1, ?_⟩, ?_⟩
  · exact Bool.eq_false_iff.mpr fun chunked =>
      not_roundTrips_of_isChunked clean short chunked roundTrips
  · rintro ⟨noQuery, plain⟩ more
    have long := length_bd_le_serializeRequest req
    have body := parseBody_append (.length plain announced) (by omega) more
    refine ⟨{ headOf req with bd := req.bd }, ?_, rfl, rfl, noQuery.symm, rfl, rfl⟩
    rw [parseRequest_serializeRequest clean, body]
    show Except.ok (some (_, _)) = _
    rw [Nat.sub_add_cancel (by omega)]

end RoundTrip

end Http1

end AsyncNet.Http
