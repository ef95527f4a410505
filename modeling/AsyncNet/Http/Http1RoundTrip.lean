/-
This file is about a response that the codec of HTTP/1.1 writes and reads again. The status line and
the header lines come back as they were, and the body is as long as the headers announce, so it may
hold line breaks and header lines of its own, and whatever follows it is left where it is.
-/

import AsyncNet.Http.Decimal
import AsyncNet.Http.Http1Responses
import AsyncNet.Http.Http1Serialized

namespace AsyncNet.Http

open Library

namespace Http1

/-- A response that the codec can write so that it can be read: a status that is one, a version of
HTTP/1, headers that lines can hold, and the length of the body among them and no encoding. -/
structure Announced (resp : Response) : Prop where
  status : 100 ≤ resp.status.code ∧ resp.status.code ≤ 599
  version : resp.ver = .http10 ∨ resp.ver = .http11
  headers : ∀ header ∈ resp.hdrs, LineHeader header
  plain : resp.hdrs.get (ascii "Transfer-Encoding") = none
  length : resp.hdrs.contentLength = some resp.bd.length

instance (resp : Response) : Decidable (Announced resp) :=
  decidable_of_iff ((100 ≤ resp.status.code ∧ resp.status.code ≤ 599) ∧
    (resp.ver = .http10 ∨ resp.ver = .http11) ∧ (∀ header ∈ resp.hdrs, LineHeader header) ∧
    resp.hdrs.get (ascii "Transfer-Encoding") = none ∧
    resp.hdrs.contentLength = some resp.bd.length)
    ⟨fun ⟨status, version, headers, plain, length⟩ => ⟨status, version, headers, plain, length⟩,
    fun announced => ⟨announced.status, announced.version, announced.headers, announced.plain,
      announced.length⟩⟩

section StatusLines

/-- The status line. -/
def statusLine (resp : Response) : Bytes :=
  resp.ver.toBytes ++ 32 :: (toString resp.status.code ++ 32 :: resp.status.reasonPhrase)

theorem toString_of_nonneg {value : Int} (nonneg : 0 ≤ value) :
    toString value = decimal value.toNat := by
  rw [toString, if_neg (Int.not_lt.mpr nonneg)]
  exact congrArg decimal (by omega)

theorem notMem_decimal {byte : UInt8} (other : isDigit byte = false) (value : Nat) :
    byte ∉ decimal value := fun member => by
  rw [isDigit_of_mem_decimal member] at other
  cases other

theorem notMem_reasonPhrase (status : StatusCode) : 13 ∉ status.reasonPhrase := by
  unfold StatusCode.reasonPhrase
  split <;> decide

theorem notMem_version_space (ver : Version) : 32 ∉ ver.toBytes := by
  cases ver <;> decide

variable {resp : Response}

theorem notMem_statusLine (announced : Announced resp) : 13 ∉ statusLine resp := by
  have code := toString_of_nonneg (Int.le_trans (by decide) announced.status.1)
  simp only [statusLine, code, List.mem_append, List.mem_cons, not_or]
  exact ⟨notMem_version resp.ver, by decide, notMem_decimal rfl _, by decide,
    notMem_reasonPhrase resp.status⟩

/-- The status line is read as it was written. -/
theorem parseStatusLine_statusLine (announced : Announced resp) :
    parseStatusLine (statusLine resp) = .ok { status := resp.status, ver := resp.ver } := by
  obtain ⟨low, high⟩ := announced.status
  have code := toString_of_nonneg (Int.le_trans (by decide) low)
  have first : indexOf (ascii " ") (statusLine resp) = some resp.ver.toBytes.length :=
    indexOf_singleton_append (notMem_version_space resp.ver) _
  have rest : (statusLine resp).drop (resp.ver.toBytes.length + 1) =
      toString resp.status.code ++ 32 :: resp.status.reasonPhrase := drop_append_cons _ _ _
  have second : indexOf (ascii " ") (toString resp.status.code ++ 32 :: resp.status.reasonPhrase) =
      some (toString resp.status.code).length := by
    rw [code]
    exact indexOf_singleton_append (notMem_decimal rfl _) _
  have version : (statusLine resp).take resp.ver.toBytes.length = resp.ver.toBytes := List.take_left
  have value : fromChars (toString resp.status.code) = resp.status.code := by
    rw [code, fromChars_decimal _ (by omega), Int.toNat_of_nonneg (by omega)]
  rw [parseStatusLine, first]
  dsimp only
  rw [rest, second]
  dsimp only
  simp only [List.take_left, value, version]
  rw [if_neg (by omega)]
  rcases announced.version with http | http <;> rw [http] <;> rfl

theorem statusLine_ne_nil (resp : Response) : statusLine resp ≠ [] :=
  List.append_ne_nil_of_right_ne_nil _ (List.cons_ne_nil _ _)

end StatusLines

section Responses

variable {resp : Response}

theorem serializeResponse_eq (resp : Response) :
    serializeResponse resp =
      joinLines (statusLine resp :: resp.hdrs.map headerLine) ++ crlf ++ resp.bd := by
  have line : resp.ver.toBytes ++ ascii " " ++ toString resp.status.code ++ ascii " " ++
      resp.status.reasonPhrase = statusLine resp := by
    simp only [statusLine, List.append_assoc]
    rfl
  rw [serializeResponse, line, serialize_eq_flatMap]
  simp only [joinLines, List.flatMap_cons, List.append_assoc]

theorem parseResponseHead_joinLines (announced : Announced resp) :
    parseResponseHead (joinLines (statusLine resp :: resp.hdrs.map headerLine) ++ crlf)
      (statusLine resp).length
      (joinLines (statusLine resp :: resp.hdrs.map headerLine) ++ crlf).length =
        .ok { status := resp.status, ver := resp.ver, hdrs := resp.hdrs } := by
  obtain ⟨line, block⟩ := parts_joinLines (statusLine resp) resp.hdrs
  rw [parseResponseHead, line, block, parseStatusLine_statusLine announced]
  show Except.ok _ = _
  dsimp only
  rw [parseHeaderLines_serialize resp.hdrs announced.headers _ (length_le_serialize resp.hdrs)]

/-- A response comes back as it was written, but for the trailers, whatever follows it. -/
theorem parseResponse_serializeResponse (announced : Announced resp) (more : Bytes) :
    parseResponse (serializeResponse resp ++ more) =
      .ok (some ({ resp with trailers := [] }, (serializeResponse resp).length)) := by
  have noReturn := notMem_statusLine announced
  obtain ⟨head, split, found⟩ := exists_head_joinLines _ _
    (whole_lines (statusLine_ne_nil resp) noReturn announced.headers)
  have firstLine : indexOf crlf (head ++ blankLine) = some (statusLine resp).length := by
    rw [← split]
    exact indexOf_crlf_joinLines noReturn
  have parsed : parseResponseHead (head ++ blankLine) (statusLine resp).length
      (head ++ blankLine).length =
        .ok { status := resp.status, ver := resp.ver, hdrs := resp.hdrs } := by
    rw [← split]
    exact parseResponseHead_joinLines announced
  have length : (head ++ blankLine).length = head.length + 4 := List.length_append
  have headerEnd : findHeaderEnd (head ++ blankLine ++ (resp.bd ++ more)) =
      some (head ++ blankLine).length := by
    rw [findHeaderEnd, indexOf_append found blankLine_ne_nil, length]
    rfl
  obtain ⟨inside, lineEnd, fits, line⟩ := findHeaderEnd_eq headerEnd
  obtain rfl : lineEnd = (statusLine resp).length :=
    Option.some_inj.mp (line.symm.trans (indexOf_append firstLine crlf_ne_nil _))
  have same := parseResponseHead_isPrefix
    (List.prefix_append (head ++ blankLine) (resp.bd ++ more)) fits le_rfl
  have plain : resp.hdrs.isChunked = false := by rw [Headers.isChunked, announced.plain]
  have body : parseResponseBody { status := resp.status, ver := resp.ver, hdrs := resp.hdrs }
      (resp.bd ++ more) = .ok (some ({ resp with trailers := [] }, resp.bd.length)) := by
    have enough : ¬ (resp.bd ++ more).length < resp.bd.length := by
      rw [List.length_append]
      omega
    have read := @parseResponseBody_length
      { status := resp.status, ver := resp.ver, hdrs := resp.hdrs } _ plain announced.length
      (resp.bd ++ more)
    rw [if_neg enough, List.take_left] at read
    exact read
  have total : (head ++ blankLine ++ resp.bd).length =
      (head ++ blankLine).length + resp.bd.length := List.length_append
  rw [serializeResponse_eq, split, List.append_assoc,
    parseResponse_head List.prefix_rfl headerEnd fits line inside, ← same, parsed, List.drop_left,
    total]
  show (parseResponseBody _ (resp.bd ++ more)).map _ = _
  rw [body]
  rfl

end Responses

/-- A body of a header line and an empty line, and a byte behind it. -/
def misleading : Response :=
  { status := ⟨404⟩
    ver := .http10
    hdrs := [(ascii "Set-Cookie", ascii "a: b"), (ascii "content-length", ascii "11")]
    bd := ascii "Host: x\r\n\r\n" }

theorem parseResponse_serializeResponse_misleading :
    parseResponse (serializeResponse misleading ++ ascii "H") =
      .ok (some (misleading, (serializeResponse misleading).length)) :=
  parseResponse_serializeResponse (by decide +kernel) _

end Http1

end AsyncNet.Http
