/-
This file follows the fields of a request and of a response through the header list
that is sent for them. The header list of a well-formed request gives its method and its
path back, that of a well-formed response its status, and both are 7-bit text.
-/

import AsyncNet.Http.Decimal
import AsyncNet.Http.Http2Reading

namespace AsyncNet.Http

open Library H2

/-! ### Names -/

/-- No name of the list starts with a colon, as those of the pseudo headers do. -/
def PlainNames (headers : Headers) : Prop := ∀ header ∈ headers, header.1.head? ≠ some 58

instance (headers : Headers) : Decidable (PlainNames headers) :=
  inferInstanceAs (Decidable (∀ header ∈ headers, _))

theorem lowerByte_ascii (byte : UInt8) : byte < 128 → lowerByte byte < 128 := by
  revert byte
  exact forall_byte (by decide +kernel)

theorem lowerByte_colon (byte : UInt8) : lowerByte byte = 58 → byte = 58 := by
  revert byte
  exact forall_byte (by decide +kernel)

theorem isAscii_toLower (text : Bytes) (isAscii : IsAscii text) : IsAscii (toLower text) := by
  intro byte member
  obtain ⟨original, before, rfl⟩ := List.mem_map.mp member
  exact lowerByte_ascii original (isAscii original before)

theorem head?_toLower (text : Bytes) (plain : text.head? ≠ some 58) :
    (toLower text).head? ≠ some 58 := by
  cases text with
  | nil => exact fun wrong => absurd wrong (Option.some_ne_none _).symm
  | cons byte rest =>
    intro colon
    exact plain (congrArg some (lowerByte_colon byte (Option.some.inj colon)))

section Copied

variable (skips : List Bytes) (headers : Headers)

/-- A header that is copied is one of the list, with its name in lower case. -/
theorem mem_copiedHeaders (header : Header)
    (copied : header ∈ Connection.copiedHeaders skips headers) :
    ∃ original ∈ headers, header = (toLower original.1, original.2) := by
  obtain ⟨original, member, rfl⟩ := List.mem_map.mp (List.mem_filter.mp copied).1
  exact ⟨original, member, rfl⟩

theorem asciiHeaders_copiedHeaders (isAscii : AsciiHeaders headers) :
    AsciiHeaders (Connection.copiedHeaders skips headers) := by
  intro header copied
  obtain ⟨original, member, rfl⟩ := mem_copiedHeaders skips headers header copied
  exact ⟨isAscii_toLower original.1 (isAscii original member).1, (isAscii original member).2⟩

theorem plainNames_copiedHeaders (plain : PlainNames headers) :
    PlainNames (Connection.copiedHeaders skips headers) := by
  intro header copied
  obtain ⟨original, member, rfl⟩ := mem_copiedHeaders skips headers header copied
  exact head?_toLower original.1 (plain original member)

end Copied

theorem mem_of_get (headers : Headers) (name value : Bytes)
    (found : Headers.get headers name = some value) : ∃ header ∈ headers, header.2 = value := by
  obtain ⟨header, member, -, is⟩ := Headers.entry_of_get found
  exact ⟨header, member, is⟩

/-- The name of a plain header is none of the names that start with a colon. -/
theorem name_ne_of_plain {name pseudo : Bytes} (plain : name.head? ≠ some 58)
    (colon : pseudo.head? = some 58) : name ≠ pseudo := by
  rintro rfl
  exact plain colon

theorem getD_ne_of_plain {name : Bytes} (plain : name.head? ≠ some 58) : name.getD 0 0 ≠ 58 := by
  cases name with
  | nil => decide
  | cons byte rest => exact fun colon => plain (congrArg some colon)

/-! ### Requests -/

/-- A request whose path and headers can be sent. -/
structure Request.WellFormed (req : Request) : Prop where
  slash : req.path.head? = some 47
  noQuery : 63 ∉ req.path
  isAscii : IsAscii req.path
  headersAscii : AsciiHeaders req.hdrs
  plain : PlainNames req.hdrs

namespace Connection

theorem applyRequestHeader_plain (req : Request) (header : Header)
    (plain : header.1.head? ≠ some 58) :
    applyRequestHeader req header =
      { req with hdrs := Headers.append req.hdrs header.1 header.2 } := by
  unfold applyRequestHeader
  dsimp only
  rw [if_neg (name_ne_of_plain plain (by decide)), if_neg (name_ne_of_plain plain (by decide)),
    if_neg (not_or.mpr ⟨name_ne_of_plain plain (by decide), name_ne_of_plain plain (by decide)⟩),
    if_pos (getD_ne_of_plain plain)]

/-- Headers with plain names are kept, in their order. -/
theorem foldl_applyRequestHeader_plain (headers : Headers) (req : Request)
    (plain : PlainNames headers) :
    headers.foldl applyRequestHeader req = { req with hdrs := req.hdrs ++ headers } := by
  induction headers generalizing req with
  | nil => rw [List.foldl_nil, List.append_nil]
  | cons header headers inductionHypothesis =>
    rw [List.foldl_cons, applyRequestHeader_plain req header (plain header List.mem_cons_self),
      inductionHypothesis _ fun later member => plain later (List.mem_cons_of_mem header member)]
    dsimp only [Headers.append]
    rw [List.append_assoc]
    rfl

theorem applyRequestHeader_method (req : Request) (method : Method) :
    applyRequestHeader req (ascii ":method", method.toBytes) = { req with method := method } := by
  unfold applyRequestHeader
  dsimp only
  rw [if_pos rfl, parseMethod_toBytes]

theorem applyRequestHeader_path (req : Request) (path : Bytes) (nonempty : path ≠ [])
    (noQuery : 63 ∉ path) :
    applyRequestHeader req (ascii ":path", path) = { req with path := path } := by
  have whole : splitPath path = (path, none) := by
    have absent : path.findIdx? (· = 63) = none := by
      rw [List.findIdx?_eq_none_iff]
      intro byte member
      exact decide_eq_false fun question => noQuery (question ▸ member)
    rw [splitPath, absent]
  unfold applyRequestHeader
  dsimp only
  rw [if_neg (by decide), if_pos rfl, whole]
  dsimp only
  rw [if_neg nonempty]
  rfl

theorem applyRequestHeader_scheme (req : Request) (scheme : Bytes) :
    applyRequestHeader req (ascii ":scheme", scheme) = req := by
  unfold applyRequestHeader
  dsimp only
  rw [if_neg (by decide), if_neg (by decide), if_pos (Or.inl rfl), if_neg (by decide)]

theorem applyRequestHeader_authority (req : Request) (host : Bytes) :
    applyRequestHeader req (ascii ":authority", host) =
      { req with hdrs := Headers.append req.hdrs (ascii "Host") host } := by
  unfold applyRequestHeader
  dsimp only
  rw [if_neg (by decide), if_neg (by decide), if_pos (Or.inr rfl), if_pos rfl]

end Connection

theorem Request.WellFormed.path_ne_nil {req : Request} (wellFormed : req.WellFormed) :
    req.path ≠ [] := by
  intro empty
  have slash := wellFormed.slash
  rw [empty] at slash
  exact absurd slash (Option.some_ne_none _).symm

/-- What the headers of a request give. The target is used for the path and the query. -/
theorem foldl_applyRequestHeader (method : Method) (target scheme host : Bytes) (others : Headers)
    (plain : PlainNames others) {req : Request}
    (placed : Connection.applyRequestHeader { method := method } (ascii ":path", target) = req)
    (empty : req.hdrs = []) :
    ([(ascii ":method", method.toBytes), (ascii ":path", target), (ascii ":scheme", scheme),
        (ascii ":authority", host)] ++ others).foldl Connection.applyRequestHeader {} =
      { req with hdrs := (ascii "Host", host) :: others } := by
  rw [List.foldl_append, List.foldl_cons, List.foldl_cons, List.foldl_cons, List.foldl_cons,
    List.foldl_nil, Connection.applyRequestHeader_method, placed,
    Connection.applyRequestHeader_scheme, Connection.applyRequestHeader_authority,
    Connection.foldl_applyRequestHeader_plain others _ plain, empty]
  rfl

/-- The handler is given a well-formed request with the host as its first header, and with the
names of the others in lower case. -/
theorem request_requestMessage_eq (req : Request) (wellFormed : req.WellFormed) :
    (requestMessage req).request =
      { method := req.method
        path := req.path
        ver := .http2
        hdrs := (ascii "Host", (Headers.get req.hdrs (ascii "Host")).getD (ascii "localhost")) ::
          Connection.copiedHeaders [ascii "host", ascii "connection"] req.hdrs
        bd := req.bd } := by
  have nonempty := wellFormed.path_ne_nil
  have placed := Connection.applyRequestHeader_path { method := req.method } req.path nonempty
    wellFormed.noQuery
  unfold Message.request Message.requestHead requestMessage
  dsimp only
  unfold Connection.requestHeaders
  rw [if_neg nonempty, foldl_applyRequestHeader _ _ _ _ _
    (plainNames_copiedHeaders _ req.hdrs wellFormed.plain) placed rfl]

/-- The handler is given the method, the path and the body of a well-formed request. -/
theorem request_requestMessage (req : Request) (wellFormed : req.WellFormed) :
    (requestMessage req).request.method = req.method ∧
      (requestMessage req).request.path = req.path ∧ (requestMessage req).request.bd = req.bd := by
  rw [request_requestMessage_eq req wellFormed]
  exact ⟨rfl, rfl, rfl⟩

theorem isAscii_toBytes (method : Method) : IsAscii method.toBytes := by
  cases method <;> decide

theorem isAscii_host (headers : Headers) (isAscii : AsciiHeaders headers) :
    IsAscii ((Headers.get headers (ascii "Host")).getD (ascii "localhost")) := by
  cases host : Headers.get headers (ascii "Host") with
  | none => decide
  | some value =>
    obtain ⟨header, member, rfl⟩ := mem_of_get headers _ value host
    exact (isAscii header member).2

theorem asciiHeaders_requestHeaders (req : Request) (wellFormed : req.WellFormed) :
    AsciiHeaders (Connection.requestHeaders req) := by
  intro header member
  unfold Connection.requestHeaders at member
  rw [if_neg wellFormed.path_ne_nil] at member
  rcases List.mem_append.mp member with pseudo | copied
  · simp only [List.mem_cons, List.not_mem_nil, or_false] at pseudo
    rcases pseudo with rfl | rfl | rfl | rfl
    · exact ⟨show IsAscii (ascii ":method") by decide, isAscii_toBytes req.method⟩
    · exact ⟨show IsAscii (ascii ":path") by decide, wellFormed.isAscii⟩
    · exact ⟨by decide, by decide⟩
    · exact ⟨show IsAscii (ascii ":authority") by decide,
        isAscii_host req.hdrs wellFormed.headersAscii⟩
  · exact asciiHeaders_copiedHeaders _ req.hdrs wellFormed.headersAscii header copied

/-! ### Responses -/

/-- A response whose status and headers can be sent. -/
structure Response.WellFormed (resp : Response) : Prop where
  low : 100 ≤ resp.status.code
  high : resp.status.code ≤ 599
  headersAscii : AsciiHeaders resp.hdrs
  plain : PlainNames resp.hdrs
  trailersAscii : AsciiHeaders resp.trailers
  trailersPlain : PlainNames resp.trailers

/-- A status is written and read back. -/
theorem fromChars_toString (code : Int) (low : 100 ≤ code) (high : code ≤ 599) :
    fromChars (toString code) = code := by
  rw [toString, if_neg (by omega), fromChars_decimal _ (by omega)]
  exact Int.natAbs_of_nonneg (by omega)

theorem isAscii_decimal (value : Nat) : IsAscii (decimal value) := by
  intro byte member
  obtain ⟨digit, written, rfl⟩ := List.mem_map.mp member
  obtain ⟨same, _, high⟩ := toNat_digit written
  rw [UInt8.lt_iff_toNat_lt, same]
  exact lt_of_le_of_lt high (by decide)

theorem isAscii_toString (code : Int) : IsAscii (toString code) := by
  unfold toString
  split
  · intro byte member
    rcases List.mem_append.mp member with sign | digit
    · exact (show IsAscii (ascii "-") by decide) byte sign
    · exact isAscii_decimal _ byte digit
  · exact isAscii_decimal _

namespace Connection

theorem applyResponseHeader_plain (resp : Response) (header : Header)
    (plain : header.1.head? ≠ some 58) :
    applyResponseHeader resp header =
      { resp with hdrs := Headers.append resp.hdrs header.1 header.2 } := by
  unfold applyResponseHeader
  dsimp only
  rw [if_neg (name_ne_of_plain plain (by decide)), if_pos (getD_ne_of_plain plain)]

/-- Headers with plain names are kept, in their order. -/
theorem foldl_applyResponseHeader_plain (headers : Headers) (resp : Response)
    (plain : PlainNames headers) :
    headers.foldl applyResponseHeader resp = { resp with hdrs := resp.hdrs ++ headers } := by
  induction headers generalizing resp with
  | nil => rw [List.foldl_nil, List.append_nil]
  | cons header headers inductionHypothesis =>
    rw [List.foldl_cons, applyResponseHeader_plain resp header (plain header List.mem_cons_self),
      inductionHypothesis _ fun later member => plain later (List.mem_cons_of_mem header member)]
    dsimp only [Headers.append]
    rw [List.append_assoc]
    rfl

theorem applyResponseHeader_status (resp : Response) (value : Bytes) :
    applyResponseHeader resp (ascii ":status", value) =
      { resp with status := ⟨fromChars value⟩ } := by
  unfold applyResponseHeader
  dsimp only
  rw [if_pos rfl]

/-- The headers of a response besides the status. -/
theorem responseHeaders_eq (resp : Response) :
    ∃ rest, responseHeaders resp = (ascii ":status", toString resp.status.code) :: rest ∧
      (PlainNames resp.hdrs → PlainNames rest) ∧ (AsciiHeaders resp.hdrs → AsciiHeaders rest) := by
  set start := (responseStart resp).tail
  set length := if resp.bd ≠ [] then [(ascii "content-length", decimal resp.bd.length)] else []
  set copied := copiedHeaders responseSkips resp.hdrs
  have fields : ∀ header ∈ start ++ length ++ copied,
      (PlainNames resp.hdrs → header.1.head? ≠ some 58) ∧
        (AsciiHeaders resp.hdrs → IsAscii header.1 ∧ IsAscii header.2) := by
    intro header member
    rcases List.mem_append.mp member with front | copied
    · rcases List.mem_append.mp front with contentType | contentLength
      · unfold start responseStart at contentType
        rw [List.tail_cons] at contentType
        split at contentType
        · exact absurd contentType List.not_mem_nil
        · rename_i value found
          obtain ⟨entry, is, rfl⟩ := mem_of_get resp.hdrs _ value found
          rw [List.mem_singleton.mp contentType]
          exact ⟨fun _ => show (ascii "content-type").head? ≠ some 58 by decide,
            fun isAscii => ⟨show IsAscii (ascii "content-type") by decide, (isAscii entry is).2⟩⟩
      · unfold length at contentLength
        split at contentLength
        · rw [List.mem_singleton.mp contentLength]
          exact ⟨fun _ => show (ascii "content-length").head? ≠ some 58 by decide,
            fun _ => ⟨show IsAscii (ascii "content-length") by decide, isAscii_decimal _⟩⟩
        · exact absurd contentLength List.not_mem_nil
    · exact ⟨fun plain => plainNames_copiedHeaders _ resp.hdrs plain header copied,
        fun isAscii => asciiHeaders_copiedHeaders _ resp.hdrs isAscii header copied⟩
  exact ⟨start ++ length ++ copied, rfl, fun plain header member => (fields header member).1 plain,
    fun isAscii header member => (fields header member).2 isAscii⟩

end Connection

theorem asciiHeaders_responseHeaders (resp : Response) (isAscii : AsciiHeaders resp.hdrs) :
    AsciiHeaders (Connection.responseHeaders resp) := by
  obtain ⟨rest, split, _, others⟩ := Connection.responseHeaders_eq resp
  rw [split]
  intro header member
  rcases List.mem_cons.mp member with rfl | later
  · exact ⟨show IsAscii (ascii ":status") by decide, isAscii_toString resp.status.code⟩
  · exact others isAscii header later

/-- The promise is given a well-formed response with its headers as they are sent, the trailers
among them. -/
theorem response_responseMessage_eq (resp : Response) (wellFormed : resp.WellFormed) :
    (responseMessage resp).response =
      { status := resp.status
        ver := .http2
        hdrs := (Connection.responseHeaders resp).tail ++
          Connection.copiedHeaders [] resp.trailers
        bd := resp.bd } := by
  obtain ⟨rest, split, names, _⟩ := Connection.responseHeaders_eq resp
  have plain := names wellFormed.plain
  have trailersPlain := plainNames_copiedHeaders [] resp.trailers wellFormed.trailersPlain
  have head : (responseMessage resp).responseHead =
      { status := resp.status, ver := .http2, hdrs := rest } := by
    unfold Message.responseHead responseMessage
    dsimp only
    rw [split, List.foldl_cons, Connection.applyResponseHeader_status,
      Connection.foldl_applyResponseHeader_plain rest _ plain,
      fromChars_toString resp.status.code wellFormed.low wellFormed.high]
    rfl
  rw [Message.response, head, split, List.tail_cons]
  by_cases bare : resp.trailers = []
  · rw [show (responseMessage resp).trailers = none from if_pos bare, bare]
    rw [show Connection.copiedHeaders [] [] = [] from rfl, List.append_nil]
    rfl
  · rw [show (responseMessage resp).trailers = some _ from if_neg bare]
    dsimp only
    rw [Connection.foldl_applyResponseHeader_plain _ _ trailersPlain]
    rfl

/-- The promise is given the status and the body of a well-formed response. -/
theorem response_responseMessage (resp : Response) (wellFormed : resp.WellFormed) :
    (responseMessage resp).response.status = resp.status ∧
      (responseMessage resp).response.bd = resp.bd := by
  rw [response_responseMessage_eq resp wellFormed]
  exact ⟨rfl, rfl⟩

end AsyncNet.Http
