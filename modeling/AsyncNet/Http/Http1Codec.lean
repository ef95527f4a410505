/-
This file models the HTTP/1.1 codec of `src/http/http1_codec.cpp`: the parsers of requests
and of responses, which are run again on a growing buffer until it holds a whole message, and
the serializers of both. Positions are those of the source, and `size_t` sums wrap where
the source adds what the peer has sent.
-/

import AsyncNet.Http.Types

namespace AsyncNet.Http

open Library

/-- What `parse_request` ends with if it neither returns nor asks for more: the exceptions it
throws, or a body whose chunk sizes make its loop go round without end. -/
inductive ParseError where
  | invalidRequestLine
  | unknownMethod (method : Bytes)
  | invalidChunkSize
  | endless
  deriving DecidableEq, Repr

/-- The text of the exception. -/
def ParseError.what : ParseError → Option Bytes
  | .invalidRequestLine => some (ascii "Invalid request line")
  | .unknownMethod method => some (ascii "Unknown HTTP method: " ++ method)
  | .invalidChunkSize => some (ascii "Invalid chunk size")
  | .endless => none

/-- What `parse_response` ends with if it neither returns nor asks for more. -/
inductive ResponseError where
  | invalidStatusLine
  | invalidStatusCode
  | ofBody (error : ParseError)
  deriving DecidableEq, Repr

/-- The text of the exception. -/
def ResponseError.what : ResponseError → Option Bytes
  | .invalidStatusLine => some (ascii "Invalid status line")
  | .invalidStatusCode => some (ascii "Invalid status code")
  | .ofBody error => error.what

/-- The result of `parse_body`. -/
structure BodyResult where
  data : Bytes := []
  consumed : Nat := 0
  complete : Bool := false
  deriving DecidableEq, Repr

namespace Http1

def crlf : Bytes := ascii "\r\n"

def blankLine : Bytes := ascii "\r\n\r\n"

/-- `std::string::find` from a position on. -/
def find (data pattern : Bytes) (position : Nat) : Option Nat :=
  (indexOf pattern (data.drop position)).map (· + position)

/-- `find_header_end`. -/
def findHeaderEnd (data : Bytes) : Option Nat :=
  (indexOf blankLine data).map (· + 4)

/-! ### Header lines -/

def isBlank (byte : UInt8) : Bool := byte = 32 || byte = 9

def trimRight (text : Bytes) : Bytes := (text.reverse.dropWhile isBlank).reverse

/-- The inner loop of `parse_header_lines`: a line that goes on after a blank is joined. Each pass
takes a byte, so the number of bytes bounds them. -/
def unfoldLine : Nat → Bytes → Bytes → Bytes × Bytes
  | 0, line, rest => (line, rest)
  | passes + 1, line, rest =>
      if (rest.head?.map isBlank).getD false then
        match indexOf crlf rest with
        | none => (line, rest)
        | some lineEnd =>
            unfoldLine passes (line ++ ascii " " ++ (rest.take lineEnd).drop 1)
              (rest.drop (lineEnd + 2))
      else (line, rest)

/-- A header line that is split at its first colon. A line without one is skipped. -/
def splitHeader (line : Bytes) : Option Header :=
  (indexOf (ascii ":") line).map fun colon =>
    (trimRight (line.take colon), trimRight ((line.drop (colon + 1)).dropWhile isBlank))

/-- `parse_header_lines`, from a position on. Each pass takes a byte. -/
def parseHeaderLines : Nat → Bytes → Headers
  | 0, _ => []
  | passes + 1, rest =>
      match indexOf crlf rest with
      | none => []
      | some 0 => []
      | some (lineEnd + 1) =>
          let (line, rest) :=
            unfoldLine rest.length (rest.take (lineEnd + 1)) (rest.drop (lineEnd + 3))
          (splitHeader line).toList ++ parseHeaderLines passes rest

/-! ### Bodies -/

/-- The loop of `parse_body` for a chunked body. Sums of positions and chunk sizes wrap. A pass that
comes to a position it has been at before goes round without end, so as many passes as there are
positions tell. -/
def parseChunks (data : Bytes) : Nat → Nat → Bytes → Except ParseError BodyResult
  | 0, _, _ => .error .endless
  | passes + 1, position, body =>
      if data.length ≤ position then .ok { data := body }
      else
        match find data crlf position with
        | none => .ok { data := body, consumed := position }
        | some lineEnd =>
            match fromCharsHex ((data.drop position).take (lineEnd - position)) with
            | none => .error .invalidChunkSize
            | some size =>
                let start := lineEnd + 2
                if size = 0 then
                  if start + 2 ≤ data.length then
                    .ok { data := body, consumed := start + 2, complete := true }
                  else .ok { data := body, consumed := start }
                else
                  let next := (start + size + 2) % 2 ^ 64
                  if data.length < next then .ok { data := body }
                  else parseChunks data passes next (body ++ (data.drop start).take size)

/-- `parse_body`. -/
def parseBody (data : Bytes) (hdrs : Headers) : Except ParseError BodyResult :=
  if hdrs.isChunked then parseChunks data (data.length + 1) 0 []
  else
    match hdrs.contentLength with
    | some length =>
        if data.length < length then .ok {}
        else .ok { data := data.take length, consumed := length, complete := true }
    | none => .ok { complete := true }

/-! ### Requests -/

/-- The path and the query of a request target. -/
def splitTarget (target : Bytes) : Bytes × Bytes :=
  match indexOf (ascii "?") target with
  | none => (target, [])
  | some position => (target.take position, target.drop (position + 1))

/-- The request line of `parse_request`. -/
def parseRequestLine (line : Bytes) : Except ParseError Request :=
  match indexOf (ascii " ") line with
  | none => .error .invalidRequestLine
  | some first =>
      match find line (ascii " ") (first + 1) with
      | none => .error .invalidRequestLine
      | some second =>
          match parseMethod (line.take first) with
          | none => .error (.unknownMethod (line.take first))
          | some method =>
              let (path, query) := splitTarget ((line.drop (first + 1)).take (second - first - 1))
              .ok
                { method
                  path := if path = [] then ascii "/" else path
                  query
                  ver := if line.drop (second + 1) = ascii "HTTP/1.0" then .http10 else .http11 }

/-- The request line and the header lines: all of a request but its body. -/
def parseHead (data : Bytes) (firstLineEnd headerEnd : Nat) : Except ParseError Request := do
  let req ← parseRequestLine (data.take firstLineEnd)
  let block := (data.drop (firstLineEnd + 2)).take (headerEnd - firstLineEnd - 4)
  return { req with hdrs := parseHeaderLines block.length block }

/-- `parse_request`: the request and the number of bytes it takes, or nothing when more are
needed. -/
def parseRequest (data : Bytes) : Except ParseError (Option (Request × Nat)) :=
  match findHeaderEnd data with
  | none => .ok none
  | some headerEnd =>
      match indexOf crlf data with
      | none => .ok none
      | some firstLineEnd => do
          let req ← parseHead data firstLineEnd headerEnd
          let result ← parseBody (data.drop headerEnd) req.hdrs
          return if result.complete then
              some ({ req with bd := result.data }, headerEnd + result.consumed)
            else none

/-! ### Responses -/

/-- The status line of `parse_response`. -/
def parseStatusLine (line : Bytes) : Except ResponseError Response :=
  match indexOf (ascii " ") line with
  | none => .error .invalidStatusLine
  | some first =>
      let rest := line.drop (first + 1)
      let code := fromChars
        (match indexOf (ascii " ") rest with
        | none => rest
        | some second => rest.take second)
      if code < 100 ∨ 599 < code then .error .invalidStatusCode
      else
        .ok
          { status := ⟨code⟩
            ver := if line.take first = ascii "HTTP/1.0" then .http10 else .http11 }

/-- The status line and the header lines: all of a response but its body. -/
def parseResponseHead (data : Bytes) (firstLineEnd headerEnd : Nat) :
    Except ResponseError Response := do
  let resp ← parseStatusLine (data.take firstLineEnd)
  let block := (data.drop (firstLineEnd + 2)).take (headerEnd - firstLineEnd - 4)
  return { resp with hdrs := parseHeaderLines block.length block }

/-- A response that has no body, unless its headers announce one. -/
def isBodiless (status : StatusCode) : Bool :=
  status.code = 204 || status.code = 304 || (100 ≤ status.code && status.code < 200)

/-- The body of a response. One that the headers do not announce is whatever has come. -/
def parseResponseBody (resp : Response) (data : Bytes) :
    Except ResponseError (Option (Response × Nat)) :=
  if resp.hdrs.contentLength = none ∧ resp.hdrs.isChunked = false then
    if isBodiless resp.status then .ok (some (resp, 0))
    else if data = [] then .ok none
    else .ok (some ({ resp with bd := data }, data.length))
  else
    match parseBody data resp.hdrs with
    | .error error => .error (.ofBody error)
    | .ok result =>
        .ok (if result.complete then some ({ resp with bd := result.data }, result.consumed)
          else none)

/-- `parse_response`: the response and the number of bytes it takes, or nothing when more are
needed. -/
def parseResponse (data : Bytes) : Except ResponseError (Option (Response × Nat)) :=
  match findHeaderEnd data with
  | none => .ok none
  | some headerEnd =>
      match indexOf crlf data with
      | none => .ok none
      | some firstLineEnd => do
          let resp ← parseResponseHead data firstLineEnd headerEnd
          return (← parseResponseBody resp (data.drop headerEnd)).map fun (resp, consumed) =>
            (resp, headerEnd + consumed)

/-! ### Serializing -/

/-- `serialize(request)`. -/
def serializeRequest (req : Request) : Bytes :=
  req.method.toBytes ++ ascii " " ++ req.path ++ ascii " " ++ req.ver.toBytes ++ crlf ++
    req.hdrs.serialize ++ crlf ++ req.bd

/-- `serialize(response)`. -/
def serializeResponse (resp : Response) : Bytes :=
  resp.ver.toBytes ++ ascii " " ++ toString resp.status.code ++ ascii " " ++
    resp.status.reasonPhrase ++ crlf ++ resp.hdrs.serialize ++ crlf ++ resp.bd

end Http1

end AsyncNet.Http
