/-
This file models the protocol-independent HTTP types of
`include/async_net/http/types.hpp`: methods, versions, status codes, the ordered
case-insensitive header container, requests, responses and the response builder
behind the canned error responses. A `std::string` is a list of bytes, so header
names, values, paths and bodies may hold any octet.
-/

import AsyncNet.Library.Search
import Mathlib.Algebra.Group.Int.Defs
import Mathlib.Algebra.Group.Nat.Defs
import Mathlib.Data.List.Basic

namespace AsyncNet.Http

/-- The contents of a `std::string`. -/
abbrev Bytes := List UInt8

instance : LawfulBEq Bytes := inferInstance

/-- A string literal of the source. -/
def ascii (text : String) : Bytes := text.toList.map fun character => UInt8.ofNat character.toNat

/-- Every byte of the string is 7-bit ASCII. -/
def IsAscii (text : Bytes) : Prop := ∀ byte ∈ text, byte < 128

instance (text : Bytes) : Decidable (IsAscii text) :=
  List.decidableBAll (· < 128) text

/-! ### Methods, versions and status codes -/

inductive Method where
  | get | head | post | put | delete | patch | options | trace | connect
  deriving DecidableEq, Repr

/-- `to_string(method)`. -/
def Method.toBytes : Method → Bytes
  | .get => ascii "GET"
  | .head => ascii "HEAD"
  | .post => ascii "POST"
  | .put => ascii "PUT"
  | .delete => ascii "DELETE"
  | .patch => ascii "PATCH"
  | .options => ascii "OPTIONS"
  | .trace => ascii "TRACE"
  | .connect => ascii "CONNECT"

/-- `parse_method`. -/
def parseMethod (text : Bytes) : Option Method :=
  if text = ascii "GET" then some .get
  else if text = ascii "HEAD" then some .head
  else if text = ascii "POST" then some .post
  else if text = ascii "PUT" then some .put
  else if text = ascii "DELETE" then some .delete
  else if text = ascii "PATCH" then some .patch
  else if text = ascii "OPTIONS" then some .options
  else if text = ascii "TRACE" then some .trace
  else if text = ascii "CONNECT" then some .connect
  else none

theorem parseMethod_toBytes (method : Method) : parseMethod method.toBytes = some method := by
  cases method <;> decide

inductive Version where
  | http10 | http11 | http2 | http3
  deriving DecidableEq, Repr

/-- `to_string(version)`. -/
def Version.toBytes : Version → Bytes
  | .http10 => ascii "HTTP/1.0"
  | .http11 => ascii "HTTP/1.1"
  | .http2 => ascii "HTTP/2"
  | .http3 => ascii "HTTP/3"

/-- `status_code`: any `int`, 200 by default. -/
structure StatusCode where
  code : Int := 200
  deriving DecidableEq, Repr

/-- `status_code::reason_phrase`. -/
def StatusCode.reasonPhrase (status : StatusCode) : Bytes :=
  ascii <|
    match status.code with
    | 100 => "Continue"
    | 200 => "OK"
    | 201 => "Created"
    | 204 => "No Content"
    | 301 => "Moved Permanently"
    | 302 => "Found"
    | 304 => "Not Modified"
    | 400 => "Bad Request"
    | 401 => "Unauthorized"
    | 403 => "Forbidden"
    | 404 => "Not Found"
    | 405 => "Method Not Allowed"
    | 408 => "Request Timeout"
    | 413 => "Payload Too Large"
    | 500 => "Internal Server Error"
    | 502 => "Bad Gateway"
    | 503 => "Service Unavailable"
    | _ => "Unknown"

/-- `std::to_string` of a non-negative integer. -/
def decimal (value : Nat) : Bytes :=
  (Nat.toDigits 10 value).map fun digit => UInt8.ofNat digit.toNat

/-- `std::to_string` of an `int`. -/
def toString (value : Int) : Bytes :=
  if value < 0 then ascii "-" ++ decimal value.natAbs else decimal value.natAbs

def isDigit (byte : UInt8) : Bool := 48 ≤ byte && byte ≤ 57

/-- The value of a run of decimal digits. -/
def digitsValue (digits : Bytes) : Nat :=
  digits.foldl (fun value digit => 10 * value + (digit.toNat - 48)) 0

/-- `std::from_chars` into an `int` that holds `0`: an optional minus sign and the longest run
of digits. Without a digit, or when the value does not fit, the variable keeps its `0`. -/
def fromChars (text : Bytes) : Int :=
  let negative := text.head? = some 45
  let digits := (if negative then text.tail else text).takeWhile isDigit
  let value : Int := if negative then -(digitsValue digits : Int) else digitsValue digits
  if digits = [] then 0
  else if -2147483648 ≤ value ∧ value ≤ 2147483647 then value
  else 0

/-- `std::from_chars` into an `int64_t`, which keeps its value without a digit or when the number
does not fit. -/
def fromChars64 (text : Bytes) (kept : Int) : Int :=
  let negative := text.head? = some 45
  let digits := (if negative then text.tail else text).takeWhile isDigit
  let value : Int := if negative then -(digitsValue digits : Int) else digitsValue digits
  if digits = [] then kept
  else if -2 ^ 63 ≤ value ∧ value < 2 ^ 63 then value
  else kept

/-- The value of a hexadecimal digit. -/
def hexDigit (byte : UInt8) : Option Nat :=
  if isDigit byte then some (byte.toNat - 48)
  else if 97 ≤ byte ∧ byte ≤ 102 then some (byte.toNat - 87)
  else if 65 ≤ byte ∧ byte ≤ 70 then some (byte.toNat - 55)
  else none

/-- `std::from_chars` into a `size_t` with base 16: the longest run of digits, if there is one and
its value fits. -/
def fromCharsHex (text : Bytes) : Option Nat :=
  let digits := text.takeWhile fun byte => (hexDigit byte).isSome
  let value := (digits.filterMap hexDigit).foldl (fun value digit => 16 * value + digit) 0
  if digits = [] then none else if value < 2 ^ 64 then some value else none

/-! ### Headers -/

/-- `std::tolower` in the C locale. -/
def lowerByte (byte : UInt8) : UInt8 :=
  if 65 ≤ byte ∧ byte ≤ 90 then byte + 32 else byte

/-- `headers::to_lower`, and `to_lower_header` of the HTTP/2 session. -/
def toLower (text : Bytes) : Bytes := text.map lowerByte

/-- A header name with its value. -/
abbrev Header := Bytes × Bytes

/-- The `headers` container: the entries in insertion order. -/
abbrev Headers := List Header

namespace Headers

/-- `headers::append`. -/
def append (entries : Headers) (name value : Bytes) : Headers := entries ++ [(name, value)]

/-- `headers::set`: every entry of that name, in any letter case, is replaced by one at the
end. -/
def set (entries : Headers) (name value : Bytes) : Headers :=
  (entries.filter fun entry => toLower entry.1 ≠ toLower name) ++ [(name, value)]

/-- `headers::get`: the first value of that name, in any letter case. -/
def get (entries : Headers) (name : Bytes) : Option Bytes :=
  (entries.find? fun entry => toLower entry.1 = toLower name).map Prod.snd

/-- `headers::contains`. -/
def contains (entries : Headers) (name : Bytes) : Bool := (get entries name).isSome

/-- `headers::remove`. -/
def remove (entries : Headers) (name : Bytes) : Headers :=
  entries.filter fun entry => toLower entry.1 ≠ toLower name

/-- `headers::content_length`: a value that is no number, does not fit or is negative is none. -/
def contentLength (entries : Headers) : Option Nat :=
  match get entries (ascii "Content-Length") with
  | none => none
  | some value =>
      let length := fromChars64 value (-1)
      if 0 ≤ length then some length.toNat else none

/-- `headers::is_chunked`. -/
def isChunked (entries : Headers) : Bool :=
  match get entries (ascii "Transfer-Encoding") with
  | none => false
  | some value => (Library.indexOf (ascii "chunked") (toLower value)).isSome

/-- `headers::is_keep_alive`. -/
def isKeepAlive (entries : Headers) : Bool :=
  match get entries (ascii "Connection") with
  | none => true
  | some value => toLower value = ascii "keep-alive"

/-- `headers::serialize`. -/
def serialize (entries : Headers) : Bytes :=
  entries.flatMap fun entry => entry.1 ++ ascii ": " ++ entry.2 ++ ascii "\r\n"

/-- What is found stands in an entry of that name. -/
theorem entry_of_get {entries : Headers} {name value : Bytes}
    (found : get entries name = some value) :
    ∃ entry ∈ entries, toLower entry.1 = toLower name ∧ entry.2 = value := by
  obtain ⟨entry, first, rfl⟩ := Option.map_eq_some_iff.mp found
  have named := List.find?_some first
  exact ⟨entry, List.mem_of_find?_eq_some first, of_decide_eq_true named, rfl⟩

end Headers

/-! ### Requests and responses -/

structure Request where
  method : Method := .get
  path : Bytes := ascii "/"
  query : Bytes := []
  ver : Version := .http11
  hdrs : Headers := []
  bd : Bytes := []
  deriving DecidableEq, Repr

structure Response where
  status : StatusCode := {}
  ver : Version := .http11
  hdrs : Headers := []
  bd : Bytes := []
  trailers : Headers := []
  deriving DecidableEq, Repr

/-- `response_builder::build`. -/
def Response.build (resp : Response) : Response :=
  let resp :=
    if resp.bd ≠ [] ∧ ¬ Headers.contains resp.hdrs (ascii "Content-Length") then
      { resp with hdrs := Headers.set resp.hdrs (ascii "Content-Length") (decimal resp.bd.length) }
    else resp
  if ¬ Headers.contains resp.hdrs (ascii "Content-Type") then
    { resp with hdrs := Headers.set resp.hdrs (ascii "Content-Type") (ascii "text/plain") }
  else resp

/-- `response_not_found`. -/
def responseNotFound : Response :=
  Response.build { status := ⟨404⟩, bd := ascii "Not Found" }

end AsyncNet.Http
