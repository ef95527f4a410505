/-
This file models how `client::send` of `src/http/client_impl.cpp` reads a response over HTTP/1 and
whether it puts the connection back into its pool. The decision is written out on four paths, with
one formula on the connections that have come from the pool and with another one on new
connections. Both compare the value of `Connection` with a text in lower case only.

A pooled connection carries the response that has been read last on it, which the source does not
keep. Sessions of HTTP/2 have a pool of their own and are left out.
-/

import AsyncNet.Http.Http1Responses
import AsyncNet.Library.Runs
import Mathlib.Logic.Function.Basic

namespace AsyncNet.Http

open Library
open Http1 (readAttempts readResponse)

/-- `response_internal_error`. -/
def responseInternalError (detail : Bytes) : Response :=
  Response.build { status := ⟨500⟩, bd := detail }

namespace Client

/-! ### Exchanges -/

/-- What a connection does with a request: whether all of it is written, and what the reads
return. -/
structure Exchange where
  written : Bool := true
  reads : List Bytes

/-- A response, if the request could be written and the response be read. -/
def Exchange.response (exchange : Exchange) : Except ResponseError (Option Response) :=
  if exchange.written then readResponse exchange.reads else .ok none

/-! ### The decision -/

/-- The places of `client::send` that decide whether a connection of HTTP/1 is kept. -/
inductive H1Path where
  | tlsReused | tlsNew | plainReused | plainNew
  deriving DecidableEq, Repr

/-- The decision on a connection from the pool. -/
def keepReused (resp : Response) : Bool :=
  Headers.get resp.hdrs (ascii "Connection") = some (ascii "keep-alive") || resp.ver = .http11

/-- The decision on a new connection. -/
def keepNew (resp : Response) : Bool :=
  match Headers.get resp.hdrs (ascii "Connection") with
  | none => true
  | some value => value ≠ ascii "close"

/-- Whether a connection is put into the pool. A new plain connection goes over to HTTP/2 instead
when the server switches protocols. -/
def H1Path.returns : H1Path → Response → Bool
  | .tlsReused, resp => keepReused resp
  | .tlsNew, resp => keepNew resp
  | .plainReused, resp => keepReused resp
  | .plainNew, resp => resp.status.code ≠ 101 && keepNew resp

/-! ### The pool -/

/-- `h1_conn`, with the last response on it. -/
structure H1Conn where
  isTls : Bool
  received : Response

/-- `h1_pool_`. -/
abbrev H1Pool := Bytes → List H1Conn

/-- `pool_key`. -/
def poolKey (host : Bytes) (port : Nat) (tls : Bool) : Bytes :=
  host ++ ascii ":" ++ decimal port ++ ascii ":" ++ (if tls then ascii "1" else ascii "0")

/-- `return_h1`. -/
def returnH1 (pool : H1Pool) (key : Bytes) (conn : H1Conn) : H1Pool :=
  Function.update pool key (pool key ++ [conn])

/-- `take_h1`. -/
def takeH1 (pool : H1Pool) (key : Bytes) : Option H1Conn × H1Pool :=
  match (pool key).getLast? with
  | none => (none, pool)
  | some conn => (some conn, Function.update pool key (pool key).dropLast)

/-- What `send` ends with: a response, or an HTTP/2 session on the new connection. -/
inductive Answer where
  | response (resp : Response)
  | overHttp2

/-- A call of `send`, and what happens on the network: on a connection from the pool, and on a new
one with the protocol that its handshake has selected. -/
structure Call where
  host : Bytes
  port : Nat
  useTls : Bool
  sslContext : Bool
  reused : Exchange
  connected : Bool := true
  secured : Bool := true
  alpn : Bytes := ascii "http/1.1"
  opened : Exchange

namespace Call

variable (call : Call)

/-- `use_tls && ssl_ctx_`. -/
def tls : Bool := call.useTls && call.sslContext

def key : Bytes := poolKey call.host call.port call.useTls

def reusedPath : H1Path := if call.tls then .tlsReused else .plainReused

def newPath : H1Path := if call.tls then .tlsNew else .plainNew

end Call

/-- The blocks that try a connection from the pool: without a response it is dropped. -/
def reuseH1 (pool : H1Pool) (call : Call) : H1Pool × Except ResponseError (Option Response) :=
  match takeH1 pool call.key with
  | (none, pool) => (pool, .ok none)
  | (some h1, pool) =>
      if h1.isTls = call.tls then
        match call.reused.response with
        | .error error => (pool, .error error)
        | .ok none => (pool, .ok none)
        | .ok (some resp) =>
            (if call.reusedPath.returns resp then
              returnH1 pool call.key { h1 with received := resp }
            else pool,
              .ok (some resp))
      else (pool, .ok none)

/-- The blocks that make a new connection. -/
def openH1 (pool : H1Pool) (call : Call) : H1Pool × Except ResponseError Answer :=
  let failed detail := (pool, .ok (.response (responseInternalError detail)))
  if ¬ call.connected then
    failed (ascii "Connection failed to " ++ call.host ++ ascii ":" ++ decimal call.port)
  else if call.tls ∧ ¬ call.secured then failed (ascii "TLS handshake failed")
  else if call.tls ∧ call.alpn = ascii "h2" then (pool, .ok .overHttp2)
  else if ¬ call.opened.written then
    failed (if call.tls then ascii "TLS write failed" else ascii "Write failed")
  else
    match readResponse call.opened.reads with
    | .error error => (pool, .error error)
    | .ok none => failed (ascii "Failed to read response")
    | .ok (some resp) =>
        (if call.newPath.returns resp then
          returnH1 pool call.key { isTls := call.tls, received := resp }
        else pool,
          .ok (if ¬ call.tls ∧ resp.status.code = 101 then .overHttp2 else .response resp))

/-- `client::send` without the pool of HTTP/2 sessions. -/
def send (pool : H1Pool) (call : Call) : H1Pool × Except ResponseError Answer :=
  match reuseH1 pool call with
  | (pool, .error error) => (pool, .error error)
  | (pool, .ok (some resp)) => (pool, .ok (.response resp))
  | (pool, .ok none) => openH1 pool call

/-! ### Versions of responses -/

theorem ver_of_parseStatusLine {line : Bytes} {resp : Response}
    (parsed : Http1.parseStatusLine line = .ok resp) :
    resp.ver = .http10 ∨ resp.ver = .http11 := by
  unfold Http1.parseStatusLine at parsed
  cases first : indexOf (ascii " ") line with
  | none =>
    rw [first] at parsed
    cases parsed
  | some position =>
    rw [first] at parsed
    dsimp only at parsed
    generalize fromChars _ = code at parsed
    by_cases outside : code < 100 ∨ 599 < code
    · rw [if_pos outside] at parsed
      cases parsed
    · rw [if_neg outside] at parsed
      cases parsed
      dsimp only
      split
      · exact Or.inl rfl
      · exact Or.inr rfl

theorem ver_of_parseResponseBody {head resp : Response} {data : Bytes} {consumed : Nat}
    (parsed : Http1.parseResponseBody head data = .ok (some (resp, consumed))) :
    resp.ver = head.ver := by
  unfold Http1.parseResponseBody at parsed
  split at parsed
  · split at parsed
    · cases parsed
      rfl
    · split at parsed
      · cases parsed
      · cases parsed
        rfl
  · split at parsed
    · cases parsed
    · split at parsed
      · cases parsed
        rfl
      · cases parsed

theorem ver_of_parseResponse {data : Bytes} {resp : Response} {consumed : Nat}
    (parsed : Http1.parseResponse data = .ok (some (resp, consumed))) :
    resp.ver = .http10 ∨ resp.ver = .http11 := by
  unfold Http1.parseResponse at parsed
  split at parsed
  · cases parsed
  · split at parsed
    · cases parsed
    · obtain ⟨head, headParsed, later⟩ := bind_ok parsed
      obtain ⟨line, lineParsed, headIs⟩ := bind_ok headParsed
      obtain ⟨body, bodyParsed, whole⟩ := bind_ok later
      have version := ver_of_parseStatusLine lineParsed
      cases headIs
      cases body with
      | none => cases whole
      | some found =>
        obtain ⟨found, count⟩ := found
        cases whole
        rw [ver_of_parseResponseBody bodyParsed]
        exact version

theorem ver_of_readAttempts {attempts : Nat} {buffer : Bytes} {reads : List Bytes}
    {resp : Response} (read : readAttempts attempts buffer reads = .ok (some resp)) :
    resp.ver = .http10 ∨ resp.ver = .http11 := by
  induction attempts generalizing buffer reads with
  | zero => cases read
  | succ attempts inductionHypothesis =>
    obtain ⟨result, parsed, later⟩ := bind_ok read
    cases result with
    | some found =>
      cases later
      exact ver_of_parseResponse parsed
    | none =>
      cases reads with
      | cons piece reads => exact inductionHypothesis later
      | nil =>
        dsimp only at later
        rw [parsed] at later
        split at later <;> cases later

/-! ### What the decision should be -/

/-- A response after which the server closes the connection. -/
def Closes (resp : Response) : Prop :=
  (∃ entry ∈ resp.hdrs,
    toLower entry.1 = ascii "connection" ∧ toLower entry.2 = ascii "close") ∨
    resp.ver = .http10 ∧ ¬ ∃ entry ∈ resp.hdrs,
      toLower entry.1 = ascii "connection" ∧ toLower entry.2 = ascii "keep-alive"

/-- There is one decision on all paths, and it never keeps a connection that the server closes. -/
structure DecidesWell (resp : Response) : Prop where
  same : ∀ path other : H1Path, path.returns resp = other.returns resp
  closes : Closes resp → ∀ path : H1Path, path.returns resp = false

/-- A response of HTTP/1.0 that says `close` in lower case, or one that does not say it, does not
switch protocols and keeps the connection by its version or by saying `keep-alive` in lower case. -/
def Unambiguous (resp : Response) : Prop :=
  resp.ver = .http10 ∧ Headers.get resp.hdrs (ascii "Connection") = some (ascii "close") ∨
    resp.status.code ≠ 101 ∧
      (∀ entry ∈ resp.hdrs,
        toLower entry.1 = ascii "connection" → toLower entry.2 ≠ ascii "close") ∧
      (resp.ver = .http11 ∨
        Headers.get resp.hdrs (ascii "Connection") = some (ascii "keep-alive"))

section Decision

variable {resp : Response}

theorem keepNew_eq_false_iff :
    keepNew resp = false ↔
      Headers.get resp.hdrs (ascii "Connection") = some (ascii "close") := by
  unfold keepNew
  cases Headers.get resp.hdrs (ascii "Connection") <;> simp

theorem keepReused_iff (version : resp.ver = .http10) :
    keepReused resp = true ↔
      Headers.get resp.hdrs (ascii "Connection") = some (ascii "keep-alive") := by
  simp [keepReused, version]

theorem keepReused_of_http11 (version : resp.ver = .http11) : keepReused resp = true := by
  simp [keepReused, version]

/-- A response that says it in lower case carries it. -/
theorem exists_entry_of_get {value : Bytes} (lower : toLower value = value)
    (found : Headers.get resp.hdrs (ascii "Connection") = some value) :
    ∃ entry ∈ resp.hdrs, toLower entry.1 = ascii "connection" ∧ toLower entry.2 = value := by
  obtain ⟨entry, member, name, rfl⟩ := Headers.entry_of_get found
  exact ⟨entry, member, name.trans (by decide), lower⟩

/-- On all paths the connection is kept. -/
theorem returns_eq_true_iff :
    (∀ path : H1Path, path.returns resp = true) ↔
      keepReused resp = true ∧ keepNew resp = true ∧ resp.status.code ≠ 101 := by
  constructor
  · intro all
    have plain := all .plainNew
    simp only [H1Path.returns, Bool.and_eq_true, decide_eq_true_eq] at plain
    exact ⟨all .tlsReused, all .tlsNew, plain.1⟩
  · rintro ⟨reused, new, status⟩ path
    cases path <;> simp [H1Path.returns, reused, new, status]

/-- On no path the connection is kept. -/
theorem returns_eq_false_iff :
    (∀ path : H1Path, path.returns resp = false) ↔
      keepReused resp = false ∧ keepNew resp = false := by
  constructor
  · exact fun all => ⟨all .tlsReused, all .tlsNew⟩
  · rintro ⟨reused, new⟩ path
    cases path <;> simp [H1Path.returns, reused, new]

theorem same_iff :
    (∀ path other : H1Path, path.returns resp = other.returns resp) ↔
      (∀ path : H1Path, path.returns resp = true) ∨ ∀ path : H1Path, path.returns resp = false := by
  constructor
  · intro same
    cases first : H1Path.tlsReused.returns resp with
    | true => exact Or.inl fun path => (same path .tlsReused).trans first
    | false => exact Or.inr fun path => (same path .tlsReused).trans first
  · rintro (all | all) path other
    · rw [all, all]
    · rw [all, all]

theorem unambiguous_of_decidesWell (version : resp.ver = .http10 ∨ resp.ver = .http11)
    (well : DecidesWell resp) : Unambiguous resp := by
  rcases same_iff.mp well.same with kept | dropped
  · obtain ⟨reused, new, status⟩ := returns_eq_true_iff.mp kept
    refine Or.inr ⟨status, fun entry member named close => ?_, ?_⟩
    · have never := well.closes (Or.inl ⟨entry, member, named, close⟩) .tlsReused
      rw [kept .tlsReused] at never
      cases never
    · rcases version with old | new
      · exact Or.inr ((keepReused_iff old).mp reused)
      · exact Or.inl new
  · obtain ⟨reused, new⟩ := returns_eq_false_iff.mp dropped
    refine Or.inl ⟨?_, keepNew_eq_false_iff.mp new⟩
    rcases version with old | new
    · exact old
    · rw [keepReused_of_http11 new] at reused
      cases reused

theorem decidesWell_of_unambiguous (clear : Unambiguous resp) : DecidesWell resp := by
  have closeLower : toLower (ascii "close") = ascii "close" := by decide
  have keepLower : toLower (ascii "keep-alive") = ascii "keep-alive" := by decide
  rcases clear with ⟨old, close⟩ | ⟨status, noClose, kept⟩
  · have dropped : ∀ path : H1Path, path.returns resp = false := by
      refine returns_eq_false_iff.mpr ⟨?_, keepNew_eq_false_iff.mpr close⟩
      rw [Bool.eq_false_iff, ne_eq, keepReused_iff old, close]
      decide
    exact ⟨same_iff.mpr (Or.inr dropped), fun _ => dropped⟩
  · have new : keepNew resp = true := by
      rw [← Bool.not_eq_false, keepNew_eq_false_iff]
      intro close
      obtain ⟨entry, member, named, value⟩ := exists_entry_of_get closeLower close
      exact noClose entry member named value
    have reused : keepReused resp = true := by
      rcases kept with version | stays
      · exact keepReused_of_http11 version
      · simp [keepReused, stays]
    refine ⟨same_iff.mpr (Or.inl (returns_eq_true_iff.mpr ⟨reused, new, status⟩)), ?_⟩
    rintro (⟨entry, member, named, close⟩ | ⟨old, never⟩)
    · exact absurd close (noClose entry member named)
    · rcases kept with version | stays
      · rw [old] at version
        cases version
      · exact absurd (exists_entry_of_get keepLower stays) never

/-- There is one right decision for a response that is read, if and only if it is unambiguous. -/
theorem decidesWell_iff (read : ∃ reads, readResponse reads = .ok (some resp)) :
    DecidesWell resp ↔ Unambiguous resp := by
  obtain ⟨reads, read⟩ := read
  exact ⟨unambiguous_of_decidesWell (ver_of_readAttempts read), decidesWell_of_unambiguous⟩

end Decision

/-- A response with a field of a given value and no body. -/
def emptyResponse (connection : Bytes) : Response :=
  { hdrs := [(ascii "Connection", connection), (ascii "Content-Length", ascii "0")] }

/-- The text of a response that leaves the connection open. -/
def openText : Bytes :=
  ascii "HTTP/1.1 200 OK\r\nConnection: keep-alive\r\nContent-Length: 0\r\n\r\n"

theorem decidesWell_openText :
    readResponse [openText] = .ok (some (emptyResponse (ascii "keep-alive"))) ∧
      DecidesWell (emptyResponse (ascii "keep-alive")) := by
  have read : readResponse [openText] = .ok (some (emptyResponse (ascii "keep-alive"))) := by
    decide +kernel
  refine ⟨read, (decidesWell_iff ⟨_, read⟩).mpr (Or.inr ⟨by decide, ?_, Or.inl rfl⟩)⟩
  decide

/-- A connection that the server closes is kept if it has come from the pool. If the server says
`Close` instead, it is kept on every path. -/
theorem not_decidesWell_close :
    readResponse [ascii "HTTP/1.1 200 OK\r\nConnection: close\r\nContent-Length: 0\r\n\r\n"] =
        .ok (some (emptyResponse (ascii "close"))) ∧
      H1Path.plainNew.returns (emptyResponse (ascii "close")) = false ∧
      H1Path.plainReused.returns (emptyResponse (ascii "close")) = true ∧
      ¬ DecidesWell (emptyResponse (ascii "close")) ∧
      Closes (emptyResponse (ascii "Close")) ∧
      ∀ path : H1Path, path.returns (emptyResponse (ascii "Close")) = true := by
  refine ⟨by decide +kernel, by decide, by decide, fun well => ?_, Or.inl ?_, ?_⟩
  · exact absurd (well.same .plainNew .plainReused) (by decide)
  · exact ⟨(ascii "Connection", ascii "Close"), List.mem_cons_self, by decide, by decide⟩
  · rintro ⟨⟩ <;> decide

/-! ### Runs -/

/-- A response that is read in a call, from a pooled connection or from a new one. -/
def Call.Reads (call : Call) (resp : Response) : Prop :=
  call.reused.response = .ok (some resp) ∨ readResponse call.opened.reads = .ok (some resp)

/-- A connection that a call may have put into the pool. -/
def Call.Keeps (call : Call) (conn : H1Conn) : Prop :=
  call.Reads conn.received ∧ ∃ path : H1Path, path.returns conn.received = true

section Runs

variable {pool : H1Pool} {key : Bytes} {conn : H1Conn}

theorem mem_returnH1 {key' : Bytes} {added : H1Conn}
    (member : conn ∈ returnH1 pool key' added key) : conn ∈ pool key ∨ conn = added := by
  unfold returnH1 at member
  by_cases same : key = key'
  · rw [same, Function.update_self] at member
    rw [same]
    exact (List.mem_append.mp member).imp_right List.mem_singleton.mp
  · rw [Function.update_of_ne same] at member
    exact Or.inl member

theorem mem_takeH1 {key' : Bytes} (member : conn ∈ (takeH1 pool key').2 key) :
    conn ∈ pool key := by
  unfold takeH1 at member
  split at member
  · exact member
  · dsimp only at member
    by_cases same : key = key'
    · rw [same, Function.update_self] at member
      rw [same]
      exact List.mem_of_mem_dropLast member
    · rwa [Function.update_of_ne same] at member

theorem mem_ite_returnH1 {path : H1Path} {call : Call} (added : H1Conn)
    (reads : call.Reads added.received)
    (member : conn ∈
      (if path.returns added.received then returnH1 pool call.key added else pool) key) :
    conn ∈ pool key ∨ call.Keeps conn := by
  by_cases kept : path.returns added.received = true
  · rw [if_pos kept] at member
    rcases mem_returnH1 member with before | rfl
    · exact Or.inl before
    · exact Or.inr ⟨reads, path, kept⟩
  · rw [if_neg kept] at member
    exact Or.inl member

theorem mem_reuseH1 {call : Call} (member : conn ∈ (reuseH1 pool call).1 key) :
    conn ∈ pool key ∨ call.Keeps conn := by
  have taken := @mem_takeH1 pool key conn call.key
  unfold reuseH1 at member
  cases take : takeH1 pool call.key with
  | mk found rest =>
    rw [take] at member taken
    cases found with
    | none => exact Or.inl (taken member)
    | some h1 =>
      dsimp only at member
      split at member
      · cases read : call.reused.response with
        | error error =>
          rw [read] at member
          exact Or.inl (taken member)
        | ok result =>
          rw [read] at member
          cases result with
          | none => exact Or.inl (taken member)
          | some resp =>
            have added := mem_ite_returnH1 (H1Conn.mk h1.isTls resp) (Or.inl read) member
            exact added.imp_left taken
      · exact Or.inl (taken member)

theorem mem_openH1 {call : Call} (member : conn ∈ (openH1 pool call).1 key) :
    conn ∈ pool key ∨ call.Keeps conn := by
  unfold openH1 at member
  dsimp only at member
  split at member
  · exact Or.inl member
  split at member
  · exact Or.inl member
  split at member
  · exact Or.inl member
  split at member
  · exact Or.inl member
  · cases read : readResponse call.opened.reads with
    | error error =>
      rw [read] at member
      exact Or.inl member
    | ok result =>
      rw [read] at member
      cases result with
      | none => exact Or.inl member
      | some resp =>
        exact mem_ite_returnH1 (H1Conn.mk call.tls resp) (Or.inr read) member

/-- What a call leaves in the pool has been there, or has been kept on one of the paths. -/
theorem mem_send {call : Call} (member : conn ∈ (send pool call).1 key) :
    conn ∈ pool key ∨ call.Keeps conn := by
  have reused := @mem_reuseH1 pool key conn call
  unfold send at member
  cases reuse : reuseH1 pool call with
  | mk rest result =>
    rw [reuse] at member reused
    cases result with
    | error error => exact reused member
    | ok found =>
      cases found with
      | some resp => exact reused member
      | none =>
        rcases mem_openH1 member with before | kept
        · exact reused before
        · exact Or.inr kept

/-- The pool holds no connection that the server closes. -/
def Clean (pool : H1Pool) : Prop := ∀ key, ∀ conn ∈ pool key, ¬ Closes conn.received

theorem Clean.send (clean : Clean pool) {call : Call}
    (clear : ∀ resp, call.Reads resp → Unambiguous resp) : Clean (send pool call).1 := by
  intro key conn member closes
  rcases mem_send member with before | ⟨reads, path, kept⟩
  · exact clean key conn before closes
  · have well := decidesWell_of_unambiguous (clear conn.received reads)
    rw [well.closes closes path] at kept
    cases kept

/-- As long as all responses are unambiguous, no run of calls leaves a connection in the pool that
the server closes. -/
theorem clean_calls (calls : List Call)
    (clear : ∀ call ∈ calls, ∀ resp, call.Reads resp → Unambiguous resp) :
    Clean (calls.foldl (fun pool call => (Client.send pool call).1) fun _ => []) :=
  List.foldlRecOn calls _ (fun _ _ inside => absurd inside List.not_mem_nil)
    fun _ clean call inside => clean.send (clear call inside)

end Runs

end Client

end AsyncNet.Http
