/-
This file models how `client::send` of `src/http/client_impl.cpp` prepares a request that
goes out over HTTP/2, on each of the three paths it has for that, and looks at the header
list that `do_submit_request` makes of it.

The session takes the authority from `Host` and drops that header; the client writes the
authority into a header of its own, which the session copies with the others. Both agree on
the same list, so `:authority` is in it twice.
-/

import AsyncNet.Http.Http2HeaderFields

namespace AsyncNet.Http

/-! ### Preparing a request -/

/-- The places of `client::send` that hand a request to an HTTP/2 session: a pooled session, a
new TLS connection that negotiated `h2`, and a plain connection that was upgraded. -/
inductive ClientPath where
  | pooled | newConnection | h2c
  deriving DecidableEq, Repr

namespace Client

/-- `if (!req.hdrs.contains("Host")) req.hdrs.set("Host", host)`. -/
def ensureHost (host : Bytes) (req : Request) : Request :=
  if Headers.contains req.hdrs (ascii "Host") then req
  else { req with hdrs := Headers.set req.hdrs (ascii "Host") host }

/-- The headers that ask the server of a plain connection for an upgrade. -/
def addUpgrade (req : Request) : Request :=
  let hdrs := Headers.set req.hdrs (ascii "Upgrade") (ascii "h2c")
  let hdrs := Headers.set hdrs (ascii "HTTP2-Settings") (ascii "AAMAAABkAAQBAAAAAAIAAAAA")
  { req with hdrs := Headers.set hdrs (ascii "Connection") (ascii "Upgrade,HTTP2-Settings") }

/-- The request without them, for the upgraded connection. -/
def removeUpgrade (req : Request) : Request :=
  let hdrs := Headers.remove req.hdrs (ascii "Upgrade")
  let hdrs := Headers.remove hdrs (ascii "HTTP2-Settings")
  { req with hdrs := Headers.remove hdrs (ascii "Connection") }

/-- `if (!h2_req.hdrs.contains(":authority")) h2_req.hdrs.set(":authority", host)`. -/
def ensureAuthority (host : Bytes) (req : Request) : Request :=
  if Headers.contains req.hdrs (ascii ":authority") then req
  else { req with hdrs := Headers.set req.hdrs (ascii ":authority") host }

/-- The request `h2_req` that `client::send(host, port, req, use_tls)` submits to the session of
the path it takes. -/
def h2Request (path : ClientPath) (host : Bytes) (req : Request) : Request :=
  let req := ensureHost host req
  match path with
  | .pooled | .newConnection => ensureAuthority host { req with ver := .http2 }
  | .h2c => ensureAuthority host (removeUpgrade { addUpgrade req with ver := .http2 })

end Client

/-! ### Well-formed header lists -/

/-- The pseudo headers of a request. -/
def requestPseudoHeaders : List Bytes :=
  [ascii ":method", ascii ":path", ascii ":scheme", ascii ":authority"]

/-- A header list that may stand for a request to a host: each pseudo header of a request once,
none of them behind a header whose name has no colon in front, and the host as authority. -/
structure WellFormedBlock (host : Bytes) (headers : Headers) : Prop where
  once : ∀ name ∈ requestPseudoHeaders, (headers.map Prod.fst).count name = 1
  first : headers.Pairwise fun earlier later =>
    earlier.1.head? ≠ some 58 → later.1 ∉ requestPseudoHeaders
  authority : ∀ header ∈ headers, header.1 = ascii ":authority" → header.2 = host

theorem mem_copiedHeaders_of_mem (skips : List Bytes) (headers : Headers) (header : Header)
    (member : header ∈ headers) (kept : toLower header.1 ∉ skips) :
    (toLower header.1, header.2) ∈ Connection.copiedHeaders skips headers := by
  refine List.mem_filter.mpr ⟨List.mem_map.mpr ⟨header, member, rfl⟩, ?_⟩
  exact decide_eq_true kept

/-- The names that the session skips are none of the pseudo headers. -/
theorem notMem_skips_of_pseudo {name : Bytes} (pseudo : name ∈ requestPseudoHeaders) :
    name ∉ [ascii "host", ascii "connection"] := by
  revert name
  decide

section RequestHeaders

variable (req : Request)

/-- The fields that a header list of `do_submit_request` starts with. -/
def pseudoFields : Headers :=
  [(ascii ":method", req.method.toBytes),
    (ascii ":path", if req.path = [] then ascii "/" else req.path),
    (ascii ":scheme", ascii "https"),
    (ascii ":authority", (Headers.get req.hdrs (ascii "Host")).getD (ascii "localhost"))]

/-- The fields that are copied behind them. -/
def copiedFields : Headers :=
  Connection.copiedHeaders [ascii "host", ascii "connection"] req.hdrs

theorem requestHeaders_eq_append :
    Connection.requestHeaders req = pseudoFields req ++ copiedFields req := rfl

theorem map_fst_pseudoFields : (pseudoFields req).map Prod.fst = requestPseudoHeaders := rfl

theorem head?_of_mem_requestPseudoHeaders {name : Bytes} (pseudo : name ∈ requestPseudoHeaders) :
    name.head? = some 58 := by
  revert name
  decide

theorem count_requestPseudoHeaders {name : Bytes} (pseudo : name ∈ requestPseudoHeaders) :
    requestPseudoHeaders.count name = 1 := by
  revert name
  decide

theorem name_of_mem_pseudoFields (header : Header) (member : header ∈ pseudoFields req) :
    header.1 ∈ requestPseudoHeaders :=
  List.mem_map_of_mem member

theorem authority_of_mem_pseudoFields (header : Header) (member : header ∈ pseudoFields req)
    (is : header.1 = ascii ":authority") :
    header.2 = (Headers.get req.hdrs (ascii "Host")).getD (ascii "localhost") := by
  simp only [pseudoFields, List.mem_cons, List.not_mem_nil, or_false] at member
  rcases member with rfl | rfl | rfl | rfl
  · exact absurd is (show ascii ":method" ≠ ascii ":authority" by decide)
  · exact absurd is (show ascii ":path" ≠ ascii ":authority" by decide)
  · exact absurd is (show ascii ":scheme" ≠ ascii ":authority" by decide)
  · rfl

/-- A name is among those of the copied fields when a header of the request has it. -/
theorem mem_copiedFields_iff {name : Bytes} (pseudo : name ∈ requestPseudoHeaders) :
    name ∈ (copiedFields req).map Prod.fst ↔ ∃ header ∈ req.hdrs, toLower header.1 = name := by
  constructor
  · intro member
    obtain ⟨header, copied, rfl⟩ := List.mem_map.mp member
    obtain ⟨original, before, rfl⟩ := mem_copiedHeaders _ req.hdrs header copied
    exact ⟨original, before, rfl⟩
  · rintro ⟨header, member, rfl⟩
    have copied := mem_copiedHeaders_of_mem _ req.hdrs header member (notMem_skips_of_pseudo pseudo)
    exact List.mem_map.mpr ⟨_, copied, rfl⟩

/-- A pseudo header is in the list once just when no header of the request has its name. -/
theorem count_requestHeaders_iff {name : Bytes} (pseudo : name ∈ requestPseudoHeaders) :
    ((Connection.requestHeaders req).map Prod.fst).count name = 1 ↔
      ∀ header ∈ req.hdrs, toLower header.1 ≠ name := by
  rw [requestHeaders_eq_append, List.map_append, map_fst_pseudoFields, List.count_append,
    count_requestPseudoHeaders pseudo, Nat.add_eq_left, List.count_eq_zero,
    mem_copiedFields_iff req pseudo]
  exact not_exists.trans (forall_congr' fun header => not_and)

/-- Nothing but the headers of the request themselves can spoil the list: it is well formed just
when none of them has the name of a pseudo header and the request names the host. -/
theorem wellFormedBlock_requestHeaders_iff (host : Bytes) :
    WellFormedBlock host (Connection.requestHeaders req) ↔
      (∀ header ∈ req.hdrs, toLower header.1 ∉ requestPseudoHeaders) ∧
        (Headers.get req.hdrs (ascii "Host")).getD (ascii "localhost") = host := by
  constructor
  · intro wellFormed
    refine ⟨fun header member pseudo => ?_, ?_⟩
    · exact (count_requestHeaders_iff req pseudo).mp (wellFormed.once _ pseudo) header member rfl
    · refine wellFormed.authority (ascii ":authority", _) (List.mem_append_left _ ?_) rfl
      exact .tail _ (.tail _ (.tail _ (.head _)))
  · rintro ⟨absent, named⟩
    have copiedAbsent : ∀ header ∈ copiedFields req, header.1 ∉ requestPseudoHeaders := by
      intro header copied
      obtain ⟨original, before, rfl⟩ := mem_copiedHeaders _ req.hdrs header copied
      exact absent original before
    refine ⟨fun name pseudo => ?_, ?_, fun header member is => ?_⟩
    · refine (count_requestHeaders_iff req pseudo).mpr fun header member is => ?_
      exact absent header member (is ▸ pseudo)
    · rw [requestHeaders_eq_append]
      refine List.pairwise_append.mpr ⟨?_, ?_, fun _ _ later copied _ => copiedAbsent later copied⟩
      · refine List.pairwise_of_forall_mem_list fun earlier before _ _ regular => ?_
        have pseudo := name_of_mem_pseudoFields req earlier before
        exact absurd (head?_of_mem_requestPseudoHeaders pseudo) regular
      · exact List.pairwise_of_forall_mem_list fun _ _ later copied _ => copiedAbsent later copied
    · rcases List.mem_append.mp member with started | copied
      · exact (authority_of_mem_pseudoFields req header started is).trans named
      · refine absurd ?_ (copiedAbsent header copied)
        rw [is]
        decide

end RequestHeaders

/-! ### What the client submits -/

theorem toLower_authority : toLower (ascii ":authority") = ascii ":authority" := by decide

theorem exists_authority_ensureAuthority (host : Bytes) (req : Request) :
    ∃ header ∈ (Client.ensureAuthority host req).hdrs, toLower header.1 = ascii ":authority" := by
  rw [Client.ensureAuthority]
  split
  · rename_i present
    obtain ⟨value, found⟩ := Option.isSome_iff_exists.mp present
    obtain ⟨header, member, same, -⟩ := Headers.entry_of_get found
    exact ⟨header, member, same.trans toLower_authority⟩
  · exact ⟨_, List.mem_append_right _ (List.mem_singleton.mpr rfl), toLower_authority⟩

/-- Every path of the client leaves a header `:authority` in the request. -/
theorem exists_authority_h2Request (path : ClientPath) (host : Bytes) (req : Request) :
    ∃ header ∈ (Client.h2Request path host req).hdrs, toLower header.1 = ascii ":authority" := by
  cases path with
  | pooled => exact exists_authority_ensureAuthority host _
  | newConnection => exact exists_authority_ensureAuthority host _
  | h2c => exact exists_authority_ensureAuthority host _

/-- No request that the client sends over HTTP/2, on any path and to any host, has a well-formed
header list: the `:authority` of the client comes behind the one of the session. -/
theorem not_wellFormedBlock_h2Request (path : ClientPath) (host : Bytes) (req : Request) :
    ¬ WellFormedBlock host (Connection.requestHeaders (Client.h2Request path host req)) := by
  intro wellFormed
  obtain ⟨header, member, is⟩ := exists_authority_h2Request path host req
  have absent := ((wellFormedBlock_requestHeaders_iff _ host).mp wellFormed).1 header member
  rw [is] at absent
  exact absent (by decide)

/-- The list for `GET /` to `example.com` over a new TLS connection has `:authority` twice. -/
theorem count_authority_get_example :
    ((Connection.requestHeaders (Client.h2Request .newConnection (ascii "example.com")
        { hdrs := [(ascii "Host", ascii "example.com")] })).map Prod.fst).count
      (ascii ":authority") = 2 ∧
    ¬ WellFormedBlock (ascii "example.com") (Connection.requestHeaders
      (Client.h2Request .newConnection (ascii "example.com")
        { hdrs := [(ascii "Host", ascii "example.com")] })) := by
  have twice : ((Connection.requestHeaders (Client.h2Request .newConnection (ascii "example.com")
      { hdrs := [(ascii "Host", ascii "example.com")] })).map Prod.fst).count
      (ascii ":authority") = 2 := by decide
  refine ⟨twice, fun wellFormed => ?_⟩
  have once := wellFormed.once (ascii ":authority") (by decide)
  rw [twice] at once
  exact absurd once (by decide)

end AsyncNet.Http
