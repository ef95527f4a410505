/-
This file follows a unary call over the HTTP/2 layer and back. The request that the server's
handler is given has the path, the message and the metadata of the call, with the host as one
more entry of the metadata. The response that completes the client's promise has the result of
the handler and the metadata that it has left, with the length of the body as one more entry
if there is a body. An empty result has no body, which the client does not take for a message.
-/

import AsyncNet.Grpc.Channel
import AsyncNet.Grpc.Server
import AsyncNet.Grpc.StreamFraming
import AsyncNet.Http.Http2Agreement

namespace AsyncNet.Grpc

open AsyncNet.Http AsyncNet.Http.H2 AsyncNet.Library

/-! ### Header lists -/

/-- No name occurs twice, in any letter case. -/
def DistinctNames (headers : Headers) : Prop := (headers.map fun header => toLower header.1).Nodup

instance (headers : Headers) : Decidable (DistinctNames headers) :=
  inferInstanceAs (Decidable (List.Nodup _))

theorem set_eq_append (headers : Headers) (name value : Bytes)
    (fresh : ∀ header ∈ headers, toLower header.1 ≠ toLower name) :
    Headers.set headers name value = headers ++ [(name, value)] := by
  rw [Headers.set,
    List.filter_eq_self.mpr fun header member => decide_eq_true (fresh header member)]

/-- Headers that are set one after the other stand in that order. -/
theorem foldl_set_eq_append (base entries : Headers) (distinct : DistinctNames (base ++ entries)) :
    entries.foldl (fun headers entry => Headers.set headers entry.1 entry.2) base =
      base ++ entries := by
  induction entries generalizing base with
  | nil => exact (List.append_nil base).symm
  | cons entry entries inductionHypothesis =>
    have fresh (header : Header) (member : header ∈ base) :
        toLower header.1 ≠ toLower entry.1 := by
      unfold DistinctNames at distinct
      rw [List.map_append, List.nodup_append] at distinct
      exact distinct.2.2 _ (List.mem_map_of_mem member) _ List.mem_cons_self
    rw [List.foldl_cons, set_eq_append base entry.1 entry.2 fresh,
      inductionHypothesis (base ++ [entry]) (by rw [List.append_assoc]; exact distinct),
      List.append_assoc]
    rfl

/-! ### Metadata -/

/-- The names that the transport uses for itself. -/
def transportNames : List Bytes :=
  [ascii "host", ascii "connection", ascii "transfer-encoding", ascii "content-length"]

/-- An entry of metadata that is sent as it is: its name is in lower case, neither reserved nor one
of the transport's, and it is 7-bit text. -/
structure Ordinary (entry : Header) : Prop where
  kept : isSkipped entry.1 = false
  foreign : entry.1 ∉ transportNames
  lower : toLower entry.1 = entry.1
  nameAscii : IsAscii entry.1
  valueAscii : IsAscii entry.2

/-- All entries of the metadata are ordinary, and none is too long to be sent. -/
def Carried (md : Metadata) : Prop := ∀ entry ∈ md.toList, Ordinary entry ∧ Fits entry

theorem Ordinary.plain {entry : Header} (ordinary : Ordinary entry) : entry.1.head? ≠ some 58 := by
  have kept := ordinary.kept
  unfold isSkipped at kept
  simp only [Bool.or_eq_false_iff, decide_eq_false_iff_not] at kept
  exact kept.1.1.2

theorem Ordinary.unreserved {entry : Header} (ordinary : Ordinary entry) :
    entry.1 ∉ reservedNames := by
  have kept := ordinary.kept
  unfold isSkipped at kept
  simp only [Bool.or_eq_false_iff, List.contains_eq_mem, decide_eq_false_iff_not] at kept
  exact kept.2

section Metadata

variable {md : Metadata} (carried : Carried md)
include carried

theorem Carried.plainNames : PlainNames md.toList := fun entry member =>
  (carried entry member).1.plain

theorem Carried.asciiHeaders : AsciiHeaders md.toList := fun entry member =>
  ⟨(carried entry member).1.nameAscii, (carried entry member).1.valueAscii⟩

/-- Metadata can be added to headers whose names are all reserved. -/
theorem Carried.distinctNames (base : Headers) (distinct : DistinctNames base)
    (reserved : ∀ name ∈ base.map fun header => toLower header.1, name ∈ reservedNames) :
    DistinctNames (base ++ md.toList) := by
  have lower : md.toList.map (fun entry => toLower entry.1) = md.toList.map Prod.fst :=
    List.map_congr_left fun entry member => (carried entry member).1.lower
  have keys : (md.toList.map Prod.fst).Nodup := by
    rw [Std.ExtTreeMap.map_fst_toList_eq_keys]
    exact Std.ExtTreeMap.nodup_keys
  unfold DistinctNames
  rw [List.map_append, lower, List.nodup_append]
  refine ⟨distinct, keys, fun name inBase other inEntries same => ?_⟩
  obtain ⟨entry, isEntry, rfl⟩ := List.mem_map.mp inEntries
  exact (carried entry isEntry).1.unreserved (same ▸ reserved name inBase)

/-- Metadata is copied into a header list as it is. -/
theorem Carried.copiedHeaders (skips : List Bytes) (own : ∀ name ∈ skips, name ∈ transportNames) :
    Connection.copiedHeaders skips md.toList = md.toList := by
  have same : md.toList.map (fun header => (toLower header.1, header.2)) = md.toList := by
    conv_rhs => rw [← List.map_id md.toList]
    refine List.map_congr_left fun entry member => ?_
    rw [(carried entry member).1.lower]
    rfl
  unfold Connection.copiedHeaders
  rw [same]
  refine List.filter_eq_self.mpr fun entry member => decide_eq_true fun skipped => ?_
  exact (carried entry member).1.foreign (own _ skipped)

/-- No entry has a name of the transport, or one that is not in lower case. -/
theorem Carried.not_mem (name : Bytes) (other : name ∈ transportNames ∨ toLower name ≠ name) :
    name ∉ md := by
  intro member
  obtain ⟨value, found⟩ := Option.isSome_iff_exists.mp
    (Std.ExtTreeMap.mem_iff_isSome_getElem?.mp member)
  have ordinary := (carried _ (Std.ExtTreeMap.mem_toList_iff_getElem?_eq_some.mpr found)).1
  rcases other with own | upper
  · exact ordinary.foreign own
  · exact upper ordinary.lower

end Metadata

theorem copiedHeaders_append (skips : List Bytes) (headers more : Headers) :
    Connection.copiedHeaders skips (headers ++ more) =
      Connection.copiedHeaders skips headers ++ Connection.copiedHeaders skips more := by
  unfold Connection.copiedHeaders
  rw [List.map_append, List.filter_append]

/-! ### Extraction -/

/-- One header of `extract_from_headers`. -/
def extractHeader (md : Metadata) (header : Header) : Metadata :=
  if isSkipped header.1 then md else md.insert header.1 header.2

theorem foldl_extractHeader_skipped (md : Metadata) (headers : Headers)
    (skipped : ∀ header ∈ headers, isSkipped header.1 = true) :
    headers.foldl extractHeader md = md := by
  induction headers with
  | nil => rfl
  | cons header headers inductionHypothesis =>
    rw [List.foldl_cons, extractHeader, if_pos (skipped header List.mem_cons_self)]
    exact inductionHypothesis fun later member => skipped later (List.mem_cons_of_mem header member)

theorem foldl_extractHeader_kept (md : Metadata) (headers : Headers)
    (kept : ∀ header ∈ headers, isSkipped header.1 = false) :
    headers.foldl extractHeader md = md.insertMany headers := by
  rw [Std.ExtTreeMap.insertMany_list_eq_foldl]
  refine List.foldl_ext _ _ md fun md header member => ?_
  rw [extractHeader, kept header member, if_neg Bool.false_ne_true]

/-- The entries of a map are put into another. -/
theorem getElem?_insertMany_toList (md more : Metadata) (key : Bytes) :
    (md.insertMany more.toList)[key]? = more[key]?.or md[key]? := by
  cases found : more[key]? with
  | none =>
    refine Std.ExtTreeMap.getElem?_insertMany_list_of_contains_eq_false ?_
    rw [Std.ExtTreeMap.map_fst_toList_eq_keys, List.contains_eq_mem, decide_eq_false_iff_not,
      Std.ExtTreeMap.mem_keys, Std.ExtTreeMap.mem_iff_isSome_getElem?, found]
    exact Bool.false_ne_true
  | some value =>
    exact Std.ExtTreeMap.getElem?_insertMany_list_of_mem Std.ReflOrd.compare_self
      Std.ExtTreeMap.distinct_keys_toList
      (Std.ExtTreeMap.mem_toList_iff_getElem?_eq_some.mpr found)

/-- The metadata is extracted from a header list that ends with it and skips the rest. -/
theorem extractFromHeaders_append (headers : Headers) (md : Metadata) (carried : Carried md)
    (skipped : ∀ header ∈ headers, isSkipped header.1 = true) :
    extractFromHeaders (headers ++ md.toList) = md := by
  show (headers ++ md.toList).foldl extractHeader ∅ = md
  rw [List.foldl_append, foldl_extractHeader_skipped ∅ headers skipped,
    foldl_extractHeader_kept ∅ md.toList fun entry member => (carried entry member).1.kept]
  refine Std.ExtTreeMap.ext_getElem? fun key => ?_
  rw [getElem?_insertMany_toList, Std.ExtTreeMap.getElem?_empty, Option.or_none]

/-- One header more is not skipped, and not an entry of the metadata: it is added. -/
theorem extractFromHeaders_append_cons (front headers : Headers) (header : Header) (md : Metadata)
    (carried : Carried md) (skipped : ∀ entry ∈ front ++ headers, isSkipped entry.1 = true)
    (kept : isSkipped header.1 = false) (absent : header.1 ∉ md) :
    extractFromHeaders (front ++ header :: headers ++ md.toList) =
      md.insert header.1 header.2 := by
  show (front ++ header :: headers ++ md.toList).foldl extractHeader ∅ = _
  rw [List.foldl_append, List.foldl_append, List.foldl_cons, extractHeader, kept,
    if_neg Bool.false_ne_true, foldl_extractHeader_skipped _ front fun entry member =>
      skipped entry (List.mem_append_left headers member), foldl_extractHeader_skipped _ headers
      fun entry member => skipped entry (List.mem_append_right front member),
    foldl_extractHeader_kept _ md.toList fun entry member => (carried entry member).1.kept]
  refine Std.ExtTreeMap.ext_getElem? fun key => ?_
  rw [getElem?_insertMany_toList, Std.ExtTreeMap.getElem?_insert, Std.ExtTreeMap.getElem?_insert,
    Std.ExtTreeMap.getElem?_empty]
  by_cases same : compare header.1 key = .eq
  · have isKey : header.1 = key := Std.LawfulEqOrd.eq_of_compare same
    rw [if_pos same, if_pos same, ← isKey, Std.ExtTreeMap.getElem?_eq_none absent]
    rfl
  · rw [if_neg same, if_neg same, Option.or_none]

/-! ### Requests -/

/-- Every byte is an ASCII letter. -/
def IsLetters (name : Bytes) : Prop := ∀ byte ∈ name, 65 ≤ byte ∧ byte ≤ 90 ∨ 97 ≤ byte ∧ byte ≤ 122

instance (name : Bytes) : Decidable (IsLetters name) :=
  List.decidableBAll (fun byte => 65 ≤ byte ∧ byte ≤ 90 ∨ 97 ≤ byte ∧ byte ≤ 122) name

/-- The headers that a channel gives to every request. -/
def requestBase (host : Bytes) : Headers :=
  [(ascii "Host", host), (ascii "Content-Type", contentType), (ascii "TE", te),
    (ascii "grpc-encoding", grpcEncoding)]

/-- The same headers as the server gets them, but for the host. -/
def requestFields : Headers :=
  [(ascii "content-type", contentType), (ascii "te", te), (ascii "grpc-encoding", grpcEncoding)]

/-- The host of a channel can be sent. -/
structure Nameable (host : Bytes) : Prop where
  isAscii : IsAscii host
  fits : (encodeString host).length < 2 ^ 31

/-- A call of a method whose names are made of letters, with metadata that can be carried. -/
structure UnaryCall.Sendable (call : UnaryCall) : Prop where
  service : IsLetters call.service
  method : IsLetters call.method
  fits : (encodeString call.path).length < 2 ^ 31
  carried : Carried call.initialMetadata

namespace UnaryCall

variable {call : UnaryCall} {host : Bytes}

/-- The names that a channel sets, in lower case. -/
theorem map_requestBase (host : Bytes) :
    (requestBase host).map (fun header => toLower header.1) =
      [ascii "host", ascii "content-type", ascii "te", ascii "grpc-encoding"] := by
  show List.map toLower [ascii "Host", ascii "Content-Type", ascii "TE", ascii "grpc-encoding"] = _
  decide

theorem hdrs_toRequest (carried : Carried call.initialMetadata) :
    (call.toRequest host).hdrs = requestBase host ++ call.initialMetadata.toList := by
  have distinct : DistinctNames (requestBase host) := by
    rw [DistinctNames, map_requestBase]
    decide
  have base : (makeGrpcRequest host call.path (encodeGrpcMessage call.requestData)).hdrs =
      requestBase host := foldl_set_eq_append [] (requestBase host) distinct
  have reserved : ∀ name ∈ (requestBase host).map fun header => toLower header.1,
      name ∈ reservedNames := by
    rw [map_requestBase]
    decide
  show call.initialMetadata.toList.foldl _ _ = _
  rw [base]
  exact foldl_set_eq_append _ _ (carried.distinctNames (requestBase host) distinct reserved)

theorem mem_path (sendable : call.Sendable) (byte : UInt8) (member : byte ∈ call.path) :
    byte < 128 ∧ byte ≠ 63 := by
  have letter : ∀ byte : UInt8, 65 ≤ byte ∧ byte ≤ 90 ∨ 97 ≤ byte ∧ byte ≤ 122 →
      byte < 128 ∧ byte ≠ 63 := forall_byte (by decide +kernel)
  unfold path makePath at member
  rw [List.mem_append, List.mem_append, List.mem_append] at member
  rcases member with ((slash | inService) | slash) | inMethod
  · rw [List.mem_singleton.mp slash]
    decide
  · exact letter byte (sendable.service byte inService)
  · rw [List.mem_singleton.mp slash]
    decide
  · exact letter byte (sendable.method byte inMethod)

theorem asciiHeaders_requestBase (nameable : Nameable host) : AsciiHeaders (requestBase host) := by
  intro header member
  simp only [requestBase, List.mem_cons, List.not_mem_nil, or_false] at member
  rcases member with rfl | rfl | rfl | rfl
  · exact ⟨show IsAscii (ascii "Host") by decide, nameable.isAscii⟩
  · exact ⟨by decide, by decide⟩
  · exact ⟨by decide, by decide⟩
  · exact ⟨by decide, by decide⟩

theorem plainNames_requestBase (host : Bytes) : PlainNames (requestBase host) := by
  intro header member
  simp only [requestBase, List.mem_cons, List.not_mem_nil, or_false] at member
  rcases member with rfl | rfl | rfl | rfl
  · exact show (ascii "Host").head? ≠ some 58 by decide
  · decide
  · decide
  · decide

theorem wellFormed_toRequest (sendable : call.Sendable) (nameable : Nameable host) :
    (call.toRequest host).WellFormed where
  slash := rfl
  noQuery := fun question => (mem_path sendable 63 question).2 rfl
  isAscii := fun byte member => (mem_path sendable byte member).1
  headersAscii := by
    rw [hdrs_toRequest sendable.carried]
    intro header member
    rcases List.mem_append.mp member with base | entry
    · exact asciiHeaders_requestBase nameable header base
    · exact sendable.carried.asciiHeaders header entry
  plain := by
    rw [hdrs_toRequest sendable.carried]
    intro header member
    rcases List.mem_append.mp member with base | entry
    · exact plainNames_requestBase host header base
    · exact sendable.carried.plainNames header entry

theorem copiedHeaders_toRequest (sendable : call.Sendable) :
    Connection.copiedHeaders [ascii "host", ascii "connection"] (call.toRequest host).hdrs =
      requestFields ++ call.initialMetadata.toList := by
  rw [hdrs_toRequest sendable.carried, copiedHeaders_append,
    sendable.carried.copiedHeaders _ (by decide)]
  rfl

/-- The request that the server's request handler is given for a call. -/
def handedRequest (call : UnaryCall) (host : Bytes) : Request where
  method := .post
  path := call.path
  ver := .http2
  hdrs := (ascii "Host", host) :: (requestFields ++ call.initialMetadata.toList)
  bd := encodeGrpcMessage call.requestData

theorem request_toRequest (sendable : call.Sendable) (nameable : Nameable host) :
    (requestMessage (call.toRequest host)).request = call.handedRequest host := by
  have named : Headers.get (call.toRequest host).hdrs (ascii "Host") = some host := by
    rw [hdrs_toRequest sendable.carried]
    rfl
  rw [request_requestMessage_eq _ (wellFormed_toRequest sendable nameable), named,
    copiedHeaders_toRequest sendable]
  rfl

/-- No string of the request is too long. -/
theorem fits_requestHeaders (sendable : call.Sendable) (nameable : Nameable host) :
    ∀ header ∈ Connection.requestHeaders (call.toRequest host), Fits header := by
  have nonempty := (wellFormed_toRequest sendable nameable).path_ne_nil
  have named : Headers.get (call.toRequest host).hdrs (ascii "Host") = some host := by
    rw [hdrs_toRequest sendable.carried]
    rfl
  intro header member
  unfold Connection.requestHeaders at member
  rw [if_neg nonempty, named, copiedHeaders_toRequest sendable] at member
  simp only [List.mem_append, List.mem_cons, List.not_mem_nil, or_false, requestFields] at member
  rcases member with (rfl | rfl | rfl | rfl) | (rfl | rfl | rfl) | entry
  · exact show Fits (ascii ":method", Method.toBytes .post) by decide
  · exact ⟨show (encodeString (ascii ":path")).length < 2 ^ 31 by decide, sendable.fits⟩
  · decide
  · exact ⟨show (encodeString (ascii ":authority")).length < 2 ^ 31 by decide, nameable.fits⟩
  · decide
  · decide
  · decide
  · exact (sendable.carried header entry).2

end UnaryCall

/-! ### The handler -/

/-- What `dispatch` is given for a request: the path, the message and the context. -/
def handed (req : Request) : Option (Bytes × Bytes × CallContext) :=
  if isGrpc req = false ∨ req.method ≠ .post then none
  else
    match decodeGrpcMessage req.bd with
    | .ok (some request) =>
        some (req.path, request, { initialMetadata := extractFromHeaders req.hdrs })
    | _ => none

/-- What the handler of a unary method returns and the context as it leaves it, if it completes. -/
def Server.completed (server : Server) (moment : Nat) (path request : Bytes)
    (context : CallContext) : Option (Bytes × CallContext) :=
  match server.methods path with
  | some (.unary handler) =>
      match handler moment request with
      | .returned result => some (result, context)
      | _ => none
  | some (.unaryWithContext handler) =>
      match handler moment request context with
      | (.returned result, context) => some (result, context)
      | _ => none
  | _ => none

/-- The request handler as a session calls it. One that throws ends the connection. -/
def Server.respond (server : Server) (moment : Nat) (req : Request) : Response :=
  (server.requestHandler moment req).2.getD {}

section Handler

variable {server : Server} {moment : Nat} {req : Request} {path request result : Bytes}
  {context left : CallContext}

theorem requestHandler_handed (given : handed req = some (path, request, context)) :
    server.requestHandler moment req =
      ((server.dispatch moment path request context).1,
        (server.dispatch moment path request context).2.map Answer.toResponse) := by
  unfold handed at given
  split at given
  · cases given
  · rename_i proper
    rw [not_or, not_not] at proper
    split at given
    · rename_i found decoded
      cases given
      rw [Server.requestHandler, if_neg proper.1, if_neg (not_not_intro proper.2), decoded]
    · cases given

/-- The answer of a handler that returns, when nothing intercepts it. -/
theorem callUnary_returned (open' : server.interceptors = [])
    {handler : CallContext → Progress Bytes × CallContext}
    (returned : handler context = (.returned result, left)) :
    (server.callUnary moment path request context handler).2 =
      some { data := result, context := left } := by
  have passes : server.intercept moment path request context = ([], some (true, {})) :=
    if_pos open'
  rw [Server.callUnary, passes]
  dsimp only
  rw [returned]
  rfl

theorem dispatch_completed (open' : server.interceptors = [])
    (completed : server.completed moment path request context = some (result, left)) :
    (server.dispatch moment path request context).2 = some { data := result, context := left } := by
  unfold Server.completed at completed
  unfold Server.dispatch
  split at completed
  · rename_i handler registered
    split at completed
    · rename_i returned
      cases completed
      rw [registered]
      exact callUnary_returned open' (congrArg (·, context) returned)
    · cases completed
  · rename_i handler registered
    split at completed
    · rename_i returned
      cases completed
      rw [registered]
      exact callUnary_returned open' returned
    · cases completed
  · cases completed

/-- The response to a request whose handler completes. -/
theorem respond_eq (open' : server.interceptors = [])
    (given : handed req = some (path, request, context))
    (completed : server.completed moment path request context = some (result, left)) :
    server.respond moment req = Answer.toResponse { data := result, context := left } := by
  rw [Server.respond, requestHandler_handed given, dispatch_completed open' completed]
  rfl

end Handler

/-- The context that the handler of a call is given. -/
def UnaryCall.context (call : UnaryCall) (host : Bytes) : CallContext :=
  { initialMetadata := call.initialMetadata.insert (ascii "Host") host }

/-- The handler of a call is given its message, and a context with its metadata and the host. -/
theorem handed_handedRequest {call : UnaryCall} (host : Bytes) (sendable : call.Sendable)
    (short : call.requestData.length < 2 ^ 32 - 5) :
    handed (call.handedRequest host) = some (call.path, call.requestData, call.context host) := by
  have decoded : decodeGrpcMessage (encodeGrpcMessage call.requestData) =
      .ok (some call.requestData) := by
    rw [encodeGrpcMessage_eq short]
    exact decodeGrpcMessage_frame call.requestData (by omega)
  have extracted : extractFromHeaders (call.handedRequest host).hdrs =
      call.initialMetadata.insert (ascii "Host") host :=
    extractFromHeaders_append_cons [] requestFields (ascii "Host", host) call.initialMetadata
      sendable.carried (by decide) (show isSkipped (ascii "Host") = false by decide)
      (sendable.carried.not_mem (ascii "Host") (Or.inr (by decide)))
  have grpc : isGrpc (call.handedRequest host) = true := by
    have given : Headers.get (call.handedRequest host).hdrs (ascii "content-type") =
        some contentType := rfl
    rw [isGrpc, given]
    decide
  have proper : ¬ (isGrpc (call.handedRequest host) = false ∨
      (call.handedRequest host).method ≠ .post) := by
    rw [grpc]
    exact not_or.mpr ⟨by decide, not_not_intro rfl⟩
  rw [handed, if_neg proper, show (call.handedRequest host).bd =
    encodeGrpcMessage call.requestData from rfl, decoded]
  dsimp only
  rw [extracted]
  rfl

/-! ### Responses -/

/-- An entry that a handler can leave in the metadata of its response without a change to the
response itself. -/
structure Harmless (entry : Header) : Prop where
  plain : entry.1.head? ≠ some 58
  nameAscii : IsAscii entry.1
  valueAscii : IsAscii entry.2
  fits : Fits (toLower entry.1, entry.2)
  other : toLower entry.1 ≠ grpcStatus

/-- The reply to a result of a handler, and to the metadata that the handler has left. -/
structure RepliesTo (result : Bytes) (md : Metadata) (reply : Reply) : Prop where
  code : reply.status.code = if result = [] then .internal else .ok
  data : reply.data = result
  responseMetadata : Carried md → reply.responseMetadata =
    some (if result = [] then md
      else md.insert (ascii "content-length") (decimal (5 + result.length)))

/-- The trailer that stands before the metadata. -/
def statusField : Headers := [(grpcStatus, ascii "0")]

/-- The length of the body, if there is one. -/
def lengthField (result : Bytes) : Headers :=
  if result = [] then [] else [(ascii "content-length", decimal (5 + result.length))]

/-- The headers of a response, without its trailers. -/
def responseFields (result : Bytes) : Headers :=
  (ascii "content-type", contentType) ::
    (lengthField result ++ [(ascii "grpc-encoding", grpcEncoding)])

/-- The trailers that a response has for metadata, after its status. -/
structure Trailing (md : Metadata) (trailers : Headers) : Prop where
  set : md.toList.foldl (fun trailers entry => Headers.set trailers entry.1 entry.2) statusField =
    statusField ++ trailers
  harmless : ∀ entry ∈ trailers, Harmless entry

theorem Carried.trailing {md : Metadata} (carried : Carried md) : Trailing md md.toList where
  set := foldl_set_eq_append _ _ (carried.distinctNames statusField (by decide) (by decide))
  harmless := fun entry member => by
    obtain ⟨ordinary, fits⟩ := carried entry member
    refine ⟨ordinary.plain, ordinary.nameAscii, ordinary.valueAscii, ?_, fun same => ?_⟩
    · rw [ordinary.lower]
      exact fits
    · rw [ordinary.lower] at same
      exact ordinary.unreserved (same ▸ by decide)

/-- Headers that are set leave one of another name where it is. -/
theorem exists_foldl_set_eq_cons (first : Header) (rest entries : Headers)
    (other : ∀ entry ∈ entries, toLower entry.1 ≠ toLower first.1) :
    ∃ kept, entries.foldl (fun headers entry => Headers.set headers entry.1 entry.2)
        (first :: rest) = first :: kept ∧ ∀ header ∈ kept, header ∈ rest ∨ header ∈ entries := by
  induction entries generalizing rest with
  | nil => exact ⟨rest, rfl, fun header member => Or.inl member⟩
  | cons entry entries inductionHypothesis =>
    have stays : Headers.set (first :: rest) entry.1 entry.2 =
        first :: Headers.set rest entry.1 entry.2 := by
      have different := (other entry List.mem_cons_self).symm
      rw [Headers.set, List.filter_cons, if_pos (decide_eq_true different)]
      rfl
    obtain ⟨kept, set, members⟩ := inductionHypothesis (Headers.set rest entry.1 entry.2)
      fun later member => other later (List.mem_cons_of_mem entry member)
    refine ⟨kept, by rw [List.foldl_cons, stays, set], fun header member => ?_⟩
    rcases members header member with before | later
    · rcases List.mem_append.mp before with old | new
      · exact Or.inl (List.mem_filter.mp old).1
      · exact Or.inr (List.mem_singleton.mp new ▸ List.mem_cons_self)
    · exact Or.inr (List.mem_cons_of_mem entry later)

theorem exists_trailing {md : Metadata} (harmless : ∀ entry ∈ md.toList, Harmless entry) :
    ∃ trailers, Trailing md trailers := by
  obtain ⟨trailers, set, members⟩ := exists_foldl_set_eq_cons (grpcStatus, ascii "0") [] md.toList
    fun entry member => (harmless entry member).other
  refine ⟨trailers, set, fun entry member => ?_⟩
  rcases members entry member with none | inside
  · cases none
  · exact harmless entry inside

section Responses

variable {result : Bytes} {left : CallContext} {trailers : Headers}

theorem fits_lengthField (short : result.length < 2 ^ 31) :
    ∀ header ∈ lengthField result, Fits header := by
  intro header member
  unfold lengthField at member
  split at member
  · cases member
  · rw [List.mem_singleton.mp member]
    refine ⟨show (encodeString (ascii "content-length")).length < 2 ^ 31 by decide, ?_⟩
    have encoded := length_encodeString_le (decimal (5 + result.length))
    have digits : (decimal (5 + result.length)).length ≤ 10 := by
      rw [decimal, List.length_map]
      exact (Nat.length_toDigits_le_iff (by decide) (by decide)).mpr (by omega)
    dsimp only
    omega

variable (trailing : Trailing left.responseMetadata trailers)
include trailing

theorem toResponse_eq :
    Answer.toResponse { data := result, context := left } =
      { status := ⟨200⟩
        hdrs := [(ascii "content-type", contentType), (ascii "grpc-encoding", grpcEncoding)]
        bd := if result = [] then [] else encodeGrpcMessage result
        trailers := statusField ++ trailers } := by
  have zero : Http.toString (0 : Int) = ascii "0" := by decide
  unfold Answer.toResponse
  dsimp only
  rw [if_pos rfl, show Headers.set [] grpcStatus (Http.toString StatusCode.ok.code) = statusField
    from congrArg (fun value => [(grpcStatus, value)]) zero, trailing.set]
  rfl

theorem wellFormed_toResponse :
    (Answer.toResponse { data := result, context := left }).WellFormed := by
  rw [toResponse_eq trailing]
  exact {
    low := show (100 : Int) ≤ 200 by decide
    high := show (200 : Int) ≤ 599 by decide
    headersAscii := show AsciiHeaders [(ascii "content-type", contentType),
      (ascii "grpc-encoding", grpcEncoding)] by decide
    plain := show PlainNames [(ascii "content-type", contentType),
      (ascii "grpc-encoding", grpcEncoding)] by decide
    trailersAscii := fun header member => by
      rcases List.mem_append.mp member with status | entry
      · rw [List.mem_singleton.mp status]
        decide
      · exact ⟨(trailing.harmless header entry).nameAscii,
          (trailing.harmless header entry).valueAscii⟩
    trailersPlain := fun header member => by
      rcases List.mem_append.mp member with status | entry
      · rw [List.mem_singleton.mp status]
        decide
      · exact (trailing.harmless header entry).plain }

theorem copiedHeaders_trailers :
    Connection.copiedHeaders [] (Answer.toResponse { data := result, context := left }).trailers =
      statusField ++ Connection.copiedHeaders [] trailers := by
  rw [toResponse_eq trailing]
  dsimp only
  rw [copiedHeaders_append]
  rfl

theorem responseHeaders_toResponse :
    Connection.responseHeaders (Answer.toResponse { data := result, context := left }) =
      (ascii ":status", ascii "200") :: responseFields result := by
  have code : Http.toString (200 : Int) = ascii "200" := by decide
  rw [toResponse_eq trailing, Connection.responseHeaders, Connection.responseStart, responseFields]
  dsimp only
  rw [code]
  by_cases empty : result = []
  · rw [if_pos empty, lengthField, if_pos empty, if_neg (not_not_intro rfl)]
    rfl
  · have body : encodeGrpcMessage result ≠ [] := List.cons_ne_nil _ _
    rw [if_neg empty, lengthField, if_neg empty, if_pos body, length_encodeGrpcMessage]
    rfl

/-- The response that completes the promise of a call. -/
theorem response_toResponse :
    (responseMessage (Answer.toResponse { data := result, context := left })).response =
      { status := ⟨200⟩
        ver := .http2
        hdrs := responseFields result ++ statusField ++ Connection.copiedHeaders [] trailers
        bd := if result = [] then [] else encodeGrpcMessage result } := by
  rw [response_responseMessage_eq _ (wellFormed_toResponse trailing),
    responseHeaders_toResponse trailing, copiedHeaders_trailers trailing, toResponse_eq trailing,
    List.tail_cons, List.append_assoc]

/-- No string of the response is too long. -/
theorem sendable_toResponse (short : result.length < 2 ^ 31) :
    (responseMessage (Answer.toResponse { data := result, context := left })).Sendable := by
  refine System.sendable_responseMessage _ (wellFormed_toResponse trailing) ?_ ?_
  · rw [responseHeaders_toResponse trailing]
    intro header member
    simp only [responseFields, List.mem_append, List.mem_cons, List.not_mem_nil, or_false] at member
    rcases member with rfl | rfl | length | rfl
    · decide
    · decide
    · exact fits_lengthField short header length
    · decide
  · rw [copiedHeaders_trailers trailing]
    intro header member
    rcases List.mem_append.mp member with status | entry
    · rw [List.mem_singleton.mp status]
      decide
    · obtain ⟨original, inside, rfl⟩ := mem_copiedHeaders [] trailers header entry
      exact (trailing.harmless original inside).fits

omit trailing

/-- The metadata that the client extracts from the response. -/
theorem extractFromHeaders_response (carried : Carried left.responseMetadata) :
    extractFromHeaders (responseFields result ++ statusField ++ left.responseMetadata.toList) =
      if result = [] then left.responseMetadata
      else left.responseMetadata.insert (ascii "content-length") (decimal (5 + result.length)) := by
  unfold responseFields lengthField
  split
  · exact extractFromHeaders_append [(ascii "content-type", contentType),
      (ascii "grpc-encoding", grpcEncoding), (grpcStatus, ascii "0")] left.responseMetadata carried
      (by decide)
  · exact extractFromHeaders_append_cons [(ascii "content-type", contentType)]
      [(ascii "grpc-encoding", grpcEncoding), (grpcStatus, ascii "0")]
      (ascii "content-length", decimal (5 + result.length)) left.responseMetadata carried
      (by decide) (show isSkipped (ascii "content-length") = false by decide)
      (carried.not_mem (ascii "content-length") (Or.inl (by decide)))

/-- The client finds the status `ok` before any of the trailers. -/
theorem code_extractGrpcStatus {resp : Response} (more : Headers)
    (hdrs : resp.hdrs = responseFields result ++ statusField ++ more) :
    (extractGrpcStatus resp).code = .ok := by
  have front : Headers.get (responseFields result ++ statusField) grpcStatus =
      some (ascii "0") := by
    unfold responseFields lengthField
    split
    · rfl
    · rfl
  have code : Headers.get resp.hdrs grpcStatus = some (ascii "0") := by
    obtain ⟨header, found, value⟩ := Option.map_eq_some_iff.mp front
    rw [hdrs, Headers.get, List.find?_append, found, Option.some_or, Option.map_some, value]
  have zero : fromChars (ascii "0") = 0 := by decide
  rw [extractGrpcStatus, code]
  dsimp only
  rw [zero]
  rfl

include trailing

theorem Trailing.eq_toList (carried : Carried left.responseMetadata) :
    trailers = left.responseMetadata.toList :=
  List.append_cancel_left (trailing.set.symm.trans carried.trailing.set)

/-- The promise of a call gives the reply to its result. -/
theorem exists_unaryReply {promise : ResponsePromise} (short : result.length < 2 ^ 32 - 5)
    (error : promise.error = false)
    (resp : promise.resp =
      (responseMessage (Answer.toResponse { data := result, context := left })).response) :
    ∃ reply, unaryReply promise = .ok reply ∧ RepliesTo result left.responseMetadata reply := by
  rw [response_toResponse trailing] at resp
  have hdrs : promise.resp.hdrs = _ := congrArg Response.hdrs resp
  have bd : promise.resp.bd = _ := congrArg Response.bd resp
  have status : promise.resp.status.code = 200 := congrArg (fun resp => resp.status.code) resp
  have code := code_extractGrpcStatus _ hdrs
  have extracted (carried : Carried left.responseMetadata) :
      extractFromHeaders promise.resp.hdrs =
        if result = [] then left.responseMetadata
        else left.responseMetadata.insert (ascii "content-length")
          (decimal (5 + result.length)) := by
    rw [hdrs, trailing.eq_toList carried, carried.copiedHeaders [] (by decide)]
    exact extractFromHeaders_response carried
  unfold unaryReply
  dsimp only
  rw [error, if_neg Bool.false_ne_true, status, if_neg (not_not_intro rfl), code,
    if_neg (not_not_intro rfl), bd]
  by_cases empty : result = []
  · rw [if_pos empty]
    refine ⟨_, rfl, ?_, empty.symm, fun carried => congrArg some (extracted carried)⟩
    rw [if_pos empty]
  · rw [if_neg empty, encodeGrpcMessage_eq short, decodeGrpcMessage_frame result (by omega)]
    refine ⟨_, rfl, ?_, rfl, fun carried => congrArg some (extracted carried)⟩
    rw [if_neg empty]
    exact code

end Responses

end AsyncNet.Grpc
