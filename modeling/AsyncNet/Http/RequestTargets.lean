/-
This file compares what the three versions of the protocol make of a request target. The parser
of HTTP/1.1 and the one of HTTP/2 split it at the first question mark, in two ways that come to
the same, and put a slash where the path is empty. The one of HTTP/3 takes all of it as the
path. So they agree on the targets that have nothing to split and are not empty, and on no
others.
-/

import AsyncNet.Http.Http1Codec
import AsyncNet.Http.Http2Session
import AsyncNet.Http.Http3Session
import AsyncNet.Library.Runs
import AsyncNet.Library.Splitting

namespace AsyncNet.Http

open Library

/-- What of a request selects the route and the query parameters. -/
def Request.target (req : Request) : Bytes × Bytes := (req.path, req.query)

/-! ### Splitting -/

/-- The path and the query of a target, with a slash for an empty path. -/
def routeTarget (target : Bytes) : Bytes × Bytes :=
  let (path, query) := Http1.splitTarget target
  (if path = [] then ascii "/" else path, query)

theorem splitTarget_of_not_mem {target : Bytes} (whole : 63 ∉ target) :
    Http1.splitTarget target = (target, []) := by
  have absent : indexOf (ascii "?") target = none := indexOf_singleton_of_not_mem whole
  rw [Http1.splitTarget, absent]

/-- What is split is shorter. -/
theorem length_splitTarget_lt {target : Bytes} (splits : 63 ∈ target) :
    (Http1.splitTarget target).1.length < target.length := by
  obtain ⟨front, back, rfl, absent⟩ := List.eq_append_cons_of_mem splits
  have found : indexOf (ascii "?") (front ++ 63 :: back) = some front.length :=
    indexOf_singleton_append absent back
  rw [Http1.splitTarget, found]
  dsimp only
  rw [List.take_left, List.length_append, List.length_cons]
  omega

/-- The two ways to look for the question mark. -/
theorem findIdx?_question (value : Bytes) :
    value.findIdx? (· = 63) = indexOf (ascii "?") value := by
  induction value with
  | nil => rfl
  | cons byte value inductionHypothesis =>
    have here : ascii "?" <+: byte :: value ↔ byte = 63 := by
      constructor
      · exact fun isPrefix => (List.cons_prefix_cons.mp isPrefix).1.symm
      · rintro rfl
        exact List.prefix_append (ascii "?") value
    rw [List.findIdx?_cons, indexOf, inductionHypothesis]
    by_cases question : byte = 63
    · rw [if_pos (here.mpr question), if_pos (decide_eq_true question)]
    · rw [if_neg (here.not.mpr question), if_neg (by rw [decide_eq_true_eq]; exact question)]

theorem splitPath_eq (value : Bytes) :
    (Connection.splitPath value).1 = (Http1.splitTarget value).1 ∧
      (Connection.splitPath value).2.getD [] = (Http1.splitTarget value).2 := by
  rw [Connection.splitPath, Http1.splitTarget, findIdx?_question]
  cases indexOf (ascii "?") value <;> exact ⟨rfl, rfl⟩

/-- All of a target is its path if and only if it is not empty and has no question mark. -/
theorem routeTarget_eq_iff (target : Bytes) :
    routeTarget target = (target, []) ↔ target ≠ [] ∧ 63 ∉ target := by
  unfold routeTarget
  by_cases splits : 63 ∈ target
  · have shorter := length_splitTarget_lt splits
    refine iff_of_false (fun same => ?_) fun both => both.2 splits
    have path := congrArg Prod.fst same
    dsimp only at path
    split at path
    · rw [← path] at splits
      exact absurd splits (by decide)
    · rw [path] at shorter
      exact lt_irrefl _ shorter
  · rw [splitTarget_of_not_mem splits]
    dsimp only
    by_cases empty : target = []
    · rw [if_pos empty, empty]
      exact iff_of_false (by decide) fun both => both.1 rfl
    · rw [if_neg empty]
      exact iff_of_true rfl ⟨empty, splits⟩

/-! ### The parsers -/

/-- What a request line gives. -/
theorem parseRequestLine_eq {method target version : Bytes} (word : 32 ∉ method)
    (noSpace : 32 ∉ target) :
    Http1.parseRequestLine (method ++ 32 :: (target ++ 32 :: version)) =
      match parseMethod method with
      | none => .error (.unknownMethod method)
      | some known =>
          .ok
            { method := known
              path := (routeTarget target).1
              query := (routeTarget target).2
              ver := if version = ascii "HTTP/1.0" then .http10 else .http11 } := by
  have first : indexOf (ascii " ") (method ++ 32 :: (target ++ 32 :: version)) =
      some method.length := indexOf_singleton_append word _
  have tail := drop_append_cons method 32 (target ++ 32 :: version)
  have second : Http1.find (method ++ 32 :: (target ++ 32 :: version)) (ascii " ")
      (method.length + 1) = some (target.length + (method.length + 1)) := by
    have found : indexOf (ascii " ") (target ++ 32 :: version) = some target.length :=
      indexOf_singleton_append noSpace version
    rw [Http1.find, tail, found, Option.map_some]
  have between : target.length + (method.length + 1) - method.length - 1 = target.length := by
    omega
  have last : (method ++ 32 :: (target ++ 32 :: version)).drop
      (target.length + (method.length + 1) + 1) = version := by
    rw [show target.length + (method.length + 1) + 1 = method.length + 1 + (target.length + 1) by
      omega, ← List.drop_drop, tail, drop_append_cons]
  have taken : (method ++ 32 :: (target ++ 32 :: version)).take method.length = method :=
    List.take_left
  have middle : (target ++ 32 :: version).take target.length = target := List.take_left
  rw [Http1.parseRequestLine, first]
  dsimp only
  rw [second]
  dsimp only
  rw [taken, tail, between, middle, last]
  rfl

/-- The target of a request line. -/
theorem target_parseRequestLine {method target version : Bytes} (word : 32 ∉ method)
    (noSpace : 32 ∉ target) {req : Request}
    (parsed : Http1.parseRequestLine (method ++ 32 :: (target ++ 32 :: version)) = .ok req) :
    req.target = routeTarget target := by
  rw [parseRequestLine_eq word noSpace] at parsed
  split at parsed
  · cases parsed
  · cases parsed
    rfl

/-- What `parse_request` stores for a request line. -/
theorem target_parseRequest {method target version rest : Bytes} (word : 32 ∉ method ∧ 13 ∉ method)
    (clean : 32 ∉ target ∧ 13 ∉ target) (single : 13 ∉ version) {req : Request} {consumed : Nat}
    (parsed : Http1.parseRequest (method ++ 32 :: (target ++ 32 :: version) ++ Http1.crlf ++ rest) =
      .ok (some (req, consumed))) : req.target = routeTarget target := by
  let line := method ++ 32 :: (target ++ 32 :: version)
  have noReturn : 13 ∉ line := by
    intro member
    obtain inMethod | member := List.mem_append.mp member
    · exact word.2 inMethod
    · obtain isSpace | member := List.mem_cons.mp member
      · exact absurd isSpace (by decide)
      · obtain inTarget | member := List.mem_append.mp member
        · exact clean.2 inTarget
        · obtain isSpace | inVersion := List.mem_cons.mp member
          · exact absurd isSpace (by decide)
          · exact single inVersion
  have firstLine : indexOf Http1.crlf (line ++ Http1.crlf ++ rest) = some line.length := by
    rw [List.append_assoc]
    exact @indexOf_first _ _ 13 [10] line noReturn rest
  have taken : (line ++ Http1.crlf ++ rest).take line.length = line := by
    rw [List.append_assoc, List.take_left]
  have parsed : Http1.parseRequest (line ++ Http1.crlf ++ rest) = .ok (some (req, consumed)) :=
    parsed
  rw [Http1.parseRequest] at parsed
  split at parsed
  · cases parsed
  · rename_i headerEnd _
    rw [firstLine] at parsed
    dsimp only at parsed
    cases head : Http1.parseRequestLine line with
    | error error =>
      rw [Http1.parseHead, taken, head] at parsed
      cases parsed
    | ok found =>
      rw [Http1.parseHead, taken, head] at parsed
      -- The headers and the body are added to what the request line gives.
      have same : req.target = found.target := by
        obtain ⟨whole, read, rest⟩ := bind_ok parsed
        cases read
        obtain ⟨result, _, last⟩ := bind_ok rest
        have last := Except.ok.inj last
        split at last
        · cases last
          rfl
        · cases last
      rw [same]
      exact target_parseRequestLine word.1 clean.1 head

/-- The header of the path decides the target of a request. -/
theorem target_foldl {apply : Request → Header → Request} {target : Bytes} {store : Bytes × Bytes}
    (path : ∀ req, req.query = [] → (apply req (ascii ":path", target)).target = store)
    (other : ∀ req header, header.1 ≠ ascii ":path" → (apply req header).target = req.target)
    {headers : Headers} (once : headers.filter (·.1 = ascii ":path") = [(ascii ":path", target)])
    {req : Request} (new : req.query = []) : (headers.foldl apply req).target = store := by
  have rest (headers : Headers) (none : headers.filter (·.1 = ascii ":path") = []) (req : Request) :
      (headers.foldl apply req).target = req.target := by
    induction headers generalizing req with
    | nil => rfl
    | cons header headers inductionHypothesis =>
      have absent := List.filter_eq_nil_iff.mp none
      rw [List.foldl_cons, inductionHypothesis, other]
      · exact of_decide_eq_false (Bool.eq_false_iff.mpr (absent header List.mem_cons_self))
      · exact List.filter_eq_nil_iff.mpr fun later member =>
          absent later (List.mem_cons_of_mem _ member)
  induction headers generalizing req with
  | nil => cases once
  | cons header headers inductionHypothesis =>
    rw [List.foldl_cons]
    by_cases here : header.1 = ascii ":path"
    · rw [List.filter_cons, if_pos (decide_eq_true here)] at once
      obtain ⟨rfl, none⟩ := List.cons.inj once
      rw [rest headers none]
      exact path req new
    · rw [List.filter_cons, if_neg (by rw [decide_eq_true_eq]; exact here)] at once
      refine inductionHypothesis once ?_
      exact (congrArg Prod.snd (other req header here)).trans new

/-- The request that `apply_headers` stores in a stream. -/
def Connection.storedRequest (state : StreamState) (headers : Headers) : Request :=
  { headers.foldl applyRequestHeader state.req with ver := .http2 }

/-- The headers are used in no other way. -/
theorem Connection.applyHeaders_eq (config : Config) (connection : Connection) (streamId : Nat)
    (endStream : Bool) :
    ∃ finish : Connection → Connection, ∀ headers,
      connection.applyHeaders config streamId headers endStream =
        finish (connection.modifyStream streamId fun state =>
          { state with headersComplete := true, req := storedRequest state headers }) := by
  cases endStream with
  | false =>
    cases handles : config.requestStartHandler with
    | none => exact ⟨id, fun headers => by rw [applyHeaders, handles]; rfl⟩
    | some handler =>
      exact ⟨fun stored => (stored.callRequestStartHandler handler streamId false).2,
        fun headers => by rw [applyHeaders, handles]; rfl⟩
  | true =>
    let ended (stored : Connection) : Connection :=
      stored.modifyStream streamId fun state => { state with endStream := true }
    cases handles : config.requestStartHandler with
    | none =>
      exact ⟨fun stored => (ended stored).dispatchRequest config streamId,
        fun headers => by rw [applyHeaders, handles]; rfl⟩
    | some handler =>
      refine ⟨fun stored =>
        let answer := (ended stored).callRequestStartHandler handler streamId true
        if answer.1 then answer.2 else answer.2.dispatchRequest config streamId, fun headers => ?_⟩
      rw [applyHeaders, handles]
      rfl

theorem Connection.target_storedRequest {state : StreamState} (new : state.req = {})
    {headers : Headers} {target : Bytes}
    (once : headers.filter (·.1 = ascii ":path") = [(ascii ":path", target)]) :
    (storedRequest state headers).target = routeTarget target := by
  have path (req : Request) (noQuery : req.query = []) :
      (applyRequestHeader req (ascii ":path", target)).target = routeTarget target := by
    obtain ⟨samePath, sameQuery⟩ := splitPath_eq target
    unfold applyRequestHeader routeTarget
    dsimp only
    rw [if_neg (by decide), if_pos rfl, ← samePath, ← sameQuery, noQuery]
    rfl
  have other (req : Request) (header : Header) (differs : header.1 ≠ ascii ":path") :
      (applyRequestHeader req header).target = req.target := by
    unfold applyRequestHeader
    dsimp only
    rw [if_neg differs]
    split
    · split <;> rfl
    · split
      · split <;> rfl
      · split <;> rfl
  refine target_foldl path other once ?_
  rw [new]

/-- The request that `handle_request_headers` stores in a stream. -/
def H3.Session.storedRequest (ss : H3.StreamState) (headers : Headers) : Request :=
  { headers.foldl applyRequestHeader ss.req with ver := .http3 }

/-- The headers are used in no other way. -/
theorem H3.Session.handleRequestHeaders_eq {session : H3.Session} (server : session.mode = .server)
    (streamId : Nat) :
    ∃ finish : H3.Session → H3.Session, ∀ payload headers,
      session.decoder.decode payload = .ok headers →
        session.handleRequestHeaders streamId payload =
          .ok (finish (session.setStream streamId { session.stream streamId with
            headersComplete := true
            req := storedRequest (session.stream streamId) headers })) := by
  refine ⟨fun stored => if (session.stream streamId).endStream then stored.dispatchRequest streamId
    else stored, fun payload headers decoded => ?_⟩
  rw [handleRequestHeaders, server]
  dsimp only
  rw [decoded]
  rfl

theorem H3.Session.target_storedRequest {ss : H3.StreamState} (new : ss.req = {})
    {headers : Headers} {target : Bytes}
    (once : headers.filter (·.1 = ascii ":path") = [(ascii ":path", target)]) :
    (storedRequest ss headers).target = (target, []) := by
  have path (req : Request) (noQuery : req.query = []) :
      (applyRequestHeader req (ascii ":path", target)).target = (target, []) := by
    unfold applyRequestHeader
    dsimp only
    rw [if_neg (by decide), if_pos rfl, ← noQuery]
    rfl
  have other (req : Request) (header : Header) (differs : header.1 ≠ ascii ":path") :
      (applyRequestHeader req header).target = req.target := by
    unfold applyRequestHeader
    dsimp only
    rw [if_neg differs]
    split
    · split <;> rfl
    · split
      · rfl
      · split
        · rfl
        · split <;> rfl
  refine target_foldl path other once ?_
  rw [new]

/-! ### Agreement -/

/-- The parsers of the three versions store the same path and query for a request target if and only
if it is not empty and has no question mark. -/
theorem targets_agree_iff {target : Bytes} (clean : 32 ∉ target ∧ 13 ∉ target ∧ 10 ∉ target)
    {method version rest : Bytes} (word : 32 ∉ method ∧ 13 ∉ method) (single : 13 ∉ version)
    {req : Request} {consumed : Nat}
    (parsed : Http1.parseRequest (method ++ 32 :: (target ++ 32 :: version) ++ Http1.crlf ++ rest) =
      .ok (some (req, consumed)))
    {state : StreamState} (new : state.req = {}) {headers : Headers}
    (once : headers.filter (·.1 = ascii ":path") = [(ascii ":path", target)])
    {ss : H3.StreamState} (new3 : ss.req = {}) {headers3 : Headers}
    (once3 : headers3.filter (·.1 = ascii ":path") = [(ascii ":path", target)]) :
    req.target = (Connection.storedRequest state headers).target ∧
        (Connection.storedRequest state headers).target =
          (H3.Session.storedRequest ss headers3).target ↔
      target ≠ [] ∧ 63 ∉ target := by
  rw [target_parseRequest word ⟨clean.1, clean.2.1⟩ single parsed,
    Connection.target_storedRequest new once, H3.Session.target_storedRequest new3 once3,
    routeTarget_eq_iff]
  exact and_iff_right rfl

/-- A target that is all path. -/
theorem targets_agree_iff_users :
    ∃ req consumed, Http1.parseRequest (ascii "GET /users HTTP/1.1\r\n\r\n") =
        .ok (some (req, consumed)) ∧
      req.target = (Connection.storedRequest {} [(ascii ":path", ascii "/users")]).target ∧
      (Connection.storedRequest {} [(ascii ":path", ascii "/users")]).target =
        (H3.Session.storedRequest {} [(ascii ":path", ascii "/users")]).target := by
  have parsed : Http1.parseRequest
      (ascii "GET" ++ 32 :: (ascii "/users" ++ 32 :: ascii "HTTP/1.1") ++ Http1.crlf ++
        Http1.crlf) =
        .ok (some ({ path := ascii "/users" }, 23)) := by decide +kernel
  exact ⟨_, _, parsed, (targets_agree_iff (by decide) (by decide) (by decide) parsed rfl (by decide)
    rfl (by decide)).mpr (by decide)⟩

/-- A target with a query: HTTP/3 takes the query for a part of the path. -/
theorem not_targets_agree_query :
    ∃ req consumed, Http1.parseRequest (ascii "GET /users?page=2 HTTP/1.1\r\n\r\n") =
        .ok (some (req, consumed)) ∧
      req.target = (ascii "/users", ascii "page=2") ∧
      (H3.Session.storedRequest {} [(ascii ":path", ascii "/users?page=2")]).target =
        (ascii "/users?page=2", []) ∧
      ¬ (req.target =
          (Connection.storedRequest {} [(ascii ":path", ascii "/users?page=2")]).target ∧
        (Connection.storedRequest {} [(ascii ":path", ascii "/users?page=2")]).target =
          (H3.Session.storedRequest {} [(ascii ":path", ascii "/users?page=2")]).target) := by
  have parsed : Http1.parseRequest (ascii "GET /users?page=2 HTTP/1.1\r\n\r\n") =
      .ok (some ({ path := ascii "/users", query := ascii "page=2" }, 30)) := by decide +kernel
  exact ⟨_, _, parsed, rfl, by decide, by decide⟩

end AsyncNet.Http
