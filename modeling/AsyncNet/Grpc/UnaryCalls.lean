/-
This file is about unary calls from end to end: the calls of a channel, over an HTTP/2 session
on either side, to the request handler of a server and back. In whatever order the calls are
made and their bytes are sent and arrive, the handler of each is given its message, and the
call returns the handler's result with the status `ok`, unless the result is empty. The server
sends no body for an empty result, and the client takes that for an invalid message.

The metadata of a call and that of its reply arrive complete, but never alone: the handler
finds the host among the metadata of the call, since the session names that header `Host` and
`extract_from_headers` skips `host`, and the client finds the length of the body.
-/

import Mathlib.Algebra.Order.BigOperators.Group.List
import AsyncNet.Grpc.Transactions

namespace AsyncNet.Grpc

open AsyncNet.Http AsyncNet.Http.H2 AsyncNet.Library

/-! ### A channel and a server -/

/-- The start handler of a session that belongs to a server. As `requestStartHandler` does, it
leaves a request alone that starts no stream. -/
structure Server.SessionStart (server : Server) where
  handler : StartHandler
  leaves : ∀ sid req endStream, server.streamEntry req = none →
    handler sid req endStream = (false, [])

/-- The sessions of a client and of a server. The handlers of a run find the world as it is at one
moment. -/
def Server.connect (server : Server) (moment : Nat) (start : server.SessionStart) : System :=
  System.createWith (server.respond moment) (some start.handler)

/-- A unary call, with the result of its handler and the context as the handler leaves it. -/
structure Transaction where
  call : UnaryCall
  result : Bytes
  context : CallContext

/-- Calls whose handlers complete, without interceptors. The data that goes either way is less than
what a send window can take; one message of less than 2^30 bytes is. -/
structure Conversation (server : Server) (moment : Nat) (host : Bytes)
    (transactions : List Transaction) : Prop where
  nameable : Nameable host
  uncontrolled : server.interceptors = []
  few : transactions.length < 2 ^ 29
  sendable : ∀ transaction ∈ transactions, transaction.call.Sendable
  completes : ∀ transaction ∈ transactions,
    server.completed moment transaction.call.path transaction.call.requestData
      (transaction.call.context host) = some (transaction.result, transaction.context)
  harmless : ∀ transaction ∈ transactions,
    ∀ entry ∈ transaction.context.responseMetadata.toList, Harmless entry
  sent : (transactions.map fun transaction => 5 + transaction.call.requestData.length).sum <
    bodyLimit
  returned : (transactions.map fun transaction => 5 + transaction.result.length).sum < bodyLimit

/-- The requests that the request handler of a session has been given. -/
def givenRequests (events : List Http.Event) : List Request :=
  events.filterMap fun event =>
    match event with
    | .requestHandler req => some req
    | _ => none

theorem givenRequests_eq (start : StartHandler) (events : List Http.Event)
    (requests : List Request)
    (calls : Connection.answerCalls (some start) events = requests.map Event.requestHandler) :
    givenRequests events = requests := by
  have filtered : givenRequests (Connection.answerCalls (some start) events) =
      givenRequests events := by
    unfold givenRequests
    show List.filterMap _ ((events.filter _).filter _) = _
    rw [List.filterMap_filter, List.filterMap_filter]
    refine List.filterMap_congr fun event _ => ?_
    cases event <;> rfl
  rw [← filtered, calls, givenRequests, List.filterMap_map]
  exact List.filterMap_some

section Conversations

variable {server : Server} {moment : Nat} {host : Bytes} {transactions : List Transaction}

/-- A term of a sum is not more than the sum. -/
theorem length_lt_of_sum_lt {limit : Nat} {length : Transaction → Nat} {transaction : Transaction}
    (member : transaction ∈ transactions)
    (small : (transactions.map fun transaction => 5 + length transaction).sum < limit) :
    5 + length transaction < limit :=
  (List.single_le_sum (fun _ _ => Nat.zero_le _) _ (List.mem_map_of_mem member)).trans_lt small

/-- The handler of a call is given its message. -/
theorem Conversation.handed (conversation : Conversation server moment host transactions)
    {transaction : Transaction} (member : transaction ∈ transactions) :
    handed (transaction.call.handedRequest host) =
      some (transaction.call.path, transaction.call.requestData,
        transaction.call.context host) := by
  have short := length_lt_of_sum_lt member conversation.sent
  have limit : bodyLimit = 2 ^ 31 - 2 ^ 16 := rfl
  exact handed_handedRequest host (conversation.sendable transaction member) (by omega)

/-- The server responds to a call with the result of its handler. -/
theorem Conversation.respond (conversation : Conversation server moment host transactions)
    {transaction : Transaction} (member : transaction ∈ transactions) :
    server.respond moment (transaction.call.handedRequest host) =
      Answer.toResponse { data := transaction.result, context := transaction.context } :=
  respond_eq conversation.uncontrolled (conversation.handed member)
    (conversation.completes transaction member)

theorem requestHead_path (message : Message) :
    message.requestHead.path = message.request.path := rfl

/-- The start handler leaves a unary call to the request handler. -/
theorem streamEntry_eq_none {path request : Bytes} {context : CallContext} {req : Request}
    {outcome : Bytes × CallContext} (named : req.path = path)
    (completes : server.completed moment path request context = some outcome) :
    server.streamEntry req = none := by
  unfold Server.completed at completes
  unfold Server.streamEntry
  rw [named]
  split
  · split at completes
    · rename_i found
      rw [found]
      rfl
    · rename_i found
      rw [found]
      rfl
    · cases completes
  · rfl

theorem Conversation.manageable (conversation : Conversation server moment host transactions)
    (start : server.SessionStart) :
    Manageable requestMessage (server.respond moment) (some start.handler)
      (transactions.map fun transaction => transaction.call.toRequest host) where
  few := by
    rw [List.length_map]
    exact conversation.few
  readable := fun req member => by
    obtain ⟨transaction, isOne, rfl⟩ := List.mem_map.mp member
    have sendable := conversation.sendable transaction isOne
    have wellFormed := UnaryCall.wellFormed_toRequest sendable conversation.nameable
    exact {
      decodes := fun encoder word => decodes_encode encoder _ word
        (asciiHeaders_requestHeaders _ wellFormed)
        (UnaryCall.fits_requestHeaders sendable conversation.nameable)
      body := rfl
      single := rfl }
  declined := fun req member offer is sid endStream => by
    obtain ⟨transaction, isOne, rfl⟩ := List.mem_map.mp member
    cases is
    have sendable := conversation.sendable transaction isOne
    have named : (requestMessage (transaction.call.toRequest host)).requestHead.path =
        transaction.call.path := by
      rw [requestHead_path, UnaryCall.request_toRequest sendable conversation.nameable]
      rfl
    exact start.leaves sid _ endStream
      (streamEntry_eq_none named (conversation.completes transaction isOne))
  answerable := fun req member => by
    obtain ⟨transaction, isOne, rfl⟩ := List.mem_map.mp member
    have short := length_lt_of_sum_lt isOne conversation.returned
    have limit : bodyLimit = 2 ^ 31 - 2 ^ 16 := rfl
    rw [UnaryCall.request_toRequest (conversation.sendable transaction isOne)
      conversation.nameable, conversation.respond isOne]
    obtain ⟨trailers, trailing⟩ := exists_trailing (conversation.harmless transaction isOne)
    exact sendable_toResponse trailing (by omega)
  requestTotal := by
    rw [System.bodyTotal_requestMessages, List.map_map]
    refine lt_of_eq_of_lt (congrArg List.sum (List.map_congr_left fun transaction _ => ?_))
      conversation.sent
    show (encodeGrpcMessage transaction.call.requestData).length = _
    exact length_encodeGrpcMessage transaction.call.requestData
  answerTotal := by
    rw [System.bodyTotal_answers, List.map_map]
    refine lt_of_le_of_lt (List.sum_le_sum fun transaction isOne => ?_) conversation.returned
    obtain ⟨trailers, trailing⟩ := exists_trailing (conversation.harmless transaction isOne)
    show (server.respond moment (requestMessage _).request).bd.length ≤ _
    rw [UnaryCall.request_toRequest (conversation.sendable transaction isOne)
      conversation.nameable, conversation.respond isOne, toResponse_eq trailing]
    dsimp only
    split
    · exact Nat.zero_le _
    · rw [length_encodeGrpcMessage]

/-- Every call has been served and has been given its reply. -/
structure Settled (host : Bytes) (transactions : List Transaction) (system : System) : Prop where
  given : givenRequests system.server.connection.events =
    transactions.map fun transaction => transaction.call.handedRequest host
  complete : ∀ index transaction, transactions[index]? = some transaction →
    (system.client.connection.promises (.caller index)).complete = true
  replies : ∀ index transaction, transactions[index]? = some transaction →
    ∃ reply, unaryReply (system.client.connection.promises (.caller index)) = .ok reply ∧
      RepliesTo transaction.result transaction.context.responseMetadata reply

theorem Conversation.settled (conversation : Conversation server moment host transactions)
    {start : StartHandler} {system : System}
    (holds : System.Holds requestMessage (server.respond moment) (some start)
      (transactions.map fun transaction => transaction.call.toRequest host) [] [] system) :
    Settled host transactions system := by
  obtain ⟨calls, promises⟩ := holds.exchange.all_done
  have asked (index : Nat) (transaction : Transaction)
      (is : transactions[index]? = some transaction) :
      (transactions.map fun transaction => transaction.call.toRequest host)[index]? =
        some (transaction.call.toRequest host) := by
    rw [List.getElem?_map, is]
    rfl
  refine ⟨givenRequests_eq start _ _ ?_, fun index transaction is => ?_,
    fun index transaction is => ?_⟩
  · rw [calls, List.map_map, List.map_map]
    refine List.map_congr_left fun transaction isOne => ?_
    exact congrArg Event.requestHandler (UnaryCall.request_toRequest
      (conversation.sendable transaction isOne) conversation.nameable)
  · exact (promises index _ (asked index transaction is)).1
  · have isOne := List.mem_of_getElem? is
    have short := length_lt_of_sum_lt isOne conversation.returned
    have limit : bodyLimit = 2 ^ 31 - 2 ^ 16 := rfl
    obtain ⟨_, error, resp⟩ := promises index _ (asked index transaction is)
    rw [UnaryCall.request_toRequest (conversation.sendable transaction isOne)
      conversation.nameable, conversation.respond isOne] at resp
    obtain ⟨trailers, trailing⟩ := exists_trailing (conversation.harmless transaction isOne)
    exact exists_unaryReply trailing (by omega) error resp

/-- The calls of a channel are the requests that are submitted. -/
theorem submissions_eq {channel : Channel} {requests : List Request}
    (made : transactions.map (fun transaction => channel.submission transaction.call) =
      requests.map Except.ok) :
    requests = transactions.map fun transaction => transaction.call.toRequest channel.host := by
  induction transactions generalizing requests with
  | nil => exact List.map_eq_nil_iff.mp made.symm
  | cons transaction transactions inductionHypothesis =>
    cases requests with
    | nil => cases made
    | cons req requests =>
      obtain ⟨first, later⟩ := List.cons.inj made
      unfold Channel.submission at first
      split at first
      · cases first
      · rw [List.map_cons, ← inductionHypothesis later, ← Except.ok.inj first]

/-- The runs of a conversation do not fail, can be drained, and are settled then. -/
theorem Conversation.run (conversation : Conversation server moment host transactions)
    (start : server.SessionStart) (steps : List System.Step)
    (made : System.submissions steps =
      transactions.map fun transaction => transaction.call.toRequest host) :
    ∃ final, steps.foldlM System.step (server.connect moment start) = .ok final ∧
      (∃ more drained, System.submissions more = [] ∧
        more.foldlM System.step final = .ok drained ∧ drained.Drained ∧
        Settled host transactions drained) ∧
      (final.Drained → Settled host transactions final) := by
  have manageable := conversation.manageable start
  rw [← made] at manageable
  obtain ⟨final, toServer, toClient, run, holds⟩ :=
    (System.holds_createWith requestMessage (server.respond moment) (some start.handler)).run steps
      manageable
  rw [List.nil_append, made] at holds
  rw [made] at manageable
  refine ⟨final, run, ?_, fun drained => ?_⟩
  · obtain ⟨more, drained, silent, run', done⟩ := holds.drain manageable
    exact ⟨more, drained, silent, run', done.drained, conversation.settled done⟩
  · obtain ⟨rfl, rfl⟩ := holds.frames_eq_nil drained
    exact conversation.settled holds

/-- The calls of a conversation can all be made and settled. -/
theorem Conversation.exists_settled (conversation : Conversation server moment host transactions)
    (start : server.SessionStart) :
    ∃ steps final, System.submissions steps =
        transactions.map (fun transaction => transaction.call.toRequest host) ∧
      steps.foldlM System.step (server.connect moment start) = .ok final ∧ final.Drained ∧
      Settled host transactions final := by
  set requests := transactions.map fun transaction => transaction.call.toRequest host
  have made : System.submissions (requests.map System.Step.submit) = requests := by
    rw [System.submissions, List.filterMap_map]
    exact List.filterMap_some
  obtain ⟨final, run, ⟨more, drained, silent, run', done, settled⟩, _⟩ :=
    conversation.run start _ made
  refine ⟨requests.map System.Step.submit ++ more, drained, ?_, ?_, done, settled⟩
  · rw [System.submissions, List.filterMap_append]
    show System.submissions _ ++ System.submissions more = _
    rw [made, silent, List.append_nil]
  · rw [List.foldlM_append, run]
    exact run'

end Conversations

/-! ### Results -/

/-- The handler of a call has been given its message and has completed with the result, and the call
has returned that with the status `ok`. -/
structure Fulfilled (server : Server) (moment : Nat) (system : System) (index : Nat)
    (transaction : Transaction) : Prop where
  given : ∃ req context, (givenRequests system.server.connection.events)[index]? = some req ∧
    handed req = some (transaction.call.path, transaction.call.requestData, context) ∧
    server.completed moment transaction.call.path transaction.call.requestData context =
      some (transaction.result, transaction.context)
  complete : (system.client.connection.promises (.caller index)).complete = true
  returns : ∃ reply, unaryReply (system.client.connection.promises (.caller index)) = .ok reply ∧
    reply.status.code = .ok ∧ reply.data = transaction.result

theorem Conversation.fulfilled_iff {server : Server} {moment : Nat} {host : Bytes}
    {transactions : List Transaction} {system : System}
    (conversation : Conversation server moment host transactions)
    (settled : Settled host transactions system) (index : Nat) (transaction : Transaction)
    (is : transactions[index]? = some transaction) :
    Fulfilled server moment system index transaction ↔ transaction.result ≠ [] := by
  have isOne := List.mem_of_getElem? is
  obtain ⟨reply, returned, replies⟩ := settled.replies index transaction is
  constructor
  · rintro ⟨_, _, other, returned', ok, _⟩ empty
    cases returned.symm.trans returned'
    rw [replies.code, if_pos empty] at ok
    exact absurd ok (show StatusCode.internal ≠ StatusCode.ok by decide)
  · intro nonempty
    refine ⟨⟨transaction.call.handedRequest host, transaction.call.context host, ?_,
      conversation.handed isOne, conversation.completes transaction isOne⟩,
      settled.complete index transaction is, reply, returned, ?_, replies.data⟩
    · rw [settled.given, List.getElem?_map, is]
      rfl
    · rw [replies.code, if_neg nonempty]

/-! ### Metadata -/

/-- The handler of a call has been given that metadata. -/
def HandlerSees (system : System) (index : Nat) (md : Metadata) : Prop :=
  ∃ req path request context, (givenRequests system.server.connection.events)[index]? = some req ∧
    handed req = some (path, request, context) ∧ context.initialMetadata = md

/-- The caller has been given that metadata. -/
def CallerReceives (system : System) (index : Nat) (md : Metadata) : Prop :=
  ∃ reply, unaryReply (system.client.connection.promises (.caller index)) = .ok reply ∧
    reply.responseMetadata = some md

section Transfer

variable {server : Server} {moment : Nat} {host : Bytes} {transactions : List Transaction}
  {system : System}

theorem HandlerSees.unique {index : Nat} {md other : Metadata}
    (left : HandlerSees system index md) (right : HandlerSees system index other) : md = other := by
  obtain ⟨req, path, request, context, given, handed, rfl⟩ := left
  obtain ⟨req', path', request', context', given', handed', rfl⟩ := right
  cases given.symm.trans given'
  cases handed.symm.trans handed'
  rfl

/-- The handler sees the host as well. -/
theorem Conversation.handlerSees (conversation : Conversation server moment host transactions)
    (settled : Settled host transactions system) (index : Nat) (transaction : Transaction)
    (is : transactions[index]? = some transaction) :
    HandlerSees system index (transaction.call.initialMetadata.insert (ascii "Host") host) := by
  refine ⟨transaction.call.handedRequest host, _, _, _, ?_,
    conversation.handed (List.mem_of_getElem? is), rfl⟩
  rw [settled.given, List.getElem?_map, is]
  rfl

/-- The caller receives the length of the body as well, if there is one. -/
theorem Settled.callerReceives (settled : Settled host transactions system) (index : Nat)
    (transaction : Transaction) (is : transactions[index]? = some transaction)
    (carried : Carried transaction.context.responseMetadata) :
    CallerReceives system index
      (if transaction.result = [] then transaction.context.responseMetadata
        else transaction.context.responseMetadata.insert (ascii "content-length")
          (decimal (5 + transaction.result.length))) := by
  obtain ⟨reply, returned, replies⟩ := settled.replies index transaction is
  exact ⟨reply, returned, replies.responseMetadata carried⟩

/-- The host is an entry that the call has not sent. -/
theorem Conversation.not_handlerSees (conversation : Conversation server moment host transactions)
    (settled : Settled host transactions system) (index : Nat) (transaction : Transaction)
    (is : transactions[index]? = some transaction) :
    ¬ HandlerSees system index transaction.call.initialMetadata := by
  intro sees
  have same := (conversation.handlerSees settled index transaction is).unique sees
  have carried := (conversation.sendable transaction (List.mem_of_getElem? is)).carried
  refine carried.not_mem (ascii "Host") (Or.inr (by decide)) ?_
  rw [← same]
  exact Std.ExtTreeMap.mem_insert_self

end Transfer

/-! ### One call -/

/-- One call, with a message and a result of less than 2^30 bytes each. -/
theorem conversation_single {server : Server} {moment : Nat} {host : Bytes}
    {transaction : Transaction} (nameable : Nameable host)
    (uncontrolled : server.interceptors = []) (sendable : transaction.call.Sendable)
    (completes : server.completed moment transaction.call.path transaction.call.requestData
      (transaction.call.context host) = some (transaction.result, transaction.context))
    (harmless : ∀ entry ∈ transaction.context.responseMetadata.toList, Harmless entry)
    (sent : transaction.call.requestData.length < 2 ^ 30)
    (returned : transaction.result.length < 2 ^ 30) :
    Conversation server moment host [transaction] where
  nameable := nameable
  uncontrolled := uncontrolled
  few := show 1 < 2 ^ 29 by decide
  sendable := fun other member => List.mem_singleton.mp member ▸ sendable
  completes := fun other member => List.mem_singleton.mp member ▸ completes
  harmless := fun other member => List.mem_singleton.mp member ▸ harmless
  sent := by
    show 5 + transaction.call.requestData.length < 2 ^ 31 - 2 ^ 16
    omega
  returned := by
    show 5 + transaction.result.length < 2 ^ 31 - 2 ^ 16
    omega

/-- A server with one method, which returns a fixed result. -/
def fixedServer (result : Bytes) : Server :=
  Server.registerMethod {} (ascii "Echo") (ascii "Say") fun _ _ => .returned result

/-- A session of that server needs no start handler of its own: it leaves all requests alone. -/
def fixedStart (result : Bytes) : (fixedServer result).SessionStart :=
  ⟨fun _ _ _ => (false, []), fun _ _ _ _ => rfl⟩

/-- A call of the method. -/
def fixedTransaction (result : Bytes) : Transaction where
  call := { service := ascii "Echo", method := ascii "Say", requestData := ascii "hi" }
  result := result
  context := UnaryCall.context
    { service := ascii "Echo", method := ascii "Say", requestData := ascii "hi" } (ascii "h")

theorem carried_empty : Carried ∅ := fun entry member => by
  rw [Std.ExtTreeMap.toList_eq_nil_iff.mpr rfl] at member
  cases member

theorem conversation_fixed (result : Bytes) (short : result.length < 2 ^ 30) :
    Conversation (fixedServer result) 0 (ascii "h") [fixedTransaction result] := by
  refine conversation_single ⟨by decide, by decide⟩ rfl ?_ rfl carried_empty.trailing.harmless
    (show 2 < 2 ^ 30 by decide) short
  exact ⟨show IsLetters (ascii "Echo") by decide, show IsLetters (ascii "Say") by decide,
    show (encodeString (makePath (ascii "Echo") (ascii "Say"))).length < 2 ^ 31 by decide,
    carried_empty⟩

/-- A server with one method, which returns its message and leaves an entry in the metadata. -/
def tracedServer : Server :=
  Server.registerMethodWithContext {} (ascii "Echo") (ascii "Say") fun _ request context =>
    (.returned request,
      { context with responseMetadata := Std.ExtTreeMap.insert ∅ (ascii "trace") (ascii "9") })

def tracedStart : tracedServer.SessionStart :=
  ⟨fun _ _ _ => (false, []), fun _ _ _ _ => rfl⟩

/-- A call of the method, with an entry of metadata. -/
def tracedCall : UnaryCall where
  service := ascii "Echo"
  method := ascii "Say"
  requestData := ascii "hi"
  initialMetadata := Std.ExtTreeMap.insert ∅ (ascii "trace") (ascii "7")

def tracedTransaction : Transaction where
  call := tracedCall
  result := ascii "hi"
  context :=
    { tracedCall.context (ascii "h") with
      responseMetadata := Std.ExtTreeMap.insert ∅ (ascii "trace") (ascii "9") }

theorem carried_insert (name value : Bytes) (ordinary : Ordinary (name, value))
    (fits : Fits (name, value)) : Carried (Std.ExtTreeMap.insert ∅ name value) := by
  intro entry member
  have found := Std.ExtTreeMap.mem_toList_iff_getElem?_eq_some.mp member
  rw [Std.ExtTreeMap.getElem?_insert, Std.ExtTreeMap.getElem?_empty] at found
  split at found
  · rename_i same
    have isName : name = entry.1 := Std.LawfulEqOrd.eq_of_compare same
    have isValue : value = entry.2 := Option.some.inj found
    rw [isName, isValue] at ordinary fits
    exact ⟨ordinary, fits⟩
  · cases found

theorem carried_nine : Carried (Std.ExtTreeMap.insert ∅ (ascii "trace") (ascii "9")) :=
  carried_insert _ _ ⟨by decide, by decide, by decide, by decide, by decide⟩ (by decide)

theorem conversation_traced :
    Conversation tracedServer 0 (ascii "h") [tracedTransaction] := by
  have seven : Carried (Std.ExtTreeMap.insert ∅ (ascii "trace") (ascii "7")) :=
    carried_insert _ _ ⟨by decide, by decide, by decide, by decide, by decide⟩ (by decide)
  refine conversation_single ⟨by decide, by decide⟩ rfl ?_ rfl carried_nine.trailing.harmless
    (show 2 < 2 ^ 30 by decide) (show 2 < 2 ^ 30 by decide)
  exact ⟨show IsLetters (ascii "Echo") by decide, show IsLetters (ascii "Say") by decide,
    show (encodeString (makePath (ascii "Echo") (ascii "Say"))).length < 2 ^ 31 by decide, seven⟩

/-! ### Every call -/

/-- Whatever the order in which the calls of a channel are made and bytes are sent and arrive, the
sessions do not fail and can be drained, and once they are, the calls that have been fulfilled are
those with a result that is not empty. -/
theorem unaryCalls_fulfilled_iff (server : Server) (moment : Nat) (start : server.SessionStart)
    (channel : Channel) (transactions : List Transaction) (steps : List System.Step)
    (made : transactions.map (fun transaction => channel.submission transaction.call) =
      (System.submissions steps).map Except.ok)
    (conversation : Conversation server moment channel.host transactions) :
    ∃ final, steps.foldlM System.step (server.connect moment start) = .ok final ∧
      (∃ more drained, System.submissions more = [] ∧
        more.foldlM System.step final = .ok drained ∧ drained.Drained) ∧
      (final.Drained → ∀ index transaction, transactions[index]? = some transaction →
        (Fulfilled server moment final index transaction ↔ transaction.result ≠ [])) := by
  obtain ⟨final, run, ⟨more, drained, silent, run', done, _⟩, settled⟩ :=
    conversation.run start steps (submissions_eq made)
  exact ⟨final, run, ⟨more, drained, silent, run', done⟩, fun drained index transaction is =>
    conversation.fulfilled_iff (settled drained) index transaction is⟩

/-- A call whose handler returns two letters, under way. -/
theorem unaryCalls_fulfilled_iff_fixed :
    ∃ final, [.submit ((fixedTransaction (ascii "yo")).call.toRequest (ascii "h")), .flushClient,
        .deliverToServer 40, .flushServer].foldlM System.step
          ((fixedServer (ascii "yo")).connect 0 (fixedStart (ascii "yo"))) = .ok final ∧
      (∃ more drained, System.submissions more = [] ∧
        more.foldlM System.step final = .ok drained ∧ drained.Drained) ∧
      (final.Drained → ∀ index transaction,
        [fixedTransaction (ascii "yo")][index]? = some transaction →
        (Fulfilled (fixedServer (ascii "yo")) 0 final index transaction ↔
          transaction.result ≠ [])) :=
  unaryCalls_fulfilled_iff (fixedServer (ascii "yo")) 0 (fixedStart (ascii "yo"))
    { host := ascii "h" } [fixedTransaction (ascii "yo")] _ rfl
    (conversation_fixed (ascii "yo") (by decide))

/-- A handler returns the empty string, and the call does not return it. -/
theorem not_fulfilled_fixed :
    Conversation (fixedServer []) 0 (ascii "h") [fixedTransaction []] ∧
      ∃ steps final,
        System.submissions steps = [(fixedTransaction []).call.toRequest (ascii "h")] ∧
        steps.foldlM System.step ((fixedServer []).connect 0 (fixedStart [])) = .ok final ∧
        final.Drained ∧ ¬ Fulfilled (fixedServer []) 0 final 0 (fixedTransaction []) := by
  have conversation := conversation_fixed [] (by decide)
  obtain ⟨steps, final, made, run, drained, settled⟩ :=
    conversation.exists_settled (fixedStart [])
  refine ⟨conversation, steps, final, made, run, drained, fun fulfilled => ?_⟩
  exact (conversation.fulfilled_iff settled 0 _ rfl).mp fulfilled rfl

/-- In every run the handler of each call sees its metadata and the host, and the caller receives
the metadata of the reply and the length of the body. They never see just what was sent. -/
theorem metadata_transfer (server : Server) (moment : Nat) (start : server.SessionStart)
    (channel : Channel) (transactions : List Transaction) (steps : List System.Step)
    (made : transactions.map (fun transaction => channel.submission transaction.call) =
      (System.submissions steps).map Except.ok)
    (conversation : Conversation server moment channel.host transactions)
    (carried : ∀ transaction ∈ transactions, Carried transaction.context.responseMetadata) :
    ∃ final, steps.foldlM System.step (server.connect moment start) = .ok final ∧
      (∃ more drained, System.submissions more = [] ∧
        more.foldlM System.step final = .ok drained ∧ drained.Drained) ∧
      (final.Drained → ∀ index transaction, transactions[index]? = some transaction →
        HandlerSees final index
            (transaction.call.initialMetadata.insert (ascii "Host") channel.host) ∧
          CallerReceives final index
            (if transaction.result = [] then transaction.context.responseMetadata
              else transaction.context.responseMetadata.insert (ascii "content-length")
                (decimal (5 + transaction.result.length))) ∧
          ¬ (HandlerSees final index transaction.call.initialMetadata ∧
            CallerReceives final index transaction.context.responseMetadata)) := by
  obtain ⟨final, run, ⟨more, drained, silent, run', done, _⟩, settled⟩ :=
    conversation.run start steps (submissions_eq made)
  refine ⟨final, run, ⟨more, drained, silent, run', done⟩, fun drained index transaction is => ?_⟩
  exact ⟨conversation.handlerSees (settled drained) index transaction is,
    (settled drained).callerReceives index transaction is
      (carried transaction (List.mem_of_getElem? is)),
    fun both => conversation.not_handlerSees (settled drained) index transaction is both.1⟩

/-- A call with an entry of metadata, and one in its reply. -/
theorem metadata_transfer_traced :
    ∃ final, [.submit (tracedCall.toRequest (ascii "h")), .flushClient, .deliverToServer 40,
        .flushServer].foldlM System.step (tracedServer.connect 0 tracedStart) = .ok final ∧
      (∃ more drained, System.submissions more = [] ∧
        more.foldlM System.step final = .ok drained ∧ drained.Drained) ∧
      (final.Drained → ∀ index transaction, [tracedTransaction][index]? = some transaction →
        HandlerSees final index
            (transaction.call.initialMetadata.insert (ascii "Host") (ascii "h")) ∧
          CallerReceives final index
            (if transaction.result = [] then transaction.context.responseMetadata
              else transaction.context.responseMetadata.insert (ascii "content-length")
                (decimal (5 + transaction.result.length))) ∧
          ¬ (HandlerSees final index transaction.call.initialMetadata ∧
            CallerReceives final index transaction.context.responseMetadata)) :=
  metadata_transfer tracedServer 0 tracedStart { host := ascii "h" } [tracedTransaction] _ rfl
    conversation_traced fun _ member => List.mem_singleton.mp member ▸ carried_nine

/-- The handler of that call does not see just the metadata of the call. -/
theorem not_handlerSees_traced :
    Conversation tracedServer 0 (ascii "h") [tracedTransaction] ∧
      ∃ steps final, System.submissions steps = [tracedCall.toRequest (ascii "h")] ∧
        steps.foldlM System.step (tracedServer.connect 0 tracedStart) = .ok final ∧
        final.Drained ∧ ¬ HandlerSees final 0 tracedCall.initialMetadata := by
  obtain ⟨steps, final, made, run, drained, settled⟩ :=
    conversation_traced.exists_settled tracedStart
  exact ⟨conversation_traced, steps, final, made, run, drained,
    conversation_traced.not_handlerSees settled 0 tracedTransaction rfl⟩

end AsyncNet.Grpc
