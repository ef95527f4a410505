/-
This file is about a client and a server that talk to each other. The client submits
requests; the bytes that either side has to send reach the other in order, in pieces of
any size and at any time. In whatever order this happens, neither side fails, and from
every point on the two can be drained. Then the server has given every request to the
handler, once and in the order of their submission, and every promise of the client has
been completed with the response to its request.

A header string of 2^31 bytes or more breaks this: the decoder reports the bytes it has
read as an `int`, and may go on inside the string.
-/

import AsyncNet.Http.HpackLongString
import AsyncNet.Http.Http2Exchange
import AsyncNet.Http.Http2HeaderFields

namespace AsyncNet.Http

open Library H2

/-- A client and a server, with the bytes on their way between them. -/
structure System where
  client : Session
  server : Session
  toServer : Bytes := []
  toClient : Bytes := []
  submitted : Nat := 0

namespace System

/-! ### Steps -/

/-- What can happen: a request is submitted, a side hands its output to the network, or a number of
bytes arrive. -/
inductive Step where
  | submit (req : Request)
  | flushClient
  | flushServer
  | deliverToServer (count : Nat)
  | deliverToClient (count : Nat)

def create (handler : Request → Response) : System where
  client := Session.create .client
  server := (Session.create .server).op (.setRequestHandler (some handler))

/-- The server has a start handler too. -/
def createWith (handler : Request → Response) (start : Option StartHandler) : System where
  client := Session.create .client
  server := ((Session.create .server).op (.setRequestHandler (some handler))).op
    (.setRequestStartHandler start)

/-- The promises of the client are numbered in the order of submission. -/
def step (system : System) : Step → Except Fault System
  | .submit req =>
      .ok { system with
        client := system.client.op
          (.call (.submitRequest req (some (.caller system.submitted)) false))
        submitted := system.submitted + 1 }
  | .flushClient =>
      .ok { system with
        client := system.client.op (.call .getPendingOutput)
        toServer := system.toServer ++ system.client.connection.outputBuf }
  | .flushServer =>
      .ok { system with
        server := system.server.op (.call .getPendingOutput)
        toClient := system.toClient ++ system.server.connection.outputBuf }
  | .deliverToServer count => do
      let server ← system.server.feed (system.toServer.take count)
      return { system with server, toServer := system.toServer.drop count }
  | .deliverToClient count => do
      let client ← system.client.feed (system.toClient.take count)
      return { system with client, toClient := system.toClient.drop count }

/-- The requests that are submitted in a run. -/
def submissions (steps : List Step) : List Request :=
  steps.filterMap fun step =>
    match step with
    | .submit req => some req
    | _ => none

/-- Nothing is on its way or waits to be sent. -/
def Drained (system : System) : Prop :=
  system.toServer = [] ∧ system.toClient = [] ∧ system.client.connection.outputBuf = [] ∧
    system.server.connection.outputBuf = []

/-! ### The invariant -/

/-- The bytes on their way, after those that the readers hold, are the frames of an exchange. -/
structure Holds (read : Request → Message) (handler : Request → Response)
    (start : Option StartHandler) (requests : List Request) (toServer toClient : List Frame)
    (system : System) : Prop where
  exchange : Exchange read handler start requests system.client.connection system.server.connection
    toServer toClient
  clientConfig : system.client.config = Connection.clientConfig
  serverConfig : system.server.config = Connection.serverConfig handler start
  serverUnread : Session.Unread system.server.reader
    (system.toServer ++ system.client.connection.outputBuf) toServer
  clientUnread : Session.Unread system.client.reader
    (system.toClient ++ system.server.connection.outputBuf) toClient
  submitted : system.submitted = requests.length

section Invariant

variable {read : Request → Message} {handler : Request → Response} {start : Option StartHandler}
  {requests : List Request} {toServer toClient : List Frame} {system : System}

theorem holds_createWith (read : Request → Message) (handler : Request → Response)
    (start : Option StartHandler) :
    Holds read handler start [] [settingsFrame] [settingsFrame] (createWith handler start) where
  exchange := exchange_create read handler start
  clientConfig := rfl
  serverConfig := rfl
  serverUnread := ⟨FrameReader.coherent_new, rfl, fun f member => by
    rw [List.mem_singleton.mp member]
    exact Connection.proper_of_isControl .settings⟩
  clientUnread := ⟨FrameReader.coherent_new, rfl, fun f member => by
    rw [List.mem_singleton.mp member]
    exact Connection.proper_of_isControl .settings⟩
  submitted := rfl

theorem holds_create (read : Request → Message) (handler : Request → Response) :
    Holds read handler none [] [settingsFrame] [settingsFrame] (create handler) :=
  holds_createWith read handler none

theorem Holds.submit (req : Request)
    (manageable : Manageable read handler start (requests ++ [req]))
    (holds : Holds read handler start requests toServer toClient system) :
    ∃ next toServer', system.step (.submit req) = .ok next ∧
      Holds read handler start (requests ++ [req]) toServer' toClient next := by
  obtain ⟨frames, proper, output, exchange⟩ := holds.exchange.submits req manageable
  refine ⟨_, toServer ++ frames, rfl, ?_⟩
  rw [← holds.submitted] at output exchange
  exact {
    exchange := exchange
    clientConfig := holds.clientConfig
    serverConfig := holds.serverConfig
    serverUnread := by
      have unread := holds.serverUnread.append proper
      rw [List.append_assoc, ← output] at unread
      exact unread
    clientUnread := holds.clientUnread
    submitted := by
      rw [List.length_append, ← holds.submitted]
      rfl }

theorem Holds.flushClient (holds : Holds read handler start requests toServer toClient system) :
    ∃ next, system.step .flushClient = .ok next ∧
      Holds read handler start requests toServer toClient next ∧
      next.client.connection.outputBuf = [] ∧
      next.server.connection = system.server.connection := by
  refine ⟨_, rfl, ?_, rfl, rfl⟩
  exact { holds with
    exchange := holds.exchange.client_flushes
    serverUnread := by
      have unread := holds.serverUnread
      rw [← List.append_nil (system.toServer ++ system.client.connection.outputBuf)] at unread
      exact unread }

theorem Holds.flushServer (holds : Holds read handler start requests toServer toClient system) :
    ∃ next, system.step .flushServer = .ok next ∧
      Holds read handler start requests toServer toClient next ∧
      next.server.connection.outputBuf = [] ∧
      next.server.connection.events = system.server.connection.events := by
  refine ⟨_, rfl, ?_, rfl, rfl⟩
  exact { holds with
    exchange := holds.exchange.server_flushes
    clientUnread := by
      have unread := holds.clientUnread
      rw [← List.append_nil (system.toClient ++ system.server.connection.outputBuf)] at unread
      exact unread }

/-- Bytes arrive at the server. If they complete a frame, less remains to be done. -/
theorem Holds.deliverToServer (count : Nat) (manageable : Manageable read handler start requests)
    (holds : Holds read handler start requests toServer toClient system) :
    ∃ next toServer' toClient', system.step (.deliverToServer count) = .ok next ∧
      Holds read handler start requests toServer' toClient' next ∧
      next.toServer = system.toServer.drop count ∧ next.client = system.client ∧
      (toServer' ≠ toServer →
        remaining start requests next.server.connection toServer' toClient' <
          remaining start requests system.server.connection toServer toClient) := by
  set origin := remaining start requests system.server.connection toServer toClient
  have fed := @Session.feed_unread (Connection.serverConfig handler start)
    (fun connection frames sent =>
      Exchange read handler start requests system.client.connection connection frames
        (toClient ++ sent) ∧
        remaining start requests connection frames (toClient ++ sent) ≤ origin ∧
        (frames ≠ toServer →
          remaining start requests connection frames (toClient ++ sent) < origin))
    (fun connection frames sent both => both.1.alive_server)
    (fun connection f frames sent both => by
      obtain ⟨after, replies, run, receipt, exchange, less⟩ := both.1.server_receives manageable
      rw [List.append_assoc] at exchange less
      have lower := less.trans_le both.2.1
      exact ⟨after, replies, run, receipt.outputBuf, receipt.proper, exchange, lower.le,
        fun _ => lower⟩)
    (system.toServer.take count)
    (system.toServer.drop count ++ system.client.connection.outputBuf) system.server toServer
    holds.serverConfig (by
      rw [List.append_nil]
      exact ⟨holds.exchange, le_rfl, fun different => absurd rfl different⟩)
    (by
      rw [← List.append_assoc, List.take_append_drop]
      exact holds.serverUnread)
  obtain ⟨server, frames, replies, run, config, output, proper, ⟨exchange, _, less⟩, unread⟩ := fed
  refine ⟨{ system with server := server, toServer := system.toServer.drop count }, frames,
    toClient ++ replies, ?_, ?_, rfl, rfl, less⟩
  · rw [step, run]
    rfl
  · exact { holds with
      exchange := exchange
      serverConfig := config
      serverUnread := unread
      clientUnread := by
        have unread' := holds.clientUnread.append proper
        rw [List.append_assoc, ← output] at unread'
        exact unread' }

/-- Bytes arrive at the client. If they complete a frame, less remains to be done. -/
theorem Holds.deliverToClient (count : Nat) (manageable : Manageable read handler start requests)
    (holds : Holds read handler start requests toServer toClient system) :
    ∃ next toServer' toClient', system.step (.deliverToClient count) = .ok next ∧
      Holds read handler start requests toServer' toClient' next ∧
      next.toClient = system.toClient.drop count ∧ next.server = system.server ∧
      (toClient' ≠ toClient →
        remaining start requests next.server.connection toServer' toClient' <
          remaining start requests system.server.connection toServer toClient) := by
  set origin := remaining start requests system.server.connection toServer toClient
  have fed := @Session.feed_unread Connection.clientConfig
    (fun connection frames sent =>
      Exchange read handler start requests connection system.server.connection (toServer ++ sent)
        frames ∧
        remaining start requests system.server.connection (toServer ++ sent) frames ≤ origin ∧
        (frames ≠ toClient →
          remaining start requests system.server.connection (toServer ++ sent) frames < origin))
    (fun connection frames sent both => both.1.alive_client)
    (fun connection f frames sent both => by
      obtain ⟨after, replies, run, receipt, exchange, less⟩ := both.1.client_receives manageable
      rw [List.append_assoc] at exchange less
      have lower := less.trans_le both.2.1
      exact ⟨after, replies, run, receipt.outputBuf, receipt.proper, exchange, lower.le,
        fun _ => lower⟩)
    (system.toClient.take count)
    (system.toClient.drop count ++ system.server.connection.outputBuf) system.client toClient
    holds.clientConfig (by
      rw [List.append_nil]
      exact ⟨holds.exchange, le_rfl, fun different => absurd rfl different⟩)
    (by
      rw [← List.append_assoc, List.take_append_drop]
      exact holds.clientUnread)
  obtain ⟨client, frames, replies, run, config, output, proper, ⟨exchange, _, less⟩, unread⟩ := fed
  refine ⟨{ system with client := client, toClient := system.toClient.drop count },
    toServer ++ replies, frames, ?_, ?_, rfl, rfl, less⟩
  · rw [step, run]
    rfl
  · exact { holds with
      exchange := exchange
      clientConfig := config
      clientUnread := unread
      serverUnread := by
        have unread' := holds.serverUnread.append proper
        rw [List.append_assoc, ← output] at unread'
        exact unread' }

/-! ### Runs -/

/-- A step preserves the invariant, with the request that it submits. -/
theorem Holds.step (action : Step)
    (manageable : Manageable read handler start (requests ++ submissions [action]))
    (holds : Holds read handler start requests toServer toClient system) :
    ∃ next toServer' toClient', system.step action = .ok next ∧
      Holds read handler start (requests ++ submissions [action]) toServer' toClient' next := by
  cases action with
  | submit req =>
    obtain ⟨next, toServer', run, holds'⟩ := holds.submit req manageable
    exact ⟨next, toServer', toClient, run, holds'⟩
  | flushClient =>
    rw [show submissions [Step.flushClient] = [] from rfl, List.append_nil]
    obtain ⟨next, run, holds', _⟩ := holds.flushClient
    exact ⟨next, toServer, toClient, run, holds'⟩
  | flushServer =>
    rw [show submissions [Step.flushServer] = [] from rfl, List.append_nil]
    obtain ⟨next, run, holds', _⟩ := holds.flushServer
    exact ⟨next, toServer, toClient, run, holds'⟩
  | deliverToServer count =>
    rw [show submissions [Step.deliverToServer count] = [] from rfl, List.append_nil] at *
    obtain ⟨next, toServer', toClient', run, holds', _⟩ := holds.deliverToServer count manageable
    exact ⟨next, toServer', toClient', run, holds'⟩
  | deliverToClient count =>
    rw [show submissions [Step.deliverToClient count] = [] from rfl, List.append_nil] at *
    obtain ⟨next, toServer', toClient', run, holds', _⟩ := holds.deliverToClient count manageable
    exact ⟨next, toServer', toClient', run, holds'⟩

/-- A run does not fail, and preserves the invariant. -/
theorem Holds.run (steps : List Step)
    (manageable : Manageable read handler start (requests ++ submissions steps))
    (holds : Holds read handler start requests toServer toClient system) :
    ∃ final toServer' toClient', steps.foldlM System.step system = .ok final ∧
      Holds read handler start (requests ++ submissions steps) toServer' toClient' final := by
  induction steps generalizing requests toServer toClient system with
  | nil =>
    refine ⟨system, toServer, toClient, rfl, ?_⟩
    rw [show submissions [] = [] from rfl, List.append_nil]
    exact holds
  | cons action steps inductionHypothesis =>
    have split : submissions (action :: steps) = submissions [action] ++ submissions steps :=
      List.filterMap_append (l := [action])
    rw [split, ← List.append_assoc] at manageable ⊢
    obtain ⟨next, toServer', toClient', first, holds'⟩ := holds.step action manageable.of_append
    rw [List.foldlM_cons, first]
    exact inductionHypothesis manageable holds'

/-- With no frame on its way the system is drained. -/
theorem Holds.drained (holds : Holds read handler start requests [] [] system) :
    system.Drained := by
  obtain ⟨_, toServer⟩ := List.append_eq_nil_iff.mp holds.serverUnread.bytes
  obtain ⟨_, toClient⟩ := List.append_eq_nil_iff.mp holds.clientUnread.bytes
  rw [List.append_eq_nil_iff] at toServer toClient
  exact ⟨toServer.1, toClient.1, toServer.2, toClient.2⟩

/-- In a drained system no frame is on its way. -/
theorem Holds.frames_eq_nil (holds : Holds read handler start requests toServer toClient system)
    (drained : system.Drained) : toServer = [] ∧ toClient = [] := by
  obtain ⟨wire, wire', output, output'⟩ := drained
  have serverUnread := holds.serverUnread
  have clientUnread := holds.clientUnread
  rw [wire, output] at serverUnread
  rw [wire', output'] at clientUnread
  exact ⟨serverUnread.eq_nil, clientUnread.eq_nil⟩

/-- All that the client has sent is delivered. -/
theorem Holds.drainToServer (manageable : Manageable read handler start requests)
    (holds : Holds read handler start requests toServer toClient system) (pending : toServer ≠ []) :
    ∃ steps next toServer' toClient', submissions steps = [] ∧
      steps.foldlM System.step system = .ok next ∧
      Holds read handler start requests toServer' toClient' next ∧
      remaining start requests next.server.connection toServer' toClient' <
        remaining start requests system.server.connection toServer toClient := by
  obtain ⟨flushed, first, holds', empty, same⟩ := holds.flushClient
  obtain ⟨next, toServer', toClient', second, holds'', wire, client, less⟩ :=
    holds'.deliverToServer flushed.toServer.length manageable
  have taken : toServer' = [] := by
    have unread := holds''.serverUnread
    rw [wire, client, empty, List.drop_length] at unread
    exact unread.eq_nil
  rw [same] at less
  refine ⟨[.flushClient, .deliverToServer flushed.toServer.length], next, toServer', toClient', rfl,
    ?_, holds'', less fun stays => pending (stays ▸ taken)⟩
  rw [List.foldlM_cons, first]
  show [Step.deliverToServer flushed.toServer.length].foldlM System.step flushed = .ok next
  rw [List.foldlM_cons, second]
  rfl

/-- All that the server has sent is delivered. -/
theorem Holds.drainToClient (manageable : Manageable read handler start requests)
    (holds : Holds read handler start requests toServer toClient system) (pending : toClient ≠ []) :
    ∃ steps next toServer' toClient', submissions steps = [] ∧
      steps.foldlM System.step system = .ok next ∧
      Holds read handler start requests toServer' toClient' next ∧
      remaining start requests next.server.connection toServer' toClient' <
        remaining start requests system.server.connection toServer toClient := by
  obtain ⟨flushed, first, holds', empty, same⟩ := holds.flushServer
  obtain ⟨next, toServer', toClient', second, holds'', wire, server, less⟩ :=
    holds'.deliverToClient flushed.toClient.length manageable
  have taken : toClient' = [] := by
    have unread := holds''.clientUnread
    rw [wire, server, empty, List.drop_length] at unread
    exact unread.eq_nil
  unfold remaining at less ⊢
  rw [same] at less
  refine ⟨[.flushServer, .deliverToClient flushed.toClient.length], next, toServer', toClient', rfl,
    ?_, holds'', less fun stays => pending (stays ▸ taken)⟩
  rw [List.foldlM_cons, first]
  show [Step.deliverToClient flushed.toClient.length].foldlM System.step flushed = .ok next
  rw [List.foldlM_cons, second]
  rfl

/-- The system can be drained from any point on. -/
theorem Holds.drain (manageable : Manageable read handler start requests)
    (holds : Holds read handler start requests toServer toClient system) :
    ∃ steps final, submissions steps = [] ∧ steps.foldlM System.step system = .ok final ∧
      Holds read handler start requests [] [] final := by
  induction left : remaining start requests system.server.connection toServer toClient using
    WellFoundedLT.induction generalizing toServer toClient system with
  | _ left' inductionHypothesis =>
  subst left
  have further {steps : List Step} {next : System} {toServer' toClient' : List Frame}
      (silent : submissions steps = []) (run : steps.foldlM System.step system = .ok next)
      (holds' : Holds read handler start requests toServer' toClient' next)
      (less : remaining start requests next.server.connection toServer' toClient' <
        remaining start requests system.server.connection toServer toClient) :
      ∃ steps final, submissions steps = [] ∧ steps.foldlM System.step system = .ok final ∧
        Holds read handler start requests [] [] final := by
    obtain ⟨more, final, silent', run', done⟩ := inductionHypothesis _ less holds' rfl
    refine ⟨steps ++ more, final, ?_, ?_, done⟩
    · rw [submissions, List.filterMap_append]
      exact List.append_eq_nil_iff.mpr ⟨silent, silent'⟩
    · rw [List.foldlM_append, run]
      exact run'
  by_cases toServerEmpty : toServer = []
  · by_cases toClientEmpty : toClient = []
    · subst toServerEmpty toClientEmpty
      exact ⟨[], system, rfl, rfl, holds⟩
    · obtain ⟨_, _, _, _, silent, run, holds', less⟩ := holds.drainToClient manageable toClientEmpty
      exact further silent run holds' less
  · obtain ⟨_, _, _, _, silent, run, holds', less⟩ := holds.drainToServer manageable toServerEmpty
    exact further silent run holds' less

end Invariant

/-! ### Agreement -/

/-- A request as the server puts it together from its header list. -/
def received (req : Request) : Request := (requestMessage req).request

/-- Requests and responses that can be sent, on few enough streams and with little enough data. -/
structure Talk (handler : Request → Response) (requests : List Request) : Prop where
  few : requests.length < 2 ^ 29
  wellFormed : ∀ req ∈ requests, req.WellFormed
  answerable : ∀ req ∈ requests, (handler (received req)).WellFormed
  sent : (requests.map fun req => req.bd.length).sum < 2 ^ 30
  returned : (requests.map fun req => (handler (received req)).bd.length).sum < 2 ^ 30

/-- No string that is sent for a request or for its response is too long. -/
structure Short (handler : Request → Response) (req : Request) : Prop where
  headers : ∀ header ∈ Connection.requestHeaders req, Fits header
  responseHeaders : ∀ header ∈ Connection.responseHeaders (handler (received req)), Fits header
  trailers : ∀ header ∈ Connection.copiedHeaders [] (handler (received req)).trailers, Fits header

/-- The handler has been called with a request, and the promise holds what it returned. -/
structure Answered (handler : Request → Response) (req call : Request) (promise : ResponsePromise) :
    Prop where
  method : call.method = req.method
  path : call.path = req.path
  bd : call.bd = req.bd
  complete : promise.complete = true
  error : promise.error = false
  status : promise.resp.status = (handler call).status
  respBd : promise.resp.bd = (handler call).bd

/-- The handler has been called once for each request, and each promise has been answered. -/
def Agrees (handler : Request → Response) (requests : List Request) (system : System) : Prop :=
  ∃ calls : List Request,
    handlerCalls system.server.connection.events = calls.map Event.requestHandler ∧
    calls.length = requests.length ∧
    ∀ index req call, requests[index]? = some req → calls[index]? = some call →
      Answered handler req call (system.client.connection.promises (.caller index))

theorem sendable_responseMessage (resp : Response) (wellFormed : resp.WellFormed)
    (fits : ∀ header ∈ Connection.responseHeaders resp, Fits header)
    (trailersFit : ∀ header ∈ Connection.copiedHeaders [] resp.trailers, Fits header) :
    (responseMessage resp).Sendable := by
  have copied (trailers : Headers) (given : (responseMessage resp).trailers = some trailers) :
      trailers = Connection.copiedHeaders [] resp.trailers := by
    unfold responseMessage at given
    dsimp only at given
    split at given
    · exact absurd given (Option.some_ne_none trailers).symm
    · exact (Option.some.inj given).symm
  exact {
    isAscii := asciiHeaders_responseHeaders resp wellFormed.headersAscii
    fits := fits
    trailersAscii := fun trailers given => by
      rw [copied trailers given]
      exact asciiHeaders_copiedHeaders [] resp.trailers wellFormed.trailersAscii
    trailersFit := fun trailers given => by
      rw [copied trailers given]
      exact trailersFit }

section Totals

variable (read : Request → Message) (handler : Request → Response) (requests : List Request)

theorem map_requestMessages {Value : Type} (value : Message → Value) :
    (requestMessages read requests).map (fun entry => value entry.2) =
      requests.map fun req => value (read req) := by
  refine List.ext_getElem? fun index => ?_
  rw [List.getElem?_map, getElem?_requestMessages, List.getElem?_map, Option.map_map]
  rfl

theorem bodyTotal_requestMessages :
    bodyTotal (requestMessages read requests) =
      (requests.map fun req => (read req).body.length).sum := by
  rw [bodyTotal, map_requestMessages read requests fun message => message.body.length]

theorem bodyTotal_answers :
    bodyTotal ((requestMessages read requests).map (answer handler)) =
      (requests.map fun req => (handler (read req).request).bd.length).sum := by
  rw [bodyTotal, List.map_map]
  exact congrArg List.sum
    (map_requestMessages read requests fun message => (handler message.request).bd.length)

end Totals

theorem Talk.manageable {handler : Request → Response} {requests : List Request}
    (talk : Talk handler requests) (short : ∀ req ∈ requests, Short handler req) :
    Manageable requestMessage handler none requests where
  few := talk.few
  readable := fun req member =>
    { decodes := fun encoder word => decodes_encode encoder _ word
        (asciiHeaders_requestHeaders req (talk.wellFormed req member)) (short req member).headers
      body := rfl
      single := rfl }
  declined := fun _ _ _ given => absurd given (Option.some_ne_none _).symm
  answerable := fun req member => sendable_responseMessage _ (talk.answerable req member)
    (short req member).responseHeaders (short req member).trailers
  requestTotal := by
    rw [bodyTotal_requestMessages]
    exact talk.sent.trans (by decide)
  answerTotal := by
    rw [bodyTotal_answers]
    exact talk.returned.trans (by decide)

/-- When no frame is on its way the two sides agree. -/
theorem Holds.agrees {handler : Request → Response} {requests : List Request} {system : System}
    (talk : Talk handler requests)
    (holds : Holds requestMessage handler none requests [] [] system) :
    Agrees handler requests system := by
  obtain ⟨calls, promises⟩ := holds.exchange.all_done
  refine ⟨requests.map received, ?_, List.length_map _, fun index req call is called => ?_⟩
  · rw [List.map_map]
    exact calls
  · have member := List.mem_of_getElem? is
    rw [List.getElem?_map, is] at called
    cases called
    obtain ⟨method, path, body⟩ := request_requestMessage req (talk.wellFormed req member)
    obtain ⟨complete, error, response⟩ := promises index req is
    obtain ⟨status, respBody⟩ := response_responseMessage _ (talk.answerable req member)
    exact {
      method := method
      path := path
      bd := body
      complete := complete
      error := error
      status := by
        rw [response]
        exact status
      respBd := by
        rw [response]
        exact respBody }

/-- Whatever the order in which requests are submitted and bytes are sent and arrive, neither side
fails, the system can be drained, and once it is the two sides agree. -/
theorem agreement (handler : Request → Response) (steps : List Step)
    (talk : Talk handler (submissions steps))
    (short : ∀ req ∈ submissions steps, Short handler req) :
    ∃ final, steps.foldlM step (create handler) = .ok final ∧
      (final.Drained → Agrees handler (submissions steps) final) ∧
      ∃ more drained, submissions more = [] ∧ more.foldlM step final = .ok drained ∧
        drained.Drained := by
  have manageable := talk.manageable short
  obtain ⟨final, toServer, toClient, run, holds⟩ :=
    (holds_create requestMessage handler).run steps manageable
  refine ⟨final, run, fun drained => ?_, ?_⟩
  · obtain ⟨rfl, rfl⟩ := holds.frames_eq_nil drained
    exact holds.agrees talk
  · obtain ⟨more, drained, silent, run', done⟩ := holds.drain manageable
    exact ⟨more, drained, silent, run', done.drained⟩

/-- Two requests in flight at once, with their bytes in pieces. -/
theorem agreement_two_requests :
    ∃ final, ([.submit { path := ascii "/a" }, .flushClient, .deliverToServer 7,
        .submit { method := .post, path := ascii "/b", bd := ascii "x" }, .flushClient,
        .deliverToServer 500, .flushServer, .deliverToClient 500] : List Step).foldlM step
          (create fun req => { bd := req.path }) = .ok final ∧
      (final.Drained → Agrees (fun req => { bd := req.path })
        [{ path := ascii "/a" }, { method := .post, path := ascii "/b", bd := ascii "x" }] final) ∧
      ∃ more drained, submissions more = [] ∧ more.foldlM step final = .ok drained ∧
        drained.Drained := by
  refine agreement (fun req => { bd := req.path }) _ ⟨by decide, ?_, ?_, by decide, by decide⟩ ?_
  · intro req member
    rcases List.mem_cons.mp member with rfl | later
    · exact ⟨rfl, by decide, by decide, by decide, by decide⟩
    · rw [List.mem_singleton.mp later]
      exact ⟨rfl, by decide, by decide, by decide, by decide⟩
  · intro req member
    exact ⟨show (100 : Int) ≤ 200 by decide, show (200 : Int) ≤ 599 by decide, nofun, nofun, nofun,
      nofun⟩
  · intro req member
    rcases List.mem_cons.mp member with rfl | later
    · exact ⟨by decide, by decide, by decide⟩
    · rw [List.mem_singleton.mp later]
      exact ⟨by decide, by decide, by decide⟩

/-! ### A header that is too long -/

/-- A request with a header value of 2^32 bytes. -/
def overlong : Request := { method := .post, hdrs := [(ascii "a", letters (2 ^ 32))] }

/-- The server makes nothing of such a request: its header block is rejected. -/
theorem readsAs_overlong : ReadsAs overlong ⟨[], [], none⟩ where
  decodes := fun encoder word decoder => by
    have headers : Connection.requestHeaders overlong =
        [(ascii ":method", ascii "POST"), (ascii ":path", ascii "/"),
          (ascii ":scheme", ascii "https"), (ascii ":authority", ascii "localhost")] ++
          [(ascii "a", letters (2 ^ 32))] := by
      unfold overlong
      generalize letters (2 ^ 32) = value
      rfl
    rw [headers]
    exact decode_overlong encoder decoder _ word (by decide) (by decide)
  body := rfl
  single := rfl

/-- The handler is given a request that nobody has submitted. -/
theorem not_agrees_overlong :
    Talk (fun _ => {}) [overlong] ∧
      ∃ steps final, submissions steps = [overlong] ∧
        steps.foldlM step (create fun _ => {}) = .ok final ∧ final.Drained ∧
        ¬ Agrees (fun _ => {}) [overlong] final := by
  have manageable : Manageable (fun _ => ⟨[], [], none⟩) (fun _ => {}) none [overlong] :=
    { few := (by decide : 1 < 2 ^ 29)
      readable := fun req member => List.mem_singleton.mp member ▸ readsAs_overlong
      declined := fun _ _ _ given => absurd given (Option.some_ne_none _).symm
      answerable := fun _ _ =>
        ⟨by decide, by decide, fun _ given => absurd given nofun, fun _ given => absurd given nofun⟩
      requestTotal := (by decide : 0 < bodyLimit)
      answerTotal := (by decide : 0 < bodyLimit) }
  refine ⟨⟨(by decide : 1 < 2 ^ 29), ?_, ?_, (by decide : 0 < 2 ^ 30),
    (by decide : 0 < 2 ^ 30)⟩, ?_⟩
  · intro req member
    rw [List.mem_singleton.mp member]
    refine ⟨rfl, by decide, by decide, fun header found => ?_, fun header found => ?_⟩
    · rw [List.mem_singleton.mp found]
      exact ⟨show IsAscii (ascii "a") by decide, isAscii_letters (2 ^ 32)⟩
    · rw [List.mem_singleton.mp found]
      exact show (ascii "a").head? ≠ some 58 by decide
  · intro req member
    exact ⟨by decide, by decide, nofun, nofun, nofun, nofun⟩
  · obtain ⟨first, toServer, toClient, run, holds⟩ :=
      (holds_create (fun _ => ⟨[], [], none⟩) fun _ => {}).run [.submit overlong] manageable
    obtain ⟨more, final, silent, run', done⟩ := holds.drain manageable
    refine ⟨.submit overlong :: more, final, ?_, ?_, done.drained, ?_⟩
    · exact congrArg (List.cons overlong) silent
    · have whole : [Step.submit overlong] ++ more = .submit overlong :: more := rfl
      rw [← whole, List.foldlM_append, run]
      exact run'
    · rintro ⟨calls, called, length, answered⟩
      obtain ⟨given, _⟩ := done.exchange.all_done
      obtain ⟨call, rfl⟩ := List.length_eq_one_iff.mp length
      have same : call = (⟨[], [], none⟩ : Message).request := by
        have both := called.symm.trans given
        cases both
        rfl
      have method := (answered 0 overlong call rfl rfl).method
      rw [same] at method
      exact absurd method (show Method.get ≠ Method.post by decide)

end System

end AsyncNet.Http
