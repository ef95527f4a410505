/-
This file follows a request from the client that sends it to the server that gives it to a
handler, over HTTP/1.1 and over HTTP/2. Neither encoder writes the query, so a request arrives as
it was sent only if it has none. Over HTTP/2 a path may besides be lost in the Huffman code, which
is not inverted on all bytes above 127, and over HTTP/1.1 a body whose headers announce chunks is
lost because it is not written in chunks. Nothing else is.
-/

import AsyncNet.Http.Http1Serialized
import AsyncNet.Http.Http2Agreement
import AsyncNet.Http.Http2Hearing
import AsyncNet.Http.Http2ResponseFrames

namespace AsyncNet.Http

open Library H2

/-! ### Paths that are read back -/

namespace H2

/-- The string is sent as it is, or none of its bytes is lost in the Huffman code. -/
def Legible (text : Bytes) : Prop := huffmanIsShorter text = true → ∀ ch ∈ text, ¬ Shadowed ch

instance (text : Bytes) : Decidable (Legible text) := inferInstanceAs (Decidable (_ → _))

theorem reread_of_legible {text : Bytes} (legible : Legible text) : reread text = text := by
  unfold reread
  split
  · rename_i shorter
    exact huffmanDecode_of_plain text (legible shorter)
  · rfl

/-- The first byte that is lost is read as an opening brace, if anything is read. -/
theorem reread_of_not_legible {text : Bytes} (illegible : ¬ Legible text) :
    ∃ front first back, text = front ++ first :: back ∧ Shadowed first ∧
      (reread text = [] ∨ ∃ later, reread text = front ++ 123 :: later) := by
  simp only [Legible, not_forall, not_not] at illegible
  obtain ⟨shorter, ch, member, shadowed⟩ := illegible
  rw [reread, if_pos shorter]
  exact huffmanDecode_of_shadowed text ch member shadowed

end H2

/-- A byte before the question mark stays in the path. -/
theorem splitTarget_append {front : Bytes} {byte : UInt8} (whole : 63 ∉ front)
    (differs : byte ≠ 63) (later : Bytes) :
    ∃ rest, (Http1.splitTarget (front ++ byte :: later)).1 = front ++ byte :: rest := by
  have absent : 63 ∉ front ++ [byte] := by
    rw [List.mem_append, List.mem_singleton, not_or]
    exact ⟨whole, differs.symm⟩
  have found : indexOf (ascii "?") (front ++ [byte] ++ later) =
      (indexOf (ascii "?") later).map (· + (front ++ [byte]).length) :=
    @indexOf_of_not_mem _ _ 63 [] (front ++ [byte]) absent later
  rw [List.append_cons, Http1.splitTarget, found]
  cases indexOf (ascii "?") later with
  | none => exact ⟨later, (List.append_cons front byte later).symm⟩
  | some position =>
    refine ⟨later.take position, ?_⟩
    dsimp only [Option.map_some]
    rw [Nat.add_comm, List.take_length_add_append]
    exact (List.append_cons front byte _).symm

/-- The path of a clean request is found again in what the decoder makes of it if and only if it is
legible, and then there is no query with it. -/
theorem routeTarget_reread_iff {req : Request} (clean : req.Clean) (query : Bytes) :
    routeTarget (reread req.path) = (req.path, query) ↔ query = [] ∧ Legible req.path := by
  constructor
  · intro same
    have legible : Legible req.path := by
      by_contra illegible
      obtain ⟨front, first, back, split, shadowed, nothing | ⟨later, read⟩⟩ :=
        reread_of_not_legible illegible
      · rw [nothing, split] at same
        have path : ascii "/" = front ++ first :: back := congrArg Prod.fst same
        have slash : first ∈ ascii "/" := by
          rw [path]
          exact List.mem_append_right front List.mem_cons_self
        rw [List.mem_singleton.mp slash] at shadowed
        exact absurd shadowed (by decide)
      · have whole : 63 ∉ front := fun member =>
          clean.path.1 (split ▸ List.mem_append_left _ member)
        obtain ⟨rest, kept⟩ := splitTarget_append whole (by decide : (123 : UInt8) ≠ 63) later
        have path := congrArg Prod.fst same
        rw [read, split, routeTarget] at path
        dsimp only at path
        rw [kept, if_neg (List.append_ne_nil_of_right_ne_nil _ (List.cons_ne_nil _ _))] at path
        exact shadowed.1 (List.cons.inj (List.append_cancel_left path)).1.symm
    rw [reread_of_legible legible, clean.routeTarget_path] at same
    exact ⟨(congrArg Prod.snd same).symm, legible⟩
  · rintro ⟨rfl, legible⟩
    rw [reread_of_legible legible]
    exact clean.routeTarget_path

/-! ### Requests over HTTP/2 -/

/-- The headers of a request as HTTP/2 carries them. The host is the authority, which is `localhost`
if the request names none, and comes first. The other names are in lower case, and `Connection` is
dropped. -/
def h2Headers (headers : Headers) : Headers :=
  (ascii "Host", (headers.get (ascii "Host")).getD (ascii "localhost")) ::
    (headers.filter fun header => toLower header.1 ≠ ascii "host" ∧
      toLower header.1 ≠ ascii "connection").map fun header => (toLower header.1, header.2)

theorem copiedHeaders_eq_map (headers : Headers) :
    Connection.copiedHeaders [ascii "host", ascii "connection"] headers =
      (headers.filter fun header => toLower header.1 ≠ ascii "host" ∧
        toLower header.1 ≠ ascii "connection").map fun header => (toLower header.1, header.2) := by
  rw [Connection.copiedHeaders, List.filter_map]
  refine congrArg (List.map _) (List.filter_congr fun header _ => ?_)
  simp only [Function.comp_apply, List.mem_cons, List.not_mem_nil, or_false, not_or, ne_eq]

/-- The message that the decoder makes of a request. -/
def rereadMessage (req : Request) : Message :=
  { requestMessage req with headers := (Connection.requestHeaders req).map rereadHeader }

/-- Strings that are put into the header block of a request take fewer than 2^31 octets each. -/
def Request.StringsFit (req : Request) : Prop :=
  ∀ header ∈ Connection.requestHeaders req, Fits header

instance (req : Request) : Decidable req.StringsFit :=
  inferInstanceAs (Decidable (∀ header ∈ Connection.requestHeaders req, _))

theorem applyRequestHeader_target (req : Request) (target : Bytes) (new : req.query = []) :
    Connection.applyRequestHeader req (ascii ":path", target) =
      { req with path := (routeTarget target).1, query := (routeTarget target).2 } := by
  obtain ⟨samePath, sameQuery⟩ := splitPath_eq target
  unfold Connection.applyRequestHeader routeTarget
  dsimp only
  rw [if_neg (by decide), if_pos rfl, ← samePath, ← sameQuery, new]

section Clean

variable {req : Request}

theorem Request.Clean.plainNames (clean : req.Clean) : PlainNames req.hdrs := by
  intro header member colon
  exact (clean.headers header member).noColon (List.mem_of_mem_head? colon)

theorem Request.Clean.asciiHeaders (clean : req.Clean) : AsciiHeaders req.hdrs :=
  fun header member => (clean.headers header member).isAscii

/-- All that the decoder may change in a clean request is the path. -/
theorem headers_rereadMessage (clean : req.Clean) :
    (rereadMessage req).headers =
      [(ascii ":method", req.method.toBytes), (ascii ":path", reread req.path),
        (ascii ":scheme", ascii "https"),
        (ascii ":authority", (req.hdrs.get (ascii "Host")).getD (ascii "localhost"))] ++
        Connection.copiedHeaders [ascii "host", ascii "connection"] req.hdrs := by
  have same (header : Header) (isAscii : IsAscii header.1 ∧ IsAscii header.2) :
      rereadHeader header = header := rereadHeader_of_isAscii header isAscii
  have path : rereadHeader (ascii ":path", req.path) = (ascii ":path", reread req.path) :=
    congrArg (·, reread req.path) (reread_of_isAscii (ascii ":path") (by decide))
  unfold rereadMessage Connection.requestHeaders
  dsimp only
  rw [if_neg clean.path_ne_nil, List.map_append, List.map_cons, List.map_cons, List.map_cons,
    List.map_cons, List.map_nil, path,
    same _ ⟨show IsAscii (ascii ":method") by decide, isAscii_toBytes req.method⟩,
    same (ascii ":scheme", ascii "https") (by decide),
    same _ ⟨show IsAscii (ascii ":authority") by decide, isAscii_host req.hdrs clean.asciiHeaders⟩,
    map_rereadHeader _ (asciiHeaders_copiedHeaders _ req.hdrs clean.asciiHeaders)]

/-- The request that the server puts together. -/
theorem request_rereadMessage (clean : req.Clean) :
    (rereadMessage req).request =
      { method := req.method
        path := (routeTarget (reread req.path)).1
        query := (routeTarget (reread req.path)).2
        ver := .http2
        hdrs := h2Headers req.hdrs
        bd := req.bd } := by
  have names := plainNames_copiedHeaders [ascii "host", ascii "connection"] req.hdrs
    clean.plainNames
  have placed := applyRequestHeader_target { method := req.method } (reread req.path) rfl
  unfold Message.request Message.requestHead
  rw [headers_rereadMessage clean, foldl_applyRequestHeader _ _ _ _ _ names placed rfl,
    copiedHeaders_eq_map]
  rfl

end Clean

/-! ### Requests that arrive -/

/-- A client that can submit a request, and a server with a handler that is between two frames and
has not seen the client's next stream. -/
structure Ready (handler : Request → Response) (client : Connection) (server : Session) : Prop where
  size : 0 < client.peerMaxFrameSize ∧ client.peerMaxFrameSize ≤ 16384
  word : client.encoder.maxTableSize < 2 ^ 64
  nonzero : client.nextStreamId ≠ 0
  identifier : client.nextStreamId < 2 ^ 31
  config : server.config = Connection.serverConfig handler none
  steady : server.connection.Steady
  idle : server.connection.continuationStream = 0
  unseen : server.connection.view client.nextStreamId = none
  coherent : server.reader.Coherent
  empty : server.reader.held = []

/-- The bytes that `do_submit_request` adds to the output. -/
def Connection.submitted (client : Connection) (req : Request) (promise : Option PromiseRef) :
    Bytes :=
  enqueued client (client.doSubmitRequest req promise false)

/-- When the bytes of a request have come in, the handler has been called once, with the request
that was submitted. -/
def Arrives (client : Connection) (server : Session) (req : Request)
    (promise : Option PromiseRef) : Prop :=
  ∃ final received, server.feed (client.submitted req promise) = .ok final ∧
    handlerCalls final.connection.events =
      handlerCalls server.connection.events ++ [.requestHandler received] ∧
    req.CarriedAs (h2Headers req.hdrs) received

section Arrivals

variable {handler : Request → Response} {client : Connection} {server : Session} {req : Request}

theorem submitted_eq (promise : Option PromiseRef) :
    client.submitted req promise =
      (messageFrames client.nextStreamId client.peerMaxFrameSize (rereadMessage req)
        (client.encoder.encode (Connection.requestHeaders req)).1 []).flatMap Frame.wire := by
  have output := (client.moves_doSubmitRequest req promise).outputBuf
  rw [Connection.submitted, Connection.enqueued, output]
  exact List.drop_left

/-- The handler is called once, with what the decoder has made of the request. -/
theorem feed_submitted (ready : Ready handler client server) (promise : Option PromiseRef)
    (fits : req.StringsFit) :
    ∃ final, server.feed (client.submitted req promise) = .ok final ∧
      handlerCalls final.connection.events =
        handlerCalls server.connection.events ++
          [.requestHandler (rereadMessage req).request] := by
  obtain ⟨positive, small⟩ := ready.size
  set block := (client.encoder.encode (Connection.requestHeaders req)).1
  have silent := not_isControl_messageFrames client.nextStreamId client.peerMaxFrameSize
    (rereadMessage req) block []
  have spells : Spells none (messageFrames client.nextStreamId client.peerMaxFrameSize
      (rereadMessage req) block []) [(client.nextStreamId, rereadMessage req)] :=
    spells_messageFrames positive small (rereadMessage req) block []
      (decodes_reread _ _ ready.word fits) nofun
  have hearing : Hearing client.nextStreamId (rereadMessage req) server.connection.events .start
      server.connection :=
    { steady := ready.steady
      absent := fun _ => ready.unseen
      present := fun begun => absurd rfl begun
      waiting := ready.idle
      calls := (List.append_nil _).symm }
  rw [submitted_eq]
  exact feed_message ready.config hearing ready.coherent ready.empty
    (ends_of_spells spells silent rfl)
    (proper_messageFrames _ _ _ _ _ ready.identifier (by omega)) rfl ready.nonzero
    ready.identifier

/-- A clean request arrives over HTTP/2 if and only if it has no query and its path is legible. -/
theorem arrives_iff (ready : Ready handler client server) (promise : Option PromiseRef)
    (clean : req.Clean) (fits : req.StringsFit) :
    Arrives client server req promise ↔ req.query = [] ∧ Legible req.path := by
  obtain ⟨final, fed, called⟩ := feed_submitted ready promise fits
  rw [request_rereadMessage clean] at called
  rw [← routeTarget_reread_iff clean]
  constructor
  · rintro ⟨final', received, fed', called', carried⟩
    cases fed.symm.trans fed'
    obtain ⟨rfl⟩ := Event.requestHandler.inj
      (List.cons.inj (List.append_cancel_left (called.symm.trans called'))).1
    exact Prod.ext carried.path carried.query
  · intro same
    exact ⟨final, _, fed, called, rfl, congrArg Prod.fst same, congrArg Prod.snd same, rfl, rfl⟩

end Arrivals

/-! ### Fidelity -/

/-- A clean request comes back from the codec of HTTP/1.1 if and only if it has no query and its
headers announce no chunks. It arrives over HTTP/2 if and only if it has no query and its path is
legible, unless one of its strings takes 2^31 octets or more in the header block, and such a string
the decoder cannot get past. -/
theorem roundTrips_iff_and_arrives_iff (handler : Request → Response) (client : Connection)
    (server : Session) (promise : Option PromiseRef) (req : Request)
    (ready : Ready handler client server) (clean : req.Clean) :
    (req.hdrs.contentLength = some req.bd.length →
      (Http1.serializeRequest req).length < 2 ^ 63 →
        (Http1.RoundTrips req ↔ req.query = [] ∧ req.hdrs.isChunked = false)) ∧
      (req.StringsFit →
        (Arrives client server req promise ↔ req.query = [] ∧ Legible req.path)) ∧
      (¬ req.StringsFit → ∃ header ∈ Connection.requestHeaders req,
        Misread header.1 ∨ Misread header.2) := by
  exact ⟨Http1.roundTrips_iff clean, arrives_iff ready promise clean, exists_misread⟩

/-- A new server with a handler. -/
def newServer (handler : Request → Response) : Session :=
  (Session.create .server).op (.setRequestHandler (some handler))

theorem ready_create (handler : Request → Response) :
    Ready handler (Connection.create .client) (newServer handler) where
  size := by decide
  word := (steady_create .client).maxTableSize
  nonzero := by decide
  identifier := by decide
  config := rfl
  steady := steady_create .server
  idle := rfl
  unseen := rfl
  coherent := FrameReader.coherent_new
  empty := rfl

/-- A new client posts a greeting to a new server. -/
theorem roundTrips_greeting_and_arrives :
    let req : Request :=
      { method := .post
        path := ascii "/greetings"
        hdrs := [(ascii "Host", ascii "example.com"), (ascii "Content-Length", ascii "5"),
          (ascii "X-Id", ascii "7")]
        bd := ascii "hello" }
    Http1.RoundTrips req ∧ Arrives (Connection.create .client) (newServer fun _ => {}) req none := by
  obtain ⟨roundTrips, arrives, -⟩ := roundTrips_iff_and_arrives_iff (fun _ => {})
    (Connection.create .client) (newServer fun _ => {}) none
    { method := .post
      path := ascii "/greetings"
      hdrs := [(ascii "Host", ascii "example.com"), (ascii "Content-Length", ascii "5"),
        (ascii "X-Id", ascii "7")]
      bd := ascii "hello" } (ready_create fun _ => {}) (by decide +kernel)
  exact ⟨(roundTrips (by decide +kernel) (by decide +kernel)).mpr (by decide +kernel),
    (arrives (by decide +kernel)).mpr (by decide +kernel)⟩

/-- The query is lost over both versions. -/
theorem not_roundTrips_query :
    let req : Request :=
      { path := ascii "/users"
        query := ascii "page=2"
        hdrs := [(ascii "Host", ascii "example.com"), (ascii "Content-Length", ascii "0")] }
    req.Clean ∧ req.hdrs.contentLength = some req.bd.length ∧ ¬ Http1.RoundTrips req ∧
      ¬ Arrives (Connection.create .client) (newServer fun _ => {}) req none := by
  intro req
  have clean : req.Clean := by decide +kernel
  have announced : req.hdrs.contentLength = some req.bd.length := by decide +kernel
  have query : req.query ≠ [] := by decide
  refine ⟨clean, announced, fun roundTrips => ?_, fun arrives => ?_⟩
  · exact query ((Http1.roundTrips_iff clean announced (by decide +kernel)).mp roundTrips).1
  · exact query ((arrives_iff (ready_create _) none clean (by decide +kernel)).mp arrives).1

end AsyncNet.Http
