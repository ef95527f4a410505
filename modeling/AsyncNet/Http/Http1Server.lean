/-
This file models the connections of the HTTP/1.1 server of `src/http/server_impl.cpp`: the
loop that reads a request, answers it and goes on with the next one as long as the connection
is kept alive, and that hands the connection over to a WebSocket handler.

Handlers are pure functions. What a connection receives is the list of what its reads return,
and a read after the last of them finds the connection closed. A dispatch is recorded with the
position in the byte stream at which the buffer began that the request was read from.
-/

import AsyncNet.Http.Http1Codec

namespace AsyncNet.Http

open Library

namespace Http1

/-- The two streams that `http11_keep_alive_loop` is used with: the socket itself, or a TLS stream
over it. -/
inductive Transport where
  | plain | tls
  deriving DecidableEq, Repr

/-- What the loop uses of `server_context`, the stream it runs on, whether HTTP/3 is compiled in,
and `compute_accept_key`. -/
structure ServerContext where
  routes : List (Method × Bytes × (Request → Response)) := []
  defaultHandler : Request → Response := fun _ => responseNotFound
  wsRoutes : List Bytes := []
  port : Nat := 0
  transport : Transport := .plain
  hasHttp3 : Bool := false
  computeAcceptKey : Bytes → Bytes := fun key => key

/-- What the outside decides: whether the server is running when a round starts, and how many bytes
of what a round writes the stream takes. -/
structure Environment where
  running : Nat → Bool := fun _ => true
  accepts : Nat → Bytes → Nat := fun _ data => data.length

/-- How a connection ends. A WebSocket connection gets the bytes of the stream that it can still
read from the socket. -/
inductive Ending where
  | closed
  | threw (error : ParseError)
  | upgraded (offset : Nat) (req : Request) (handed : Bytes)
  deriving DecidableEq, Repr

/-- What a connection has done: the requests it has dispatched, each with its position, the bytes it
has written, and its end. -/
structure Served where
  dispatched : List (Nat × Request) := []
  written : Bytes := []
  ending : Ending := .closed
  deriving DecidableEq, Repr

/-! ### Requests and responses -/

/-- `dispatch_request`. -/
def ServerContext.dispatchRequest (ctx : ServerContext) (req : Request) : Response :=
  match ctx.routes.find? fun route => route.1 = req.method ∧ route.2.1 = req.path with
  | some route => route.2.2 req
  | none => ctx.defaultHandler req

/-- `is_websocket_upgrade`. -/
def isWebsocketUpgrade (req : Request) : Bool :=
  req.method = .get &&
    (req.hdrs.get (ascii "Upgrade")).any (fun value => toLower value = ascii "websocket") &&
    (req.hdrs.get (ascii "Connection")).any
      (fun value => (indexOf (ascii "upgrade") (toLower value)).isSome) &&
    req.hdrs.contains (ascii "Sec-WebSocket-Key")

/-- The connection is handed over: the request asks for it and there is a handler for its path. -/
def ServerContext.upgrades (ctx : ServerContext) (req : Request) : Bool :=
  isWebsocketUpgrade req && ctx.wsRoutes.contains req.path

/-- `build_handshake_response`. -/
def ServerContext.buildHandshakeResponse (ctx : ServerContext) (req : Request) : Bytes :=
  match req.hdrs.get (ascii "Sec-WebSocket-Key") with
  | none => []
  | some key =>
      ascii "HTTP/1.1 101 Switching Protocols\r\nUpgrade: websocket\r\nConnection: Upgrade\r\n" ++
        ascii "Sec-WebSocket-Accept: " ++ ctx.computeAcceptKey key ++ crlf ++ crlf

/-- Whether the connection is kept alive after a request. -/
def keepsAlive (req : Request) : Bool := req.hdrs.isKeepAlive && req.ver = .http11

/-- The response to a request, with the headers that the loop adds. -/
def ServerContext.respond (ctx : ServerContext) (req : Request) : Response :=
  let resp := ctx.dispatchRequest req
  let hdrs := resp.hdrs.set (ascii "Connection")
    (if keepsAlive req then ascii "keep-alive" else ascii "close")
  let hdrs :=
    if ctx.hasHttp3 ∧ hdrs.contains (ascii "Alt-Svc") = false then
      hdrs.set (ascii "Alt-Svc") (ascii "h3=\":" ++ decimal ctx.port ++ ascii "\"; ma=86400")
    else hdrs
  let hdrs :=
    if hdrs.contains (ascii "Content-Length") then hdrs
    else hdrs.set (ascii "Content-Length") (decimal resp.bd.length)
  { resp with hdrs }

/-- The bytes that a WebSocket connection finds: it reads the socket, so on a TLS stream what is
left of the stream does not reach it. -/
def ServerContext.handOver (ctx : ServerContext) (unread : List Bytes) : Bytes :=
  match ctx.transport with
  | .plain => unread.flatten
  | .tls => []

/-! ### The loop -/

/-- The inner loop of `http11_keep_alive_loop`: the buffer is parsed and grows by a read until it
holds a request, for a number of attempts. -/
def readRequest : Nat → Bytes → List Bytes → Except ParseError (Option Request × List Bytes)
  | 0, _, reads => .ok (none, reads)
  | attempts + 1, buffer, reads => do
      match ← parseRequest buffer with
      | some (req, _) => return (some req, reads)
      | none =>
          match reads with
          | [] => return (none, [])
          | read :: reads => readRequest attempts (buffer ++ read) reads

/-- `http11_keep_alive_loop`. A round that goes on has taken a read, so the number of reads bounds
the rounds. -/
def keepAliveLoop (ctx : ServerContext) (env : Environment) : Nat → Nat → Nat → List Bytes → Served
  | 0, _, _, _ => {}
  | rounds + 1, round, offset, reads =>
      if env.running round then
        match readRequest 1000 [] reads with
        | .error error => { ending := .threw error }
        | .ok (none, _) => {}
        | .ok (some req, unread) =>
            if ctx.upgrades req then
              let handshake := ctx.buildHandshakeResponse req
              { written := handshake.take (env.accepts round handshake)
                ending := .upgraded offset req (ctx.handOver unread) }
            else
              let data := serializeResponse (ctx.respond req)
              let accepted := env.accepts round data
              let later :=
                if data.length ≤ accepted ∧ keepsAlive req then
                  keepAliveLoop ctx env rounds (round + 1)
                    (offset + (reads.flatten.length - unread.flatten.length)) unread
                else {}
              { later with
                dispatched := (offset, req) :: later.dispatched
                written := data.take accepted ++ later.written }
      else {}

/-- A connection from its start. -/
def serve (ctx : ServerContext) (env : Environment) (reads : List Bytes) : Served :=
  keepAliveLoop ctx env (reads.length + 1) 0 0 reads

end Http1

end AsyncNet.Http
