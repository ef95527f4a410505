/-
This file models the server of gRPC, `src/grpc/grpc_server.cpp` with the interceptor chain of
`include/async_net/grpc/interceptor.hpp` and the writer of `src/grpc/grpc_stream.cpp`: the
three functions through which an HTTP/2 session calls it. The request handler answers a whole
request, the start handler is called when the headers of a request have come, and a data
callback gets the data of a stream.

What the outside decides is a function of when it is called: a coroutine that is resumed
returns, throws or is suspended. A suspended interceptor is destroyed and never completes. An
exception that leaves one of the three functions ends the connection. What a handler does
after it has been suspended is outside the model.
-/

import AsyncNet.Grpc.Types
import AsyncNet.Grpc.Wire

namespace AsyncNet.Grpc

open AsyncNet.Http AsyncNet.Http.H2 AsyncNet.Library

/-- How far a coroutine has come when `resume` returns. A `std::exception` has a text. -/
inductive Progress (Result : Type) where
  | returned (result : Result)
  | threw (what : Option Bytes)
  | suspended
  deriving DecidableEq, Repr

/-! ### Interceptors and methods -/

/-- `call_info`. -/
structure CallInfo where
  service : Bytes
  method : Bytes
  initialMetadata : Metadata

/-- The `call_info` of a call. -/
def CallInfo.ofPath (path : Bytes) (initialMetadata : Metadata) : CallInfo :=
  let (service, method) := parsePath path
  { service, method, initialMetadata }

/-- What an interceptor can set for a call that it rejects. -/
structure Rejection where
  errorResponse : Bytes := []
  errorStatus : Status := {}
  deriving DecidableEq, Repr

/-- `interceptor_fn`. -/
abbrev Interceptor := Nat → CallInfo → Bytes → Rejection → Progress Bool × Rejection

/-- A call on the writer of a stream. -/
inductive WriterCall where
  | write (message : Bytes)
  | finish (code : StatusCode) (message : Bytes)
  deriving DecidableEq, Repr

/-- `method_entry`, with a constructor for each way to register a method. The handlers of streams
that take a context are stored but never called. -/
inductive MethodEntry where
  | unary (handler : Nat → Bytes → Progress Bytes)
  | unaryWithContext (handler : Nat → Bytes → CallContext → Progress Bytes × CallContext)
  | serverStream (handler : Nat → Bytes → Progress Unit × List WriterCall)
  | serverStreamWithContext
  | clientStream (handler : Nat → List Bytes → Progress Bytes)
  | clientStreamWithContext
  | bidiStream (handler : Nat → List Bytes → Progress Unit × List WriterCall)
  | bidiStreamWithContext

/-- `grpc::server`: its methods by their paths, and its interceptors. -/
structure Server where
  methods : Bytes → Option MethodEntry := fun _ => none
  interceptors : List Interceptor := []

namespace Server

/-- What the functions that register a method have in common. -/
def register (server : Server) (service method : Bytes) (entry : MethodEntry) : Server :=
  { server with
    methods := fun path => if path = makePath service method then some entry
      else server.methods path }

/-- `register_method`. -/
def registerMethod (server : Server) (service method : Bytes)
    (handler : Nat → Bytes → Progress Bytes) : Server :=
  server.register service method (.unary handler)

/-- `register_method` with a handler that takes a context. -/
def registerMethodWithContext (server : Server) (service method : Bytes)
    (handler : Nat → Bytes → CallContext → Progress Bytes × CallContext) : Server :=
  server.register service method (.unaryWithContext handler)

/-- `register_server_stream`. -/
def registerServerStream (server : Server) (service method : Bytes)
    (handler : Nat → Bytes → Progress Unit × List WriterCall) : Server :=
  server.register service method (.serverStream handler)

/-- `register_server_stream` with a handler that takes a context. -/
def registerServerStreamWithContext (server : Server) (service method : Bytes) : Server :=
  server.register service method .serverStreamWithContext

/-- `register_client_stream`. -/
def registerClientStream (server : Server) (service method : Bytes)
    (handler : Nat → List Bytes → Progress Bytes) : Server :=
  server.register service method (.clientStream handler)

/-- `register_client_stream` with a handler that takes a context. -/
def registerClientStreamWithContext (server : Server) (service method : Bytes) : Server :=
  server.register service method .clientStreamWithContext

/-- `register_bidi_stream`. -/
def registerBidiStream (server : Server) (service method : Bytes)
    (handler : Nat → List Bytes → Progress Unit × List WriterCall) : Server :=
  server.register service method (.bidiStream handler)

/-- `register_bidi_stream` with a handler that takes a context. -/
def registerBidiStreamWithContext (server : Server) (service method : Bytes) : Server :=
  server.register service method .bidiStreamWithContext

/-- `add_interceptor`. -/
def addInterceptor (server : Server) (interceptor : Interceptor) : Server :=
  { server with interceptors := server.interceptors ++ [interceptor] }

end Server

/-! ### Unary calls -/

/-- What a server has done: an interceptor of a call has come so far, the handler of a call has been
started, or the session has been called. A call is named by the moment at which it began. -/
inductive Event where
  | intercepted (call index : Nat) (progress : Progress Bool)
  | started (call : Nat)
  | submitResponseHeaders (streamId : Nat) (resp : Response)
  | submitData (streamId : Nat) (data : Bytes) (endStream : Bool)
  | submitTrailers (streamId : Nat) (trailers : Headers)
  deriving DecidableEq, Repr

/-- `server_interceptor_chain::run`, from an interceptor on: whether the call proceeds, unless an
interceptor throws. One that is suspended is passed over. -/
def runChain (moment : Nat) (info : CallInfo) (request : Bytes) :
    Nat → List Interceptor → Rejection → List Event × Option (Bool × Rejection)
  | _, [], rejection => ([], some (true, rejection))
  | index, interceptor :: interceptors, rejection =>
      let (progress, rejection) := interceptor moment info request rejection
      match progress with
      | .returned false => ([.intercepted moment index progress], some (false, rejection))
      | .threw _ => ([.intercepted moment index progress], none)
      | _ =>
          let (events, result) :=
            runChain moment info request (index + 1) interceptors rejection
          (.intercepted moment index progress :: events, result)

/-- The result of a unary handler. -/
structure Answer where
  status : Status := {}
  data : Bytes := []
  context : CallContext := {}

/-- The handler of a unary call is resumed once. Only a `std::exception` is caught. -/
def answer (progress : Progress Bytes) (context : CallContext) : Option Answer :=
  match progress with
  | .returned data => some { data, context }
  | .suspended => some
      { status := ⟨.internal, ascii "Handler did not complete synchronously"⟩, context }
  | .threw (some what) => some { status := ⟨.internal, what⟩, context }
  | .threw none => none

namespace Server

/-- The interceptors of a unary call. -/
def intercept (server : Server) (moment : Nat) (path request : Bytes) (context : CallContext) :
    List Event × Option (Bool × Rejection) :=
  if server.interceptors = [] then ([], some (true, {}))
  else
    runChain moment (.ofPath path context.initialMetadata) request 0 server.interceptors {}

/-- A unary call whose method is known. -/
def callUnary (server : Server) (moment : Nat) (path request : Bytes) (context : CallContext)
    (handler : CallContext → Progress Bytes × CallContext) : List Event × Option Answer :=
  match server.intercept moment path request context with
  | (events, none) => (events, none)
  | (events, some (false, rejection)) =>
      (events, some
        { status := rejection.errorStatus, data := rejection.errorResponse, context })
  | (events, some (true, _)) =>
      let (progress, context) := handler context
      (events ++ [.started moment], answer progress context)

/-- `server::dispatch`: what is done and, unless it throws, the answer. -/
def dispatch (server : Server) (moment : Nat) (path request : Bytes) (context : CallContext) :
    List Event × Option Answer :=
  match server.methods path with
  | none => ([], some { status := ⟨.unimplemented, ascii "Method not found"⟩, context })
  | some (.unary handler) =>
      server.callUnary moment path request context fun context =>
        (handler moment request, context)
  | some (.unaryWithContext handler) =>
      server.callUnary moment path request context (handler moment request)
  | some _ =>
      ([], some { status := ⟨.unimplemented, ascii "Method is not a unary RPC"⟩, context })

end Server

/-- A request whose content type is that of gRPC. -/
def isGrpc (req : Request) : Bool :=
  match req.hdrs.get (ascii "content-type") with
  | none => false
  | some value => indexOf contentType value = some 0

/-- The response to a unary call. -/
def Answer.toResponse (answer : Answer) : Response :=
  let trailers := Headers.set [] grpcStatus (toString answer.status.code.code)
  let trailers :=
    if answer.status.message = [] then trailers
    else Headers.set trailers grpcMessage answer.status.message
  { status := ⟨200⟩
    hdrs := Headers.set (Headers.set [] (ascii "content-type") contentType) (ascii "grpc-encoding")
      grpcEncoding
    bd := if answer.data = [] then [] else encodeGrpcMessage answer.data
    trailers := answer.context.responseMetadata.toList.foldl
      (fun trailers entry => Headers.set trailers entry.1 entry.2) trailers }

/-- The request handler of a connection: what is done and, unless it throws, the response. -/
def Server.requestHandler (server : Server) (moment : Nat) (req : Request) :
    List Event × Option Response :=
  if isGrpc req = false then
    ([], some { status := ⟨415⟩, bd := ascii "Not a gRPC request" })
  else if req.method ≠ .post then
    ([], some { status := ⟨405⟩, bd := ascii "gRPC requires POST method" })
  else
    match decodeGrpcMessage req.bd with
    | .error _ => ([], none)
    | .ok none =>
        ([], some
          { status := ⟨200⟩
            hdrs := Headers.set [] (ascii "content-type") contentType
            trailers := Headers.set (Headers.set [] grpcStatus (toString StatusCode.internal.code))
              grpcMessage (ascii "Invalid gRPC frame") })
    | .ok (some request) =>
        let context : CallContext := { initialMetadata := extractFromHeaders req.hdrs }
        let (events, answer) := server.dispatch moment req.path request context
        (events, answer.map Answer.toResponse)

/-! ### Streams -/

/-- What the callbacks of a stream share: the moment at which the call began, its method, the bytes
that have come, whether the handler has been called, and whether the writer is finished. -/
structure StreamCall where
  began : Nat
  entry : MethodEntry
  buffer : Bytes := []
  deframer : StreamDeframer := {}
  launched : Bool := false
  finished : Bool := false

/-- The state of `handle_connection`: how often the session has called it, the streams that have a
data callback, what has been done, and whether an exception has ended it. -/
structure Connection where
  moment : Nat := 0
  calls : Nat → Option StreamCall := fun _ => none
  events : List Event := []
  ended : Bool := false

/-- The trailers of `writer::finish`. -/
def finishTrailers (code : StatusCode) (message : Bytes) : Headers :=
  let trailers := Headers.set [] grpcStatus (toString code.code)
  if message = [] then trailers else Headers.set trailers grpcMessage message

/-- The calls on a writer, which does nothing once it is finished: whether it is finished then, and
what it does. -/
def runWriter (streamId : Nat) : Bool → List WriterCall → Bool × List Event
  | finished, [] => (finished, [])
  | true, _ :: calls => runWriter streamId true calls
  | false, .write message :: calls =>
      let (finished, events) := runWriter streamId false calls
      (finished, .submitData streamId (encodeGrpcMessage message) false :: events)
  | false, .finish code message :: calls =>
      let (finished, events) := runWriter streamId true calls
      (finished, .submitTrailers streamId (finishTrailers code message) :: events)

namespace Connection

def setCall (connection : Connection) (streamId : Nat) (call : StreamCall) : Connection :=
  { connection with
    calls := fun other => if other = streamId then some call else connection.calls other }

def record (connection : Connection) (events : List Event) : Connection :=
  { connection with events := connection.events ++ events }

/-- An exception leaves the function that the session has called. -/
def throw (connection : Connection) : Connection := { connection with ended := true }

/-- The handler of a call with a writer is resumed. If it is done, the writer is finished. -/
def startWriting (connection : Connection) (streamId : Nat) (call : StreamCall)
    (run : Progress Unit × List WriterCall) : Connection :=
  let calls := if run.1 = .suspended then run.2 else run.2 ++ [.finish .ok []]
  let (finished, events) := runWriter streamId call.finished calls
  (connection.setCall streamId { call with finished }).record (.started call.began :: events)

/-- The handler of a client stream is resumed. Its result is taken if it is done. -/
def startReading (connection : Connection) (streamId : Nat) (call : StreamCall)
    (progress : Progress Bytes) : Connection :=
  match progress with
  | .suspended => (connection.setCall streamId call).record [.started call.began]
  | .threw _ => ((connection.setCall streamId call).record [.started call.began]).throw
  | .returned result =>
      let (finished, events) := runWriter streamId call.finished [.finish .ok []]
      (connection.setCall streamId { call with finished }).record
        (.started call.began :: .submitData streamId (encodeGrpcMessage result) false :: events)

/-- The handler of a stream is called with what has come. There is no function to call for one that
takes a context. -/
def start (connection : Connection) (streamId : Nat) (call : StreamCall) (request : Bytes) :
    Connection :=
  match call.entry with
  | .serverStream handler =>
      connection.startWriting streamId call (handler connection.moment request)
  | .clientStream handler =>
      connection.startReading streamId call (handler connection.moment call.deframer.pushed)
  | .bidiStream handler =>
      connection.startWriting streamId call (handler connection.moment call.deframer.pushed)
  | _ => (connection.setCall streamId call).throw

/-- The data callback of a server stream. -/
def bufferData (connection : Connection) (streamId : Nat) (call : StreamCall) (data : Bytes)
    (endStream : Bool) : Connection :=
  let call := { call with buffer := call.buffer ++ data }
  if endStream && !call.launched then
    let call := { call with launched := true }
    match decodeGrpcMessage call.buffer with
    | .error _ => (connection.setCall streamId call).throw
    | .ok request => connection.start streamId call (request.getD [])
  else connection.setCall streamId call

/-- The data callbacks of the other streams. -/
def deframeData (connection : Connection) (streamId : Nat) (call : StreamCall) (data : Bytes)
    (endStream : Bool) : Connection :=
  match call.deframer.feed data with
  | .error _ => connection.throw
  | .ok deframer =>
      let call := { call with deframer }
      if endStream && !call.launched then
        connection.start streamId { call with launched := true } []
      else connection.setCall streamId call

/-- The data callback of a stream. -/
def dataCallback (connection : Connection) (streamId : Nat) (call : StreamCall) (data : Bytes)
    (endStream : Bool) : Connection :=
  match call.entry with
  | .serverStream _ | .serverStreamWithContext =>
      connection.bufferData streamId call data endStream
  | _ => connection.deframeData streamId call data endStream

end Connection

/-- The methods that `request_start_handler` leaves to the request handler. -/
def MethodEntry.isUnary : MethodEntry → Bool
  | .unary _ | .unaryWithContext _ => true
  | _ => false

/-- The headers of the response on a stream. -/
def streamResponse : Response :=
  { status := ⟨200⟩
    hdrs := Headers.set (Headers.set [] (ascii "content-type") contentType) (ascii "grpc-encoding")
      grpcEncoding }

/-- The stream that a request starts, if its method is not unary. -/
def Server.streamEntry (server : Server) (req : Request) : Option MethodEntry :=
  if isGrpc req then
    match server.methods req.path with
    | none => none
    | some entry => if entry.isUnary then none else some entry
  else none

/-- The start handler of a connection: whether it takes the request. Only the flag of a server
stream is set when the handler is called here. -/
def Server.requestStartHandler (server : Server) (connection : Connection) (streamId : Nat)
    (req : Request) (endStream : Bool) : Bool × Connection :=
  match server.streamEntry req with
  | none => (false, connection)
  | some entry =>
      let connection := connection.record [.submitResponseHeaders streamId streamResponse]
      let call : StreamCall := { began := connection.moment, entry }
      if endStream then
        match entry with
        | .serverStream _ | .serverStreamWithContext =>
            (true, connection.start streamId { call with launched := true } [])
        | _ => (true, connection.start streamId call [])
      else (true, connection.setCall streamId call)

/-! ### Connections -/

/-- What a session calls. -/
inductive Call where
  | requestHandler (req : Request)
  | requestStartHandler (streamId : Nat) (req : Request) (endStream : Bool)
  | dataCallback (streamId : Nat) (data : Bytes) (endStream : Bool)
  deriving DecidableEq, Repr

/-- What a call does to a connection that has not ended. -/
def Server.perform (server : Server) (connection : Connection) : Call → Connection
  | .requestHandler req =>
      let (events, resp) := server.requestHandler connection.moment req
      let connection := connection.record events
      if resp.isNone then connection.throw else connection
  | .requestStartHandler streamId req endStream =>
      (server.requestStartHandler connection streamId req endStream).2
  | .dataCallback streamId data endStream =>
      match connection.calls streamId with
      | none => connection
      | some call => connection.dataCallback streamId call data endStream

/-- A call of the session. -/
def Server.step (server : Server) (connection : Connection) (call : Call) : Connection :=
  if connection.ended then connection
  else { server.perform connection call with moment := connection.moment + 1 }

end AsyncNet.Grpc
