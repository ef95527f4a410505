/-
This file is about which function of a gRPC server serves a request: the eight functions that
register a method fill different fields of one `method_entry`, and the places that call a method
each read one of these. A unary call reads the field for methods with a context if the entry has
that flag. The places that call the handler of a stream do not look at the flag: they read the
field for methods without a context, which is empty if the method was registered with one.

A stream that waits for its end refers to the entry of its path in the map, not to a copy, but
what kind of stream it is has been decided when its headers came.
-/

import AsyncNet.Grpc.Server

namespace AsyncNet.Grpc.Lookup

open AsyncNet.Http

/-- `handler_type`. -/
inductive HandlerType where
  | unary | serverStream | clientStream | bidiStream
  deriving DecidableEq, Repr

/-! ### Methods -/

/-- `method_entry`, over the functions of each type, without or with a context. An empty function is
none. -/
structure MethodEntry (F : HandlerType → Bool → Type) where
  type : HandlerType
  hasContext : Bool := false
  unary : Option (F .unary false) := none
  unaryCtx : Option (F .unary true) := none
  srvStream : Option (F .serverStream false) := none
  srvStreamCtx : Option (F .serverStream true) := none
  cliStream : Option (F .clientStream false) := none
  cliStreamCtx : Option (F .clientStream true) := none
  bidi : Option (F .bidiStream false) := none
  bidiCtx : Option (F .bidiStream true) := none

/-- A function that can be registered. -/
structure Callable (F : HandlerType → Bool → Type) where
  type : HandlerType
  withContext : Bool
  function : F type withContext

/-- A request whose end has not come. It is that of a stream if the start handler has taken it. -/
structure OpenRequest where
  path : Bytes
  stream : Option HandlerType
  isStream : stream ≠ some .unary

/-- A server with its methods by their paths, and the requests that are open on its connection. -/
structure Server (F : HandlerType → Bool → Type) where
  methods : Bytes → Option (MethodEntry F) := fun _ => none
  requests : Nat → Option OpenRequest := fun _ => none

variable {F : HandlerType → Bool → Type}

namespace Server

/-- What the functions that register a method have in common. -/
def register (server : Server F) (service method : Bytes) (entry : MethodEntry F) : Server F :=
  { server with
    methods := fun path => if path = makePath service method then some entry
      else server.methods path }

/-- `register_method`. -/
def registerMethod (server : Server F) (service method : Bytes) (handler : F .unary false) :
    Server F :=
  server.register service method { type := .unary, hasContext := false, unary := some handler }

/-- `register_method` with a handler that takes a context. -/
def registerMethodWithContext (server : Server F) (service method : Bytes)
    (handler : F .unary true) : Server F :=
  server.register service method { type := .unary, hasContext := true, unaryCtx := some handler }

/-- `register_server_stream`. -/
def registerServerStream (server : Server F) (service method : Bytes)
    (handler : F .serverStream false) : Server F :=
  server.register service method
    { type := .serverStream, hasContext := false, srvStream := some handler }

/-- `register_server_stream` with a handler that takes a context. -/
def registerServerStreamWithContext (server : Server F) (service method : Bytes)
    (handler : F .serverStream true) : Server F :=
  server.register service method
    { type := .serverStream, hasContext := true, srvStreamCtx := some handler }

/-- `register_client_stream`. -/
def registerClientStream (server : Server F) (service method : Bytes)
    (handler : F .clientStream false) : Server F :=
  server.register service method
    { type := .clientStream, hasContext := false, cliStream := some handler }

/-- `register_client_stream` with a handler that takes a context. -/
def registerClientStreamWithContext (server : Server F) (service method : Bytes)
    (handler : F .clientStream true) : Server F :=
  server.register service method
    { type := .clientStream, hasContext := true, cliStreamCtx := some handler }

/-- `register_bidi_stream`. -/
def registerBidiStream (server : Server F) (service method : Bytes)
    (handler : F .bidiStream false) : Server F :=
  server.register service method { type := .bidiStream, hasContext := false, bidi := some handler }

/-- `register_bidi_stream` with a handler that takes a context. -/
def registerBidiStreamWithContext (server : Server F) (service method : Bytes)
    (handler : F .bidiStream true) : Server F :=
  server.register service method
    { type := .bidiStream, hasContext := true, bidiCtx := some handler }

/-- The function that the overload for a callable is. -/
def registerCallable (server : Server F) (service method : Bytes) : Callable F → Server F
  | ⟨.unary, false, handler⟩ => server.registerMethod service method handler
  | ⟨.unary, true, handler⟩ => server.registerMethodWithContext service method handler
  | ⟨.serverStream, false, handler⟩ => server.registerServerStream service method handler
  | ⟨.serverStream, true, handler⟩ => server.registerServerStreamWithContext service method handler
  | ⟨.clientStream, false, handler⟩ => server.registerClientStream service method handler
  | ⟨.clientStream, true, handler⟩ => server.registerClientStreamWithContext service method handler
  | ⟨.bidiStream, false, handler⟩ => server.registerBidiStream service method handler
  | ⟨.bidiStream, true, handler⟩ => server.registerBidiStreamWithContext service method handler

end Server

/-! ### Calls -/

/-- The function that `dispatch` calls. -/
def MethodEntry.unaryFunction (entry : MethodEntry F) : Option (Callable F) :=
  if entry.hasContext then entry.unaryCtx.map (Callable.mk .unary true)
  else entry.unary.map (Callable.mk .unary false)

/-- The function that the start handler and the data callback of a stream call. -/
def MethodEntry.streamFunction (entry : MethodEntry F) : HandlerType → Option (Callable F)
  | .unary => none
  | .serverStream => entry.srvStream.map (Callable.mk .serverStream false)
  | .clientStream => entry.cliStream.map (Callable.mk .clientStream false)
  | .bidiStream => entry.bidi.map (Callable.mk .bidiStream false)

namespace Server

/-- The function that `dispatch` comes to: none if there is no method or it is not a unary one. -/
def dispatch (server : Server F) (path : Bytes) : Option (Callable F) :=
  match server.methods path with
  | none => none
  | some entry => if entry.type ≠ .unary then none else entry.unaryFunction

/-- Whether the start handler takes a request, and for which type of stream. -/
def startType (server : Server F) (path : Bytes) : Option HandlerType :=
  match server.methods path with
  | none => none
  | some entry => if entry.type = .unary then none else some entry.type

theorem startType_ne_unary (server : Server F) (path : Bytes) :
    server.startType path ≠ some .unary := by
  unfold startType
  split
  · exact fun wrong => by cases wrong
  · split
    · exact fun wrong => by cases wrong
    · rename_i entry _ stream
      exact fun wrong => stream (Option.some.inj wrong)

/-- The headers of a request have come. -/
def accept (server : Server F) (path : Bytes) : OpenRequest :=
  ⟨path, server.startType path, server.startType_ne_unary path⟩

/-- The function that is called at the end of a request. -/
def serve (server : Server F) (request : OpenRequest) : Option (Callable F) :=
  match request.stream with
  | none => server.dispatch request.path
  | some type => (server.methods request.path).bind fun entry => entry.streamFunction type

end Server

/-! ### Runs -/

/-- A method is registered, or something comes of a gRPC request: its headers, with which it may
end, or its end. -/
inductive Input (F : HandlerType → Bool → Type) where
  | register (service method : Bytes) (callable : Callable F)
  | headers (streamId : Nat) (path : Bytes) (endStream : Bool)
  | endStream (streamId : Nat)

namespace Server

/-- The request that an input ends. -/
def ended (server : Server F) : Input F → Option OpenRequest
  | .register _ _ _ => none
  | .headers _ path endStream => if endStream then some (server.accept path) else none
  | .endStream streamId => server.requests streamId

def setRequest (server : Server F) (streamId : Nat) (request : Option OpenRequest) : Server F :=
  { server with
    requests := fun other => if other = streamId then request else server.requests other }

def step (server : Server F) : Input F → Server F
  | .register service method callable => server.registerCallable service method callable
  | .headers streamId path endStream =>
      server.setRequest streamId (if endStream then none else some (server.accept path))
  | .endStream streamId => server.setRequest streamId none

def run (inputs : List (Input F)) : Server F := inputs.foldl step {}

end Server

/-- The callable that was registered most recently for a path. -/
def latest (inputs : List (Input F)) (path : Bytes) : Option (Callable F) :=
  inputs.foldl (fun found input =>
    match input with
    | .register service method callable =>
        if path = makePath service method then some callable else found
    | _ => found) none

/-- Every request is served by the callable that has been registered most recently for its path, and
by no other function. -/
def ServesLatest (inputs : List (Input F)) : Prop :=
  ∀ front input, front ++ [input] <+: inputs →
    ∀ request, (Server.run front).ended input = some request →
      (Server.run front).serve request = latest front request.path

/-- The method of the path has the type that it had when the headers of the request came, and it is
not that of a stream with a context. -/
def Server.Calls (server : Server F) (request : OpenRequest) : Prop :=
  ∀ entry, server.methods request.path = some entry →
    entry.type = request.stream.getD .unary ∧ (entry.type = .unary ∨ entry.hasContext = false)

/-! ### Entries -/

/-- The entry that a callable is registered with. -/
def Callable.entry : Callable F → MethodEntry F
  | ⟨.unary, false, handler⟩ => { type := .unary, hasContext := false, unary := some handler }
  | ⟨.unary, true, handler⟩ => { type := .unary, hasContext := true, unaryCtx := some handler }
  | ⟨.serverStream, false, handler⟩ =>
      { type := .serverStream, hasContext := false, srvStream := some handler }
  | ⟨.serverStream, true, handler⟩ =>
      { type := .serverStream, hasContext := true, srvStreamCtx := some handler }
  | ⟨.clientStream, false, handler⟩ =>
      { type := .clientStream, hasContext := false, cliStream := some handler }
  | ⟨.clientStream, true, handler⟩ =>
      { type := .clientStream, hasContext := true, cliStreamCtx := some handler }
  | ⟨.bidiStream, false, handler⟩ =>
      { type := .bidiStream, hasContext := false, bidi := some handler }
  | ⟨.bidiStream, true, handler⟩ =>
      { type := .bidiStream, hasContext := true, bidiCtx := some handler }

theorem Callable.type_entry (callable : Callable F) : callable.entry.type = callable.type := by
  obtain ⟨type, withContext, function⟩ := callable
  cases type <;> cases withContext <;> rfl

theorem Callable.hasContext_entry (callable : Callable F) :
    callable.entry.hasContext = callable.withContext := by
  obtain ⟨type, withContext, function⟩ := callable
  cases type <;> cases withContext <;> rfl

theorem registerCallable_eq (server : Server F) (service method : Bytes) (callable : Callable F) :
    server.registerCallable service method callable =
      server.register service method callable.entry := by
  obtain ⟨type, withContext, function⟩ := callable
  cases type <;> cases withContext <;> rfl

/-- A unary method is called with a context if it was registered so. -/
theorem Callable.unaryFunction_entry (callable : Callable F) (unary : callable.type = .unary) :
    callable.entry.unaryFunction = some callable := by
  obtain ⟨type, withContext, function⟩ := callable
  cases unary
  cases withContext <;> rfl

/-- What is called for a stream is the callable itself, if it is one for such a stream that takes no
context, and an empty function otherwise. -/
theorem Callable.streamFunction_entry (callable : Callable F) {type : HandlerType}
    (stream : type ≠ .unary) :
    callable.entry.streamFunction type =
      if callable.type = type ∧ callable.withContext = false then some callable else none := by
  obtain ⟨own, withContext, function⟩ := callable
  cases type <;> cases own <;> cases withContext <;> first | rfl | exact absurd rfl stream

/-! ### Requests -/

theorem run_snoc (front : List (Input F)) (input : Input F) :
    Server.run (front ++ [input]) = (Server.run front).step input := List.foldl_concat _ _ _ _

theorem latest_snoc (front : List (Input F)) (input : Input F) (path : Bytes) :
    latest (front ++ [input]) path =
      match input with
      | .register service method callable =>
          if path = makePath service method then some callable else latest front path
      | _ => latest front path := by
  unfold latest
  rw [List.foldl_append]
  cases input <;> rfl

/-- The map has the entries of the callables that were registered most recently. -/
theorem methods_run (inputs : List (Input F)) (path : Bytes) :
    (Server.run inputs).methods path = (latest inputs path).map Callable.entry := by
  induction inputs using List.reverseRecOn with
  | nil => rfl
  | append_singleton front input inductionHypothesis =>
    rw [run_snoc, latest_snoc]
    cases input with
    | register service method callable =>
      show ((Server.run front).registerCallable service method callable).methods path = _
      rw [registerCallable_eq]
      show (if path = makePath service method then _ else _) = _
      dsimp only
      split
      · rfl
      · exact inductionHypothesis
    | headers streamId path endStream => exact inductionHypothesis
    | endStream streamId => exact inductionHypothesis

/-- The function that serves a request is the callable of its path exactly when the method is called
as it was registered. -/
theorem serve_eq_iff {server : Server F} {request : OpenRequest} {found : Option (Callable F)}
    (methods : server.methods request.path = found.map Callable.entry) :
    server.serve request = found ↔ server.Calls request := by
  unfold Server.Calls
  rw [methods]
  cases found with
  | none =>
    have nothing : server.serve request = none := by
      unfold Server.serve Server.dispatch
      rw [methods]
      split <;> rfl
    rw [nothing]
    exact iff_of_true rfl fun entry wrong => by cases wrong
  | some callable =>
    rw [Option.map_some]
    have only : (∀ entry, some callable.entry = some entry →
        entry.type = request.stream.getD .unary ∧
          (entry.type = .unary ∨ entry.hasContext = false)) ↔
        callable.type = request.stream.getD .unary ∧
          (callable.type = .unary ∨ callable.withContext = false) := by
      rw [← callable.type_entry, ← callable.hasContext_entry]
      exact ⟨fun all => all callable.entry rfl, fun both entry same => by cases same; exact both⟩
    rw [only]
    unfold Server.serve
    cases isStream : request.stream with
    | none =>
      unfold Server.dispatch
      rw [methods, Option.map_some]
      dsimp only
      rw [callable.type_entry]
      by_cases unary : callable.type = .unary
      · rw [if_neg (not_not_intro unary), callable.unaryFunction_entry unary]
        exact iff_of_true rfl ⟨unary, Or.inl unary⟩
      · rw [if_pos unary]
        exact iff_of_false (fun wrong => by cases wrong) fun both => unary both.1
    | some type =>
      have stream : type ≠ .unary := fun same => request.isStream (isStream.trans (by rw [same]))
      dsimp only
      rw [methods, Option.map_some, Option.bind_some, callable.streamFunction_entry stream,
        Option.getD_some]
      split
      · rename_i both
        exact iff_of_true rfl ⟨both.1, Or.inr both.2⟩
      · rename_i not
        refine iff_of_false (fun wrong => by cases wrong) ?_
        rintro ⟨same, unary | plain⟩
        · exact stream (same.symm.trans unary)
        · exact not ⟨same, plain⟩

/-- Whatever is registered and requested, in any order: requests are served by the callables that
were registered most recently for their paths if and only if none comes to the method of a stream
that was registered with a context, or to one of another type than when its headers came. -/
theorem servesLatest_iff (inputs : List (Input F)) :
    ServesLatest inputs ↔ ∀ front input, front ++ [input] <+: inputs →
      ∀ request, (Server.run front).ended input = some request →
        (Server.run front).Calls request := by
  unfold ServesLatest
  refine forall_congr' fun front => forall_congr' fun input => forall_congr' fun _ => ?_
  refine forall_congr' fun request => forall_congr' fun _ => ?_
  exact serve_eq_iff (methods_run front request.path)

/-- A server stream that is registered with a context: its request comes to an empty function. -/
theorem not_servesLatest_serverStreamWithContext :
    ¬ ∀ inputs : List (Input fun _ _ => Unit), ServesLatest inputs := by
  intro serves
  have served := serves
    [.register (ascii "S") (ascii "M") ⟨.serverStream, true, ()⟩, .headers 1 (ascii "/S/M") true]
    [.register (ascii "S") (ascii "M") ⟨.serverStream, true, ()⟩] (.headers 1 (ascii "/S/M") true)
    List.prefix_rfl _ rfl
  have empty : (none : Option (Callable fun _ _ => Unit)) = some ⟨.serverStream, true, ()⟩ := served
  cases empty

/-! ### The server -/

/-- The handlers of `Server`. -/
def Handler : HandlerType → Bool → Type
  | .unary, false => Nat → Bytes → Progress Bytes
  | .unary, true => Nat → Bytes → CallContext → Progress Bytes × CallContext
  | .serverStream, false => Nat → Bytes → Progress Unit × List WriterCall
  | .serverStream, true => Nat → Bytes → CallContext → Progress Unit × List WriterCall
  | .clientStream, false => Nat → List Bytes → Progress Bytes
  | .clientStream, true => Nat → List Bytes → CallContext → Progress Bytes
  | .bidiStream, false => Nat → List Bytes → Progress Unit × List WriterCall
  | .bidiStream, true => Nat → List Bytes → CallContext → Progress Unit × List WriterCall

/-- What `Server` keeps of a method. -/
def Callable.kept : Callable Handler → Grpc.MethodEntry
  | ⟨.unary, false, handler⟩ => .unary handler
  | ⟨.unary, true, handler⟩ => .unaryWithContext handler
  | ⟨.serverStream, false, handler⟩ => .serverStream handler
  | ⟨.serverStream, true, _⟩ => .serverStreamWithContext
  | ⟨.clientStream, false, handler⟩ => .clientStream handler
  | ⟨.clientStream, true, _⟩ => .clientStreamWithContext
  | ⟨.bidiStream, false, handler⟩ => .bidiStream handler
  | ⟨.bidiStream, true, _⟩ => .bidiStreamWithContext

/-- The registrations of a run, made with `Server`. -/
def registered (inputs : List (Input Handler)) : Grpc.Server :=
  inputs.foldl (fun server input =>
    match input with
    | .register service method callable => server.register service method callable.kept
    | _ => server) {}

theorem methods_registered (inputs : List (Input Handler)) (path : Bytes) :
    (registered inputs).methods path = (latest inputs path).map Callable.kept := by
  induction inputs using List.reverseRecOn with
  | nil => rfl
  | append_singleton front input inductionHypothesis =>
    rw [latest_snoc, registered, List.foldl_concat, ← registered]
    cases input with
    | register service method callable =>
      show (if path = makePath service method then _ else _) = _
      dsimp only
      split
      · rfl
      · exact inductionHypothesis
    | headers streamId path endStream => exact inductionHypothesis
    | endStream streamId => exact inductionHypothesis

/-- The start handler takes the requests that it takes here. -/
theorem streamEntry_registered (inputs : List (Input Handler)) (req : Request)
    (grpc : isGrpc req = true) :
    ((registered inputs).streamEntry req).isSome =
      ((Server.run inputs).startType req.path).isSome := by
  unfold Grpc.Server.streamEntry Server.startType
  rw [if_pos grpc, methods_registered, methods_run]
  cases latest inputs req.path with
  | none => rfl
  | some callable =>
    obtain ⟨type, withContext, function⟩ := callable
    cases type <;> cases withContext <;> rfl

/-- The handler of a unary method, with the context if it takes one. -/
def Callable.answers :
    Callable Handler → Option (Nat → Bytes → CallContext → Progress Bytes × CallContext)
  | ⟨.unary, false, handler⟩ => some fun moment request context => (handler moment request, context)
  | ⟨.unary, true, handler⟩ => some handler
  | _ => none

/-- `dispatch` of `Server` calls the function that is found here, behind the interceptors. -/
theorem dispatch_registered (inputs : List (Input Handler)) (moment : Nat) (path request : Bytes)
    (context : CallContext) {callable : Callable Handler}
    (found : (Server.run inputs).dispatch path = some callable) :
    ∃ handler, callable.answers = some handler ∧
      (registered inputs).dispatch moment path request context =
        (registered inputs).callUnary moment path request context (handler moment request) := by
  unfold Server.dispatch at found
  rw [methods_run] at found
  unfold Grpc.Server.dispatch
  rw [methods_registered]
  cases isLatest : latest inputs path with
  | none =>
    rw [isLatest] at found
    cases found
  | some other =>
    rw [isLatest, Option.map_some] at found
    dsimp only at found
    rw [other.type_entry] at found
    by_cases unary : other.type = .unary
    · rw [if_neg (not_not_intro unary), other.unaryFunction_entry unary] at found
      cases found
      obtain ⟨type, withContext, function⟩ := callable
      cases unary
      cases withContext <;> exact ⟨_, rfl, rfl⟩
    · rw [if_pos unary] at found
      cases found

/-- A stream whose function is empty here ends the connection of `Server` with an exception. -/
theorem start_kept (connection : Connection) (streamId : Nat) (call : StreamCall) (request : Bytes)
    (callable : Callable Handler) (entry : call.entry = callable.kept)
    (empty : callable.entry.streamFunction callable.type = none) :
    connection.start streamId call request = (connection.setCall streamId call).throw := by
  unfold Connection.start
  rw [entry]
  obtain ⟨type, withContext, function⟩ := callable
  cases type <;> cases withContext <;> first | rfl | cases empty

end AsyncNet.Grpc.Lookup
