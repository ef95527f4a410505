/-
This file is about the interceptors of a gRPC server as a gate: whether the handler of a call is
started only after every interceptor has completed with true. A unary call runs the chain, but
a suspended interceptor is passed over, and the calls on streams do not run it. So the gate
holds in a run if and only if there are no interceptors, or no step of the run starts the
handler of a stream, and none passes over a suspended interceptor and starts the handler all
the same.
-/

import AsyncNet.Grpc.Server
import AsyncNet.Library.Runs

namespace AsyncNet.Grpc

open AsyncNet.Http AsyncNet.Http.H2 AsyncNet.Library

/-! ### The gate -/

/-- Before the handler of a call is started, each of a number of interceptors has completed with
true on the call. -/
def Gated (count : Nat) (events : List Event) : Prop :=
  ∀ before call after, events = before ++ .started call :: after →
    ∀ index < count, .intercepted call index (.returned true) ∈ before

section Gate

variable {count : Nat} {events : List Event}

theorem gated_concat (event : Event) :
    Gated count (events ++ [event]) ↔ Gated count events ∧ ∀ call, event = .started call →
      ∀ index < count, .intercepted call index (.returned true) ∈ events := by
  constructor
  · intro gated
    refine ⟨fun before call after split => ?_, fun call start => ?_⟩
    · refine gated before call (after ++ [event]) ?_
      rw [split, List.append_assoc]
      rfl
    · subst start
      exact gated events call [] rfl
  · rintro ⟨earlier, last⟩ before call after split
    obtain rfl | ⟨between, final, rfl⟩ := List.eq_nil_or_concat after
    · obtain ⟨rfl, same⟩ := List.append_inj' split rfl
      exact last call (List.singleton_inj.mp same)
    · refine earlier before call between ?_
      have shifted : events ++ [event] = before ++ Event.started call :: between ++ [final] := by
        rw [split, List.concat_eq_append, List.append_assoc]
        rfl
      exact (List.append_inj' shifted rfl).1

/-- Where no handler is started, the gate stays as it is. -/
theorem gated_append_quiet (more : List Event) (quiet : ∀ call, .started call ∉ more) :
    Gated count (events ++ more) ↔ Gated count events := by
  induction more using List.reverseRecOn with
  | nil => rw [List.append_nil]
  | append_singleton more last inductionHypothesis =>
    have others (call : Nat) : .started call ∉ more := fun member =>
      quiet call (List.mem_append_left [last] member)
    have other (call : Nat) : last ≠ .started call := fun same =>
      quiet call (List.mem_append_right more (List.mem_singleton.mpr same.symm))
    rw [← List.append_assoc, gated_concat, inductionHypothesis others]
    exact and_iff_left fun call same => absurd same (other call)

/-- A handler that is started between other events. -/
theorem gated_append_started {front back : List Event} (quiet : ∀ call, .started call ∉ front)
    (quiet' : ∀ call, .started call ∉ back) (call : Nat) :
    Gated count (events ++ (front ++ .started call :: back)) ↔
      Gated count events ∧
        ∀ index < count, .intercepted call index (.returned true) ∈ events ++ front := by
  have shifted : events ++ (front ++ .started call :: back) =
      events ++ front ++ [.started call] ++ back := by
    simp only [List.append_assoc, List.cons_append, List.nil_append]
  rw [shifted, gated_append_quiet back quiet', gated_concat, gated_append_quiet front quiet]
  refine and_congr_right fun _ => ⟨fun all => all call rfl, fun all other same => ?_⟩
  cases same
  exact all

end Gate

/-! ### The chain -/

/-- An interceptor that ends the chain. -/
def Progress.stops : Progress Bool → Bool
  | .returned proceed => !proceed
  | .threw _ => true
  | .suspended => false

/-- What the interceptors come to that a call runs. -/
def verdicts (moment : Nat) (info : CallInfo) (request : Bytes) :
    List Interceptor → Rejection → List (Progress Bool)
  | [], _ => []
  | interceptor :: interceptors, rejection =>
      let (progress, rejection) := interceptor moment info request rejection
      if progress.stops then [progress]
      else progress :: verdicts moment info request interceptors rejection

/-- A chain that does not end before its last interceptor. -/
def Proceeds (outcomes : List (Progress Bool)) : Prop :=
  ∀ outcome ∈ outcomes, outcome.stops = false

instance (outcomes : List (Progress Bool)) : Decidable (Proceeds outcomes) :=
  inferInstanceAs (Decidable (∀ outcome ∈ outcomes, outcome.stops = false))

/-- The events of interceptors, from an index on. -/
def interceptions (moment : Nat) : Nat → List (Progress Bool) → List Event
  | _, [] => []
  | index, progress :: verdicts =>
      .intercepted moment index progress :: interceptions moment (index + 1) verdicts

section Chain

variable (moment : Nat) (info : CallInfo) (request : Bytes)

/-- The chain runs the interceptors up to one that ends it, and a call proceeds if none does. -/
theorem runChain_eq (interceptors : List Interceptor) (index : Nat) (rejection : Rejection) :
    (runChain moment info request index interceptors rejection).1 =
        interceptions moment index (verdicts moment info request interceptors rejection) ∧
      ((∃ last, (runChain moment info request index interceptors rejection).2 =
          some (true, last)) ↔
        Proceeds (verdicts moment info request interceptors rejection)) := by
  induction interceptors generalizing index rejection with
  | nil => exact ⟨rfl, iff_of_true ⟨rejection, rfl⟩ nofun⟩
  | cons interceptor interceptors inductionHypothesis =>
    unfold runChain verdicts
    obtain ⟨progress, changed⟩ := interceptor moment info request rejection
    dsimp only
    obtain ⟨later, proceeds⟩ := inductionHypothesis (index + 1) changed
    have goesOn (goes : progress.stops = false) :
        (∃ last, (runChain moment info request (index + 1) interceptors changed).2 =
            some (true, last)) ↔
          Proceeds (progress :: verdicts moment info request interceptors changed) := by
      rw [proceeds, Proceeds, Proceeds, List.forall_mem_cons]
      exact (and_iff_right goes).symm
    cases progress with
    | threw what =>
      refine ⟨rfl, iff_of_false nofun fun all => ?_⟩
      cases all _ (List.mem_singleton.mpr rfl)
    | suspended => exact ⟨congrArg _ later, goesOn rfl⟩
    | returned proceed =>
      cases proceed with
      | false =>
        refine ⟨rfl, iff_of_false nofun fun all => ?_⟩
        cases all _ (List.mem_singleton.mpr rfl)
      | true => exact ⟨congrArg _ later, goesOn rfl⟩

variable {moment info request}

theorem mem_interceptions {event : Event} {index : Nat} {verdicts : List (Progress Bool)}
    (member : event ∈ interceptions moment index verdicts) :
    ∃ later progress, event = .intercepted moment later progress := by
  induction verdicts generalizing index with
  | nil => cases member
  | cons progress verdicts inductionHypothesis =>
    obtain rfl | member := List.mem_cons.mp member
    · exact ⟨index, progress, rfl⟩
    · exact inductionHypothesis member

theorem intercepted_mem_interceptions {index start : Nat} {verdicts : List (Progress Bool)}
    {progress : Progress Bool} :
    .intercepted moment index progress ∈ interceptions moment start verdicts ↔
      start ≤ index ∧ verdicts[index - start]? = some progress := by
  induction verdicts generalizing start with
  | nil => exact iff_of_false nofun nofun
  | cons first verdicts inductionHypothesis =>
    rw [interceptions, List.mem_cons, inductionHypothesis]
    constructor
    · rintro (same | ⟨later, found⟩)
      · cases same
        rw [Nat.sub_self]
        exact ⟨le_rfl, rfl⟩
      · refine ⟨by omega, ?_⟩
        rw [show index - start = index - (start + 1) + 1 by omega]
        exact found
    · rintro ⟨least, found⟩
      obtain rfl | less := Nat.eq_or_lt_of_le least
      · rw [Nat.sub_self] at found
        cases found
        exact Or.inl rfl
      · rw [show index - start = index - (start + 1) + 1 by omega] at found
        exact Or.inr ⟨less, found⟩

/-- Where none ends the chain, all interceptors are run. -/
theorem length_verdicts (interceptors : List Interceptor) (rejection : Rejection)
    (goesOn : Proceeds (verdicts moment info request interceptors rejection)) :
    (verdicts moment info request interceptors rejection).length = interceptors.length := by
  induction interceptors generalizing rejection with
  | nil => rfl
  | cons interceptor interceptors inductionHypothesis =>
    revert goesOn
    unfold verdicts
    obtain ⟨progress, changed⟩ := interceptor moment info request rejection
    dsimp only
    intro goesOn
    cases stops : progress.stops with
    | true =>
      rw [stops] at goesOn
      have first := goesOn progress (List.mem_singleton.mpr rfl)
      rw [stops] at first
      cases first
    | false =>
      rw [stops] at goesOn
      have later := inductionHypothesis changed (List.forall_mem_cons.mp goesOn).2
      exact congrArg Nat.succ later

end Chain

/-! ### Unary calls -/

namespace Server

/-- The message of a request that reaches the interceptors of a unary call. -/
def unaryRequest (server : Server) (req : Request) : Option Bytes :=
  if isGrpc req ∧ req.method = .post then
    match decodeGrpcMessage req.bd, server.methods req.path with
    | .ok (some request), some entry => if entry.isUnary then some request else none
    | _, _ => none
  else none

/-- What the interceptors come to on a request. -/
def requestVerdicts (server : Server) (moment : Nat) (req : Request) (request : Bytes) :
    List (Progress Bool) :=
  verdicts moment (.ofPath req.path (extractFromHeaders req.hdrs)) request server.interceptors {}

end Server

/-- The events of a unary call whose interceptors come to something. -/
def unaryEvents (moment : Nat) (outcomes : List (Progress Bool)) : List Event :=
  interceptions moment 0 outcomes ++ if Proceeds outcomes then [.started moment] else []

namespace Server

theorem intercept_eq (server : Server) (moment : Nat) (path request : Bytes)
    (context : CallContext) :
    server.intercept moment path request context =
      runChain moment (.ofPath path context.initialMetadata) request 0 server.interceptors {} := by
  unfold intercept
  split
  · rename_i none
    rw [none]
    rfl
  · rfl

theorem callUnary_events (server : Server) (moment : Nat) (path request : Bytes)
    (context : CallContext) (handler : CallContext → Progress Bytes × CallContext) :
    (server.callUnary moment path request context handler).1 =
      unaryEvents moment (verdicts moment (.ofPath path context.initialMetadata) request
        server.interceptors {}) := by
  obtain ⟨events, proceeds⟩ := runChain_eq moment (.ofPath path context.initialMetadata) request
    server.interceptors 0 {}
  unfold callUnary unaryEvents
  rw [intercept_eq, ← events]
  generalize runChain moment (.ofPath path context.initialMetadata) request 0
    server.interceptors {} = run at proceeds ⊢
  obtain ⟨chain, result⟩ := run
  cases result with
  | none =>
    have stopped := mt proceeds.mpr fun ⟨last, same⟩ => nomatch same
    rw [if_neg stopped, List.append_nil]
  | some verdict =>
    obtain ⟨proceed, last⟩ := verdict
    cases proceed with
    | false =>
      have stopped := mt proceeds.mpr fun ⟨_, same⟩ => nomatch same
      rw [if_neg stopped, List.append_nil]
    | true =>
      have goesOn := proceeds.mp ⟨last, rfl⟩
      rw [if_pos goesOn]

/-- What the request handler does is the interceptors and, if none ends the chain, the handler. -/
theorem requestHandler_events (server : Server) (moment : Nat) (req : Request) :
    (server.requestHandler moment req).1 =
      match server.unaryRequest req with
      | none => []
      | some request => unaryEvents moment (server.requestVerdicts moment req request) := by
  unfold requestHandler unaryRequest
  by_cases grpc : isGrpc req = false
  · rw [if_pos grpc, if_neg (fun both => by rw [grpc] at both; exact Bool.false_ne_true both.1)]
  · rw [if_neg grpc]
    have isGrpc' : isGrpc req = true := Bool.eq_true_of_not_eq_false grpc
    by_cases post : req.method = .post
    · rw [if_neg (not_not.mpr post), if_pos ⟨isGrpc', post⟩]
      cases decodeGrpcMessage req.bd with
      | error fault => rfl
      | ok found =>
        cases found with
        | none => rfl
        | some request =>
          show (server.dispatch moment req.path request _).1 = _
          unfold dispatch
          cases server.methods req.path with
          | none => rfl
          | some entry =>
            cases entry with
            | unary handler => exact callUnary_events server moment req.path request _ _
            | unaryWithContext handler => exact callUnary_events server moment req.path request _ _
            | _ => rfl
    · rw [if_pos post, if_neg (fun both => post both.2)]

end Server

/-! ### Streams -/

def Event.isSubmit : Event → Bool
  | .intercepted .. | .started _ => false
  | _ => true

/-- Nothing is done but what the session is called for. -/
def Submits (events : List Event) : Prop := ∀ event ∈ events, event.isSubmit = true

theorem Submits.not_started {events : List Event} (submits : Submits events) (call : Nat) :
    .started call ∉ events :=
  fun member => nomatch submits _ member

theorem submits_runWriter (streamId : Nat) (finished : Bool) (calls : List WriterCall) :
    Submits (runWriter streamId finished calls).2 := by
  induction calls generalizing finished with
  | nil => cases finished <;> exact nofun
  | cons call calls inductionHypothesis =>
    cases finished with
    | true => exact inductionHypothesis true
    | false =>
      cases call with
      | write message => exact List.forall_mem_cons.mpr ⟨rfl, inductionHypothesis false⟩
      | finish code message => exact List.forall_mem_cons.mpr ⟨rfl, inductionHypothesis true⟩

/-- The methods of streams that have a handler to call. -/
def MethodEntry.starts : MethodEntry → Bool
  | .serverStream _ | .clientStream _ | .bidiStream _ => true
  | _ => false

/-- A stream of a connection goes on: nothing is done but what the session is called for and,
possibly, a handler that is started. -/
structure Advances (connection after : Connection) (streamId : Nat) (began : Nat)
    (starts : Bool) : Prop where
  events : ∃ front back, Submits front ∧ Submits back ∧ after.events = connection.events ++
    (front ++ if starts then .started began :: back else back)
  others : ∀ other ≠ streamId, after.calls other = connection.calls other
  call : ∀ call, after.calls streamId = some call →
    call.began = began ∨ connection.calls streamId = some call

theorem Connection.advances_start (connection : Connection) (streamId : Nat) (call : StreamCall)
    (request : Bytes) :
    Advances connection (connection.start streamId call request) streamId call.began
      call.entry.starts := by
  have named (changed : StreamCall) (same : changed.began = call.began) (found : StreamCall)
      (is : (connection.setCall streamId changed).calls streamId = some found) :
      found.began = call.began := by
    have here : some changed = some found := (if_pos rfl).symm.trans is
    cases here
    exact same
  have kept (changed : StreamCall) (other : Nat) (differs : other ≠ streamId) :
      (connection.setCall streamId changed).calls other = connection.calls other :=
    if_neg differs
  have writing (run : Progress Unit × List WriterCall) :
      Advances connection (connection.startWriting streamId call run) streamId call.began true :=
    ⟨⟨[], _, nofun, submits_runWriter streamId call.finished _, rfl⟩, kept _,
      fun found is => Or.inl (named { call with
        finished := (runWriter streamId call.finished
          (if run.1 = .suspended then run.2 else run.2 ++ [.finish .ok []])).1 } rfl found is)⟩
  unfold Connection.start
  cases entry : call.entry with
  | serverStream handler => exact writing _
  | bidiStream handler => exact writing _
  | clientStream handler =>
    show Advances connection (connection.startReading streamId call _) streamId call.began true
    unfold Connection.startReading
    cases handler connection.moment call.deframer.pushed with
    | suspended =>
      exact ⟨⟨[], [], nofun, nofun, rfl⟩, kept _, fun found is => Or.inl (named _ rfl found is)⟩
    | threw what =>
      exact ⟨⟨[], [], nofun, nofun, rfl⟩, kept _, fun found is => Or.inl (named _ rfl found is)⟩
    | returned result =>
      refine ⟨⟨[], _, nofun, ?_, rfl⟩, kept _, fun found is => Or.inl (named { call with
        finished := (runWriter streamId call.finished [.finish .ok []]).1 } rfl found is)⟩
      exact List.forall_mem_cons.mpr ⟨rfl, submits_runWriter streamId call.finished _⟩
  | _ =>
    exact ⟨⟨[], [], nofun, nofun, (List.append_nil _).symm⟩, kept _,
      fun found is => Or.inl (named _ rfl found is)⟩

/-- Whether the data of a stream can be taken in: the message of a server stream, or the messages of
the others. -/
def StreamCall.takes (call : StreamCall) (data : Bytes) : Bool :=
  match call.entry with
  | .serverStream _ | .serverStreamWithContext =>
      (decodeGrpcMessage (call.buffer ++ data)).toOption.isSome
  | _ => (call.deframer.feed data).toOption.isSome

/-- Whether data on a stream starts its handler. -/
def StreamCall.startsWith (call : StreamCall) (data : Bytes) (endStream : Bool) : Bool :=
  endStream && !call.launched && call.entry.starts && call.takes data

/-- Whether the headers of a request start the handler of a stream. -/
def Server.startsNow (server : Server) (req : Request) (endStream : Bool) : Bool :=
  endStream && (server.streamEntry req).any MethodEntry.starts

theorem Connection.advances_setCall (connection : Connection) (streamId : Nat)
    (call : StreamCall) :
    Advances connection (connection.setCall streamId call) streamId call.began false := by
  refine ⟨⟨[], [], nofun, nofun, (List.append_nil _).symm⟩, fun other differs => if_neg differs, ?_⟩
  intro found is
  have here : some call = some found := (if_pos rfl).symm.trans is
  cases here
  exact Or.inl rfl

theorem Connection.advances_refl (connection : Connection) (streamId began : Nat) :
    Advances connection connection streamId began false :=
  ⟨⟨[], [], nofun, nofun, (List.append_nil _).symm⟩, fun _ _ => rfl, fun _ => Or.inr⟩

theorem Advances.throw {connection after : Connection} {streamId began : Nat} {starts : Bool}
    (advances : Advances connection after streamId began starts) :
    Advances connection after.throw streamId began starts :=
  ⟨advances.events, advances.others, advances.call⟩

theorem Advances.of_record {connection after : Connection} {front : List Event}
    {streamId began : Nat} {starts : Bool} (submits : Submits front)
    (advances : Advances (connection.record front) after streamId began starts) :
    Advances connection after streamId began starts := by
  obtain ⟨between, back, first, last, events⟩ := advances.events
  refine ⟨⟨front ++ between, back, ?_, last, ?_⟩, advances.others, advances.call⟩
  · exact List.forall_mem_append.mpr ⟨submits, first⟩
  · rw [events, Connection.record, List.append_assoc, List.append_assoc]

/-- What a function of a stream can come to: it starts the handler of the call, keeps the call as it
is by then, or does nothing, and where it starts no handler it can throw. -/
inductive Connection.Comes (connection : Connection) (streamId began : Nat) :
    Bool → Connection → Prop
  | starts (call : StreamCall) (request : Bytes) (same : call.began = began) :
      connection.Comes streamId began call.entry.starts (connection.start streamId call request)
  | keeps (call : StreamCall) (same : call.began = began) :
      connection.Comes streamId began false (connection.setCall streamId call)
  | nothing : connection.Comes streamId began false connection
  | throws {after : Connection} (comes : connection.Comes streamId began false after) :
      connection.Comes streamId began false after.throw

theorem Connection.Comes.advances {connection after : Connection} {streamId began : Nat}
    {starts : Bool} (comes : connection.Comes streamId began starts after) :
    Advances connection after streamId began starts := by
  induction comes with
  | starts call request same => exact same ▸ connection.advances_start streamId call request
  | keeps call same => exact same ▸ connection.advances_setCall streamId call
  | nothing => exact connection.advances_refl streamId began
  | throws comes inductionHypothesis => exact inductionHypothesis.throw

theorem Connection.comes_bufferData (connection : Connection) (streamId : Nat)
    (call : StreamCall) (data : Bytes) (endStream : Bool) :
    connection.Comes streamId call.began
      (endStream && !call.launched && call.entry.starts &&
        (decodeGrpcMessage (call.buffer ++ data)).toOption.isSome)
      (connection.bufferData streamId call data endStream) := by
  unfold bufferData
  dsimp only
  cases endStream && !call.launched with
  | false => exact .keeps { call with buffer := _ } rfl
  | true =>
    rw [if_pos rfl, Bool.true_and]
    cases decodeGrpcMessage (call.buffer ++ data) with
    | error fault =>
      show Comes _ streamId _ (call.entry.starts && false) _
      rw [Bool.and_false]
      exact .throws (.keeps { call with buffer := _, launched := true } rfl)
    | ok request =>
      show Comes _ streamId _ (call.entry.starts && true) _
      rw [Bool.and_true]
      exact .starts { call with buffer := _, launched := true } _ rfl

theorem Connection.comes_deframeData (connection : Connection) (streamId : Nat)
    (call : StreamCall) (data : Bytes) (endStream : Bool) :
    connection.Comes streamId call.began
      (endStream && !call.launched && call.entry.starts &&
        (call.deframer.feed data).toOption.isSome)
      (connection.deframeData streamId call data endStream) := by
  unfold deframeData
  cases call.deframer.feed data with
  | error fault =>
    show Comes _ streamId _ (endStream && !call.launched && call.entry.starts && false) _
    rw [Bool.and_false]
    exact .throws .nothing
  | ok deframer =>
    show Comes _ streamId _ (endStream && !call.launched && call.entry.starts && true) _
    rw [Bool.and_true]
    dsimp only
    cases endStream && !call.launched with
    | false => exact .keeps { call with deframer } rfl
    | true =>
      rw [if_pos rfl, Bool.true_and]
      exact .starts { call with deframer, launched := true } _ rfl

theorem Connection.comes_dataCallback (connection : Connection) (streamId : Nat)
    (call : StreamCall) (data : Bytes) (endStream : Bool) :
    connection.Comes streamId call.began (call.startsWith data endStream)
      (connection.dataCallback streamId call data endStream) := by
  have buffered := connection.comes_bufferData streamId call data endStream
  have deframed := connection.comes_deframeData streamId call data endStream
  obtain ⟨began, entry, buffer, deframer, launched, finished⟩ := call
  cases entry with
  | serverStream handler => exact buffered
  | serverStreamWithContext => exact buffered
  | _ => exact deframed

theorem Connection.advances_dataCallback (connection : Connection) (streamId : Nat)
    (call : StreamCall) (data : Bytes) (endStream : Bool) :
    Advances connection (connection.dataCallback streamId call data endStream) streamId call.began
      (call.startsWith data endStream) :=
  (connection.comes_dataCallback streamId call data endStream).advances

/-- The start handler leaves a request that starts no stream alone, and answers another one with the
headers of the response first. -/
theorem Server.comes_requestStartHandler (server : Server) (connection : Connection)
    (streamId : Nat) (req : Request) (endStream : Bool) :
    (server.requestStartHandler connection streamId req endStream).2 = connection ∧
        server.startsNow req endStream = false ∨
      (connection.record [.submitResponseHeaders streamId streamResponse]).Comes streamId
        connection.moment (server.startsNow req endStream)
        (server.requestStartHandler connection streamId req endStream).2 := by
  unfold requestStartHandler startsNow
  cases server.streamEntry req with
  | none => exact Or.inl ⟨rfl, by rw [Option.any_none, Bool.and_false]⟩
  | some entry =>
    refine Or.inr ?_
    rw [Option.any_some]
    dsimp only
    cases endStream with
    | false => exact .keeps { began := connection.moment, entry } rfl
    | true =>
      rw [if_pos rfl, Bool.true_and]
      have starts (launched : Bool) :
          (connection.record [.submitResponseHeaders streamId streamResponse]).Comes streamId
            connection.moment entry.starts
            ((connection.record [.submitResponseHeaders streamId streamResponse]).start streamId
              { began := connection.moment, entry, launched } []) :=
        .starts { began := connection.moment, entry, launched } [] rfl
      cases entry with
      | serverStream handler => exact starts true
      | serverStreamWithContext => exact starts true
      | _ => exact starts false

theorem Server.advances_requestStartHandler (server : Server) (connection : Connection)
    (streamId : Nat) (req : Request) (endStream : Bool) :
    Advances connection (server.requestStartHandler connection streamId req endStream).2 streamId
      connection.moment (server.startsNow req endStream) := by
  obtain ⟨same, none⟩ | comes := server.comes_requestStartHandler connection streamId req endStream
  · rw [same, none]
    exact connection.advances_refl streamId connection.moment
  · have submits : Submits [.submitResponseHeaders streamId streamResponse] :=
      List.forall_mem_singleton.mpr rfl
    exact Advances.of_record submits comes.advances

/-! ### Runs -/

/-- A call of the session after which the gate holds if it held before: none of the interceptors is
passed over, and no handler of a stream is started. -/
def Server.Safe (server : Server) (connection : Connection) (call : Call) : Prop :=
  server.interceptors = [] ∨ connection.ended = true ∨
    match call with
    | .requestHandler req => ∀ request, server.unaryRequest req = some request →
        Proceeds (server.requestVerdicts connection.moment req request) →
        .suspended ∉ server.requestVerdicts connection.moment req request
    | .requestStartHandler _ req endStream => server.startsNow req endStream = false
    | .dataCallback streamId data endStream => ∀ call, connection.calls streamId = some call →
        call.startsWith data endStream = false

/-- Interceptors run at the moment of their call, and not for streams. -/
structure Sound (connection : Connection) : Prop where
  past : ∀ call index progress, .intercepted call index progress ∈ connection.events →
    call < connection.moment
  streams : ∀ streamId call, connection.calls streamId = some call →
    call.began < connection.moment ∧
      ∀ index progress, .intercepted call.began index progress ∉ connection.events

section Runs

variable {server : Server} {connection after : Connection}

/-- A stream that goes on keeps the invariant. -/
theorem Sound.advances {streamId began : Nat} {starts : Bool} (sound : Sound connection)
    (advances : Advances connection after streamId began starts)
    (named : began = connection.moment ∨ ∃ call, connection.calls streamId = some call ∧
      call.began = began) :
    Sound { after with moment := connection.moment + 1 } := by
  obtain ⟨front, back, first, last, events⟩ := advances.events
  have same (call index : Nat) (progress : Progress Bool)
      (member : .intercepted call index progress ∈ after.events) :
      .intercepted call index progress ∈ connection.events := by
    rw [events, List.mem_append, List.mem_append] at member
    obtain earlier | early | late := member
    · exact earlier
    · exact nomatch first _ early
    · cases starts with
      | false => exact nomatch last _ late
      | true =>
        obtain wrong | late := List.mem_cons.mp late
        · cases wrong
        · exact nomatch last _ late
  have unseen (call : StreamCall) (streamId : Nat)
      (is : connection.calls streamId = some call) :
      call.began < connection.moment + 1 ∧
        ∀ index progress, .intercepted call.began index progress ∉ after.events := by
    obtain ⟨before, none⟩ := sound.streams streamId call is
    exact ⟨Nat.lt_succ_of_lt before, fun index progress member =>
      none index progress (same _ _ _ member)⟩
  constructor
  · intro call index progress member
    exact Nat.lt_succ_of_lt (sound.past call index progress (same _ _ _ member))
  · intro other call is
    by_cases here : other = streamId
    · subst here
      obtain fresh | kept := advances.call call is
      · obtain now | ⟨old, found, earlier⟩ := named
        · rw [fresh, now]
          refine ⟨Nat.lt_succ_self _, fun index progress member => ?_⟩
          exact Nat.lt_irrefl _ (sound.past _ _ _ (same _ _ _ member))
        · have kept := unseen old other found
          rw [fresh, ← earlier]
          exact kept
      · exact unseen call other kept
    · rw [show after.calls other = connection.calls other from advances.others other here] at is
      exact unseen call other is

/-- A stream that goes on keeps the gate if and only if its handler is not started. -/
theorem gated_advances_iff {count streamId began : Nat} {starts : Bool} (some : count ≠ 0)
    (advances : Advances connection after streamId began starts)
    (unseen : ∀ index progress, .intercepted began index progress ∉ connection.events) :
    Gated count after.events ↔ Gated count connection.events ∧ starts = false := by
  obtain ⟨front, back, first, last, events⟩ := advances.events
  rw [events]
  cases starts with
  | false =>
    have quiet : Submits (front ++ back) := List.forall_mem_append.mpr ⟨first, last⟩
    rw [if_neg Bool.false_ne_true, gated_append_quiet _ quiet.not_started]
    exact (and_iff_left rfl).symm
  | true =>
    rw [if_pos rfl, gated_append_started first.not_started last.not_started]
    refine and_congr_right fun _ => iff_of_false (fun all => ?_) nofun
    obtain earlier | early := List.mem_append.mp (all 0 (Nat.pos_of_ne_zero some))
    · exact unseen _ _ earlier
    · exact nomatch first _ early

/-- Where no interceptor ends the chain, all complete with true if none is suspended. -/
theorem proceeds_iff {outcomes : List (Progress Bool)} (proceeds : Proceeds outcomes) :
    .suspended ∉ outcomes ↔ ∀ outcome ∈ outcomes, outcome = .returned true := by
  constructor
  · intro none outcome member
    have goesOn := proceeds outcome member
    cases outcome with
    | suspended => exact absurd member none
    | threw what => cases goesOn
    | returned proceed =>
      cases proceed with
      | false => cases goesOn
      | true => rfl
  · intro all member
    cases all _ member

/-- A unary call keeps the gate if and only if its handler is not started, or no interceptor has
been passed over. -/
theorem gated_unary_iff {events : List Event} {moment : Nat} {outcomes : List (Progress Bool)}
    {count : Nat} (length : Proceeds outcomes → outcomes.length = count)
    (unseen : ∀ index progress, .intercepted moment index progress ∉ events) :
    Gated count (events ++ unaryEvents moment outcomes) ↔
      Gated count events ∧ (Proceeds outcomes → .suspended ∉ outcomes) := by
  have noStart (call : Nat) : .started call ∉ interceptions moment 0 outcomes := by
    intro member
    obtain ⟨_, _, wrong⟩ := mem_interceptions member
    cases wrong
  unfold unaryEvents
  by_cases proceeds : Proceeds outcomes
  · rw [if_pos proceeds, gated_append_started noStart (fun _ => List.not_mem_nil),
      imp_iff_right proceeds, proceeds_iff proceeds]
    refine and_congr_right fun _ => ?_
    rw [← length proceeds]
    constructor
    · intro all outcome member
      obtain ⟨index, within, found⟩ := List.getElem_of_mem member
      have there := (List.mem_append.mp (all index within)).resolve_left (unseen _ _)
      have same := (intercepted_mem_interceptions.mp there).2
      rw [Nat.sub_zero, List.getElem?_eq_getElem within, found] at same
      exact Option.some.inj same
    · intro all index within
      refine List.mem_append_right _ (intercepted_mem_interceptions.mpr ⟨Nat.zero_le _, ?_⟩)
      rw [Nat.sub_zero, List.getElem?_eq_getElem within, all _ (List.getElem_mem within)]
  · rw [if_neg proceeds, List.append_nil, gated_append_quiet _ noStart]
    exact (and_iff_left fun proceeds' => absurd proceeds' proceeds).symm

theorem Server.perform_requestHandler (server : Server) (connection : Connection)
    (req : Request) :
    (server.perform connection (.requestHandler req)).events =
        connection.events ++ (server.requestHandler connection.moment req).1 ∧
      (server.perform connection (.requestHandler req)).calls = connection.calls := by
  unfold Server.perform
  dsimp only
  split <;> exact ⟨rfl, rfl⟩

theorem Server.perform_dataCallback (server : Server) {connection : Connection} {streamId : Nat}
    {found : Option StreamCall} (is : connection.calls streamId = found) (data : Bytes)
    (endStream : Bool) :
    server.perform connection (.dataCallback streamId data endStream) =
      found.elim connection fun call =>
        connection.dataCallback streamId call data endStream := by
  unfold Server.perform
  dsimp only
  rw [is]
  cases found <;> rfl

theorem Sound.unseen (sound : Sound connection) (index : Nat) (progress : Progress Bool) :
    .intercepted connection.moment index progress ∉ connection.events :=
  fun member => Nat.lt_irrefl _ (sound.past _ _ _ member)

/-- A unary call keeps the invariant. -/
theorem Sound.requestHandler (sound : Sound connection) (req : Request) :
    Sound { server.perform connection (.requestHandler req) with
      moment := connection.moment + 1 } := by
  obtain ⟨events, calls⟩ := server.perform_requestHandler connection req
  have recent (call index : Nat) (progress : Progress Bool)
      (member : .intercepted call index progress ∈
        (server.requestHandler connection.moment req).1) : call = connection.moment := by
    rw [Server.requestHandler_events] at member
    split at member
    · cases member
    · rw [unaryEvents, List.mem_append] at member
      obtain early | late := member
      · obtain ⟨_, _, same⟩ := mem_interceptions early
        cases same
        rfl
      · split at late
        · cases List.mem_singleton.mp late
        · cases late
  constructor
  · intro call index progress member
    rw [show (server.perform connection (.requestHandler req)).events = _ from events,
      List.mem_append] at member
    obtain earlier | new := member
    · exact Nat.lt_succ_of_lt (sound.past _ _ _ earlier)
    · rw [recent _ _ _ new]
      exact Nat.lt_succ_self _
  · intro streamId call is
    rw [show (server.perform connection (.requestHandler req)).calls = _ from calls] at is
    obtain ⟨before, none⟩ := sound.streams streamId call is
    refine ⟨Nat.lt_succ_of_lt before, fun index progress member => ?_⟩
    rw [show (server.perform connection (.requestHandler req)).events = _ from events,
      List.mem_append] at member
    obtain earlier | new := member
    · exact none index progress earlier
    · exact Nat.ne_of_lt before (recent _ _ _ new)

theorem Sound.step (sound : Sound connection) (call : Call) :
    Sound (server.step connection call) := by
  unfold Server.step
  split
  · exact sound
  · cases call with
    | requestHandler req => exact sound.requestHandler req
    | requestStartHandler streamId req endStream =>
      exact sound.advances
        (server.advances_requestStartHandler connection streamId req endStream) (Or.inl rfl)
    | dataCallback streamId data endStream =>
      cases found : connection.calls streamId with
      | none =>
        rw [server.perform_dataCallback found]
        exact sound.advances (connection.advances_refl streamId _) (Or.inl rfl)
      | some stream =>
        rw [server.perform_dataCallback found]
        exact sound.advances (connection.advances_dataCallback streamId stream data endStream)
          (Or.inr ⟨stream, found, rfl⟩)

/-- A step keeps the gate if and only if it is safe. -/
theorem gated_step_iff (sound : Sound connection) (call : Call) :
    Gated server.interceptors.length (server.step connection call).events ↔
      Gated server.interceptors.length connection.events ∧ server.Safe connection call := by
  unfold Server.Safe
  by_cases empty : server.interceptors = []
  · have open' (events : List Event) : Gated server.interceptors.length events := by
      rw [empty]
      exact fun _ _ _ _ _ none => nomatch none
    exact iff_of_true (open' _) ⟨open' _, Or.inl empty⟩
  · have some : server.interceptors.length ≠ 0 := fun none =>
      empty (List.eq_nil_of_length_eq_zero none)
    rw [or_iff_right empty, Server.step]
    by_cases ended : connection.ended = true
    · rw [if_pos ended]
      exact (and_iff_left (Or.inl ended)).symm
    · rw [if_neg ended, or_iff_right ended]
      cases call with
      | requestHandler req =>
        show Gated _ (server.perform connection (.requestHandler req)).events ↔ _
        rw [(server.perform_requestHandler connection req).1, Server.requestHandler_events]
        cases reaches : server.unaryRequest req with
        | none =>
          rw [List.append_nil]
          refine (and_iff_left fun request same => ?_).symm
          rw [reaches] at same
          cases same
        | some request =>
          have length (proceeds : Proceeds (server.requestVerdicts connection.moment req request)) :
              (server.requestVerdicts connection.moment req request).length =
                server.interceptors.length := length_verdicts server.interceptors {} proceeds
          refine (gated_unary_iff length sound.unseen).trans (and_congr_right fun _ => ?_)
          refine ⟨fun passes request' same => ?_, fun all => all request reaches⟩
          rw [reaches] at same
          cases same
          exact passes
      | requestStartHandler streamId req endStream =>
        show Gated _ (server.requestStartHandler connection streamId req endStream).2.events ↔ _
        exact gated_advances_iff some
          (server.advances_requestStartHandler connection streamId req endStream) sound.unseen
      | dataCallback streamId data endStream =>
        show Gated _ (server.perform connection (.dataCallback streamId data endStream)).events ↔ _
        rw [server.perform_dataCallback rfl]
        cases found : connection.calls streamId with
        | none =>
          refine (and_iff_left fun call same => ?_).symm
          rw [found] at same
          cases same
        | some stream =>
          refine (gated_advances_iff some
            (connection.advances_dataCallback streamId stream data endStream)
            (sound.streams streamId stream found).2).trans (and_congr_right fun _ => ?_)
          refine ⟨fun quiet call same => ?_, fun all => all stream found⟩
          rw [found] at same
          cases same
          exact quiet

end Runs

/-- The gate holds on a connection. -/
def Server.Gates (server : Server) (connection : Connection) : Prop :=
  Gated server.interceptors.length connection.events

/-- In a run of a connection the interceptors gate every call if and only if every step is safe. -/
theorem Server.gates_run_iff (server : Server) (calls : List Call) :
    server.Gates (calls.foldl server.step {}) ↔ Throughout server.step server.Safe {} calls := by
  have start : Sound {} := ⟨nofun, nofun⟩
  have gates : server.Gates {} := by
    intro before call after split
    exact absurd split.symm (List.append_ne_nil_of_right_ne_nil _ (List.cons_ne_nil _ _))
  have stepwise (connection : Connection) (call : Call) (sound : Sound connection) :
      server.Gates (server.step connection call) ↔
        server.Gates connection ∧ server.Safe connection call := gated_step_iff sound call
  have exact' := foldl_iff_throughout (fun _ call sound => Sound.step sound call) stepwise calls
    {} start
  exact exact'.trans (and_iff_right gates)

/-- A server whose only interceptor rejects every call, with a method that streams to the client. -/
def closedServer : Server :=
  (({} : Server).registerServerStream (ascii "S") (ascii "M") fun _ _ => (.returned (), []))
    |>.addInterceptor fun _ _ _ rejection => (.returned false, rejection)

/-- A call of that method. -/
def streamRequest : Request :=
  { method := .post, path := ascii "/S/M", hdrs := [(ascii "content-type", contentType)] }

/-- The handler is started although the interceptor was never run. -/
theorem not_gates_closedServer :
    .started 0 ∈ (closedServer.step {} (.requestStartHandler 1 streamRequest true)).events ∧
      ¬ closedServer.Gates
        ([.requestStartHandler 1 streamRequest true].foldl closedServer.step {}) := by
  have events : (closedServer.step {} (.requestStartHandler 1 streamRequest true)).events =
      [.submitResponseHeaders 1 streamResponse] ++ .started 0 ::
        [.submitTrailers 1 (finishTrailers .ok [])] := by decide +kernel
  refine ⟨?_, fun gates => ?_⟩
  · rw [events]
    exact List.mem_append_right _ (List.mem_cons_self ..)
  · have before := gates [.submitResponseHeaders 1 streamResponse] 0 _ events 0 (by decide)
    cases List.mem_singleton.mp before

end AsyncNet.Grpc
