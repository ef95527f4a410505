/-
This file is about how often the handler of a streaming method is started for one stream. The
data callback of a stream keeps a flag so that its handler is started once. The start handler
sets the flag of a server stream when HEADERS end the stream, but not that of a client stream or a
bidirectional one, so a later frame that ends the stream starts the handler again. And each header
block that completes makes a new callback with a new flag and a new writer, or starts the handler
at once when the stream has ended.

A writer submits trailers once, and there is a writer for each start at most. So over a run a
stream has one start and one set of trailers at most if and only if no frame of the run, on a
stream with a handler that has been started, completes a header block of a streaming method
behind the end of the stream or takes the end of the stream to a callback without its flag.
-/

import AsyncNet.Grpc.Interceptors
import AsyncNet.Grpc.Serving

namespace AsyncNet.Grpc

open AsyncNet.Http AsyncNet.Http.H2 AsyncNet.Library

/-! ### Starts and trailers -/

def Event.isStart : Event → Bool
  | .started _ => true
  | _ => false

/-- Trailers on a stream. -/
def Event.isTrailers (streamId : Nat) : Event → Bool
  | .submitTrailers other _ => other = streamId
  | _ => false

/-- The stream that a call is about. -/
def Call.stream : Call → Option Nat
  | .requestHandler _ => none
  | .requestStartHandler streamId .. => some streamId
  | .dataCallback streamId .. => some streamId

/-- How many handlers the calls about a stream have started. -/
def Serving.starts (serving : Serving) (streamId : Nat) : Nat :=
  (serving.deeds.map fun deed =>
    if deed.1.stream = some streamId then deed.2.countP Event.isStart else 0).sum

/-- How many trailers have been submitted on a stream. -/
def Serving.trailers (serving : Serving) (streamId : Nat) : Nat :=
  serving.connection.events.countP (Event.isTrailers streamId)

/-- The handler of a stream has been started once at most, and its trailers have been submitted once
at most. -/
structure Serving.Once (streamId : Nat) (serving : Serving) : Prop where
  starts : serving.starts streamId ≤ 1
  trailers : serving.trailers streamId ≤ 1

/-- A frame that starts no handler: no header block of a streaming method completes behind the end
of its stream, and the end of a stream does not reach a data callback whose flag is not set, unless
the callback has nothing to call or throws before. -/
structure Server.StartsNone (server : Server) (serving : Serving) (f : Frame) : Prop where
  headers : ∀ req, completedRequest serving.session f = some (req, true) →
    (server.streamEntry req).any MethodEntry.starts = false
  data : ∀ data call, broughtData serving.session f = some (data, true) →
    serving.connection.calls f.hdr.streamId = some call →
      call.launched = true ∨ call.entry.starts = false ∨ call.takes data = false

/-- A frame that starts no handler for a stream that has had one started. -/
def Server.SparesStarted (server : Server) (streamId : Nat) (serving : Serving) (f : Frame) :
    Prop :=
  serving.session.alive = true → serving.connection.ended = false →
    f.hdr.streamId = streamId → 0 < serving.starts streamId → server.StartsNone serving f

/-! ### What a call does -/

section Trailers

variable (connection : Connection) (streamId other : Nat)

/-- Trailers that can be submitted on a stream, if a handler of a stream is started. -/
def allowance (streamId other : Nat) (starts : Bool) : Nat :=
  if other = streamId ∧ starts = true then 1 else 0

@[simp] theorem allowance_false : allowance streamId other false = 0 :=
  if_neg fun both => Bool.false_ne_true both.2

/-- A writer submits trailers once. -/
theorem countP_runWriter (finished : Bool) (calls : List WriterCall) :
    (runWriter streamId finished calls).2.countP (Event.isTrailers other) ≤
      allowance streamId other true := by
  have done (calls : List WriterCall) :
      (runWriter streamId true calls).2.countP (Event.isTrailers other) = 0 := by
    induction calls with
    | nil => rfl
    | cons call calls inductionHypothesis => exact inductionHypothesis
  induction calls generalizing finished with
  | nil => cases finished <;> exact Nat.zero_le _
  | cons call calls inductionHypothesis =>
    cases finished with
    | true => exact inductionHypothesis true
    | false =>
      cases call with
      | write message => exact inductionHypothesis false
      | finish code message =>
        show List.countP _ (.submitTrailers streamId _ :: (runWriter streamId true calls).2) ≤ _
        rw [List.countP_cons, done, Nat.zero_add]
        split
        · rename_i submits
          have here : other = streamId := (of_decide_eq_true submits).symm
          rw [allowance, if_pos ⟨here, rfl⟩]
        · exact Nat.zero_le _

/-- From one state of the server to a later one, the trailers that have been submitted are those
that the start of a handler of a stream allows. -/
def Trails (streamId : Nat) (starts : Bool) (before after : Connection) : Prop :=
  ∀ other, after.events.countP (Event.isTrailers other) ≤
    before.events.countP (Event.isTrailers other) + allowance streamId other starts

theorem trails_of_events {starts : Bool} {before after : Connection}
    (same : after.events = before.events) : Trails streamId starts before after := by
  intro other
  rw [same]
  exact Nat.le_add_right _ _

theorem trails_record {starts : Bool} (events : List Event)
    (few : ∀ other, events.countP (Event.isTrailers other) ≤ allowance streamId other starts) :
    Trails streamId starts connection (connection.record events) := by
  intro other
  show (connection.events ++ events).countP _ ≤ _
  rw [List.countP_append]
  exact Nat.add_le_add_left (few other) _

theorem trails_startWriting (call : StreamCall) (run : Progress Unit × List WriterCall) :
    Trails streamId true connection (connection.startWriting streamId call run) :=
  trails_record connection streamId (.started call.began :: _) fun other =>
    countP_runWriter streamId other call.finished _

theorem trails_startReading (call : StreamCall) (progress : Progress Bytes) :
    Trails streamId true connection (connection.startReading streamId call progress) := by
  unfold Connection.startReading
  cases progress with
  | suspended => exact trails_record _ streamId [.started call.began] fun _ => Nat.zero_le _
  | threw what => exact trails_record _ streamId [.started call.began] fun _ => Nat.zero_le _
  | returned result =>
    exact trails_record _ streamId (.started call.began :: .submitData streamId _ false :: _)
      fun other => countP_runWriter streamId other call.finished _

theorem trails_start (call : StreamCall) (request : Bytes) :
    Trails streamId call.entry.starts connection (connection.start streamId call request) := by
  unfold Connection.start
  cases call.entry with
  | serverStream handler => exact trails_startWriting connection streamId call _
  | clientStream handler => exact trails_startReading connection streamId call _
  | bidiStream handler => exact trails_startWriting connection streamId call _
  | _ => exact trails_of_events streamId rfl

variable {connection streamId}

theorem Connection.Comes.trails {after : Connection} {began : Nat} {starts : Bool}
    (comes : connection.Comes streamId began starts after) :
    Trails streamId starts connection after := by
  induction comes with
  | starts call request same => exact trails_start connection streamId call request
  | keeps call same => exact trails_of_events streamId rfl
  | nothing => exact trails_of_events streamId rfl
  | throws comes inductionHypothesis => exact inductionHypothesis

theorem trails_requestStartHandler (server : Server) (req : Request) (endStream : Bool) :
    Trails streamId (server.startsNow req endStream) connection
      (server.requestStartHandler connection streamId req endStream).2 := by
  obtain ⟨same, none⟩ | comes := server.comes_requestStartHandler connection streamId req endStream
  · rw [same]
    exact trails_of_events streamId rfl
  · intro other
    have answered : Trails streamId false connection
        (connection.record [.submitResponseHeaders streamId streamResponse]) :=
      trails_record connection streamId _ fun _ => Nat.zero_le _
    refine (comes.trails other).trans (Nat.add_le_add_right ?_ _)
    exact (answered other).trans (by rw [allowance_false]; exact le_rfl)

end Trailers

section Starts

variable {connection after : Connection}

theorem countP_submits {events : List Event} (submits : Submits events) :
    events.countP Event.isStart = 0 := by
  rw [List.countP_eq_zero]
  intro event member start
  have submit := submits event member
  cases event with
  | started call => cases submit
  | _ => cases start

/-- A stream that goes on has its handler started once at most. -/
theorem Advances.countP {streamId began : Nat} {starts : Bool}
    (advances : Advances connection after streamId began starts) :
    (after.events.drop connection.events.length).countP Event.isStart =
      if starts then 1 else 0 := by
  obtain ⟨front, back, first, last, events⟩ := advances.events
  rw [events, List.drop_left, List.countP_append, countP_submits first, Nat.zero_add]
  cases starts with
  | false => exact countP_submits last
  | true => exact (List.countP_cons_of_pos rfl).trans (congrArg Nat.succ (countP_submits last))

end Starts

/-- Whether a call of the session starts the handler of a stream. -/
def Server.launches (server : Server) (connection : Connection) : Call → Bool
  | .requestHandler _ => false
  | .requestStartHandler _ req endStream => server.startsNow req endStream
  | .dataCallback streamId data endStream =>
      (connection.calls streamId).any fun call => call.startsWith data endStream

section Calls

variable (server : Server) (connection : Connection)

/-- The request handler submits no trailers of its own. -/
theorem trails_requestHandler (streamId : Nat) (req : Request) :
    Trails streamId false connection (server.perform connection (.requestHandler req)) := by
  intro other
  rw [(server.perform_requestHandler connection req).1, List.countP_append, allowance_false]
  refine Nat.le_of_eq (congrArg _ (List.countP_eq_zero.mpr fun event member trailers => ?_))
  rw [Server.requestHandler_events] at member
  split at member
  · cases member
  · rw [unaryEvents, List.mem_append] at member
    obtain early | late := member
    · obtain ⟨_, _, rfl⟩ := mem_interceptions early
      cases trailers
    · split at late
      · rw [List.mem_singleton.mp late] at trailers
        cases trailers
      · cases late

/-- A call about a stream starts a handler if it launches one, and submits trailers on that stream
alone. -/
theorem perform_counts (call : Call) {streamId : Nat} (about : call.stream = some streamId) :
    ((server.perform connection call).events.drop connection.events.length).countP
        Event.isStart = (if server.launches connection call then 1 else 0) ∧
      Trails streamId (server.launches connection call) connection
        (server.perform connection call) := by
  cases call with
  | requestHandler req => cases about
  | requestStartHandler other req endStream =>
    cases about
    exact ⟨(server.advances_requestStartHandler connection streamId req endStream).countP,
      trails_requestStartHandler server req endStream⟩
  | dataCallback other data endStream =>
    cases about
    have launches (found : Option StreamCall) (is : connection.calls streamId = found) :
        server.launches connection (.dataCallback streamId data endStream) =
          found.any fun call => call.startsWith data endStream := by
      rw [Server.launches, is]
    cases found : connection.calls streamId with
    | none =>
      rw [launches none found, server.perform_dataCallback found]
      exact ⟨(connection.advances_refl streamId 0).countP, trails_of_events streamId rfl⟩
    | some call =>
      rw [launches (some call) found, server.perform_dataCallback found]
      exact ⟨(connection.advances_dataCallback streamId call data endStream).countP,
        (connection.comes_dataCallback streamId call data endStream).trails⟩

/-- A call that is not about a stream submits no trailers on it. -/
theorem perform_other (call : Call) {streamId : Nat} (different : call.stream ≠ some streamId) :
    (server.perform connection call).events.countP (Event.isTrailers streamId) ≤
      connection.events.countP (Event.isTrailers streamId) := by
  cases about : call.stream with
  | none =>
    cases call with
    | requestHandler req =>
      have kept := trails_requestHandler server connection streamId req streamId
      rw [allowance_false] at kept
      exact kept
    | requestStartHandler other req endStream => cases about
    | dataCallback other data endStream => cases about
  | some other =>
    have kept := (perform_counts server connection call about).2 streamId
    rw [allowance, if_neg] at kept
    · exact kept
    · rintro ⟨rfl, -⟩
      exact different about

/-- What a call of the session adds to the starts of a stream: one, if it launches a handler. -/
def Server.added (server : Server) (streamId : Nat) (serving : Serving) (call : Call) : Nat :=
  if serving.connection.ended = false ∧ call.stream = some streamId ∧
      server.launches serving.connection call = true then 1
  else 0

theorem serve_counts (serving : Serving) (call : Call) (streamId : Nat) :
    (server.serve serving call).starts streamId =
        serving.starts streamId + server.added streamId serving call ∧
      (server.serve serving call).trailers streamId ≤
        serving.trailers streamId + server.added streamId serving call := by
  have starts : (server.serve serving call).starts streamId = serving.starts streamId +
      if call.stream = some streamId then
        ((server.step serving.connection call).events.drop
          serving.connection.events.length).countP Event.isStart
      else 0 := by
    unfold Serving.starts Server.serve
    rw [List.map_append, List.sum_append]
    exact congrArg _ (Nat.add_zero _)
  have trailers : (server.serve serving call).trailers streamId =
      (server.step serving.connection call).events.countP (Event.isTrailers streamId) := rfl
  rw [starts, trailers]
  by_cases ended : serving.connection.ended = true
  · have same : server.step serving.connection call = serving.connection := if_pos ended
    have added : server.added streamId serving call = 0 :=
      if_neg fun all => Bool.false_ne_true (all.1.symm.trans ended)
    rw [same, added, List.drop_length]
    exact ⟨congrArg _ (ite_self 0), le_rfl⟩
  · have events : (server.step serving.connection call).events =
        (server.perform serving.connection call).events := by
      rw [Server.step, if_neg ended]
    have going := Bool.eq_false_of_not_eq_true ended
    rw [events]
    by_cases about : call.stream = some streamId
    · obtain ⟨started, trails⟩ := perform_counts server serving.connection call about
      have added : server.added streamId serving call =
          if server.launches serving.connection call then 1 else 0 :=
        if_congr ((and_iff_right going).trans (and_iff_right about)) rfl rfl
      have allowed : allowance streamId streamId (server.launches serving.connection call) =
          if server.launches serving.connection call then 1 else 0 :=
        if_congr (and_iff_right rfl) rfl rfl
      have few := trails streamId
      rw [allowed] at few
      rw [if_pos about, started, added]
      exact ⟨rfl, few⟩
    · have added : server.added streamId serving call = 0 := if_neg fun all => about all.2.1
      rw [if_neg about, added]
      exact ⟨rfl, perform_other server serving.connection call about⟩

/-- What is handed to the request handler adds nothing. -/
theorem serve_answers (answers : List Call) (isAnswers : Answers answers) (serving : Serving)
    (streamId : Nat) :
    (answers.foldl server.serve serving).starts streamId = serving.starts streamId ∧
      (answers.foldl server.serve serving).trailers streamId ≤ serving.trailers streamId := by
  induction answers generalizing serving with
  | nil => exact ⟨rfl, le_rfl⟩
  | cons call answers inductionHypothesis =>
    obtain ⟨⟨req, rfl⟩, rest⟩ := List.forall_mem_cons.mp isAnswers
    have added : server.added streamId serving (.requestHandler req) = 0 :=
      if_neg fun all => by cases all.2.1
    obtain ⟨starts, trailers⟩ := serve_counts server serving (.requestHandler req) streamId
    rw [added] at starts trailers
    obtain ⟨later, fewer⟩ := inductionHypothesis rest (server.serve serving (.requestHandler req))
    exact ⟨later.trans starts, fewer.trans trailers⟩

end Calls

/-! ### What a frame does -/

theorem stream_streamCall {session : Http.Connection} {f : Frame} {call : Call}
    (called : streamCall session f = some call) : call.stream = some f.hdr.streamId := by
  unfold streamCall at called
  split at called
  · cases called
    rfl
  · obtain ⟨_, _, rfl⟩ := Option.map_eq_some_iff.mp called
    rfl

theorem startsWith_eq_false (call : StreamCall) (data : Bytes) :
    call.startsWith data true = false ↔
      call.launched = true ∨ call.entry.starts = false ∨ call.takes data = false := by
  unfold StreamCall.startsWith
  cases call.launched <;> cases call.entry.starts <;> cases call.takes data <;> decide

/-- A frame starts no handler if and only if the function that it calls does not. -/
theorem startsNone_iff (server : Server) (serving : Serving) (f : Frame) :
    server.StartsNone serving f ↔ ∀ call, streamCall serving.session f = some call →
      server.launches serving.connection call = false := by
  cases completed : completedRequest serving.session f with
  | some found =>
    obtain ⟨req, endStream⟩ := found
    have brought : broughtData serving.session f = none := by
      refine broughtData_of_completed serving.session f fun incomplete => ?_
      unfold completedRequest at completed
      rw [incomplete] at completed
      cases completed
    have called : streamCall serving.session f =
        some (.requestStartHandler f.hdr.streamId req endStream) := by
      unfold streamCall
      rw [completed]
    constructor
    · rintro ⟨headers, _⟩ call same
      cases called.symm.trans same
      cases endStream with
      | false => rfl
      | true => exact headers req completed
    · intro all
      refine ⟨fun req' same => ?_, fun data call same => ?_⟩
      · cases completed.symm.trans same
        exact all _ called
      · rw [brought] at same
        cases same
  | none =>
    have called : streamCall serving.session f = (broughtData serving.session f).map
        fun brought => .dataCallback f.hdr.streamId brought.1 brought.2 := by
      unfold streamCall
      rw [completed]
    constructor
    · rintro ⟨_, told⟩ call same
      rw [called] at same
      obtain ⟨⟨data, endStream⟩, brought, rfl⟩ := Option.map_eq_some_iff.mp same
      unfold Server.launches
      dsimp only
      cases found : serving.connection.calls f.hdr.streamId with
      | none => rfl
      | some call =>
        cases endStream with
        | false => rfl
        | true => exact (startsWith_eq_false call data).mpr (told data call brought found)
    · intro all
      refine ⟨fun req same => ?_, fun data call same found => ?_⟩
      · rw [completed] at same
        cases same
      · have none := all (.dataCallback f.hdr.streamId data true) (by rw [called, same]; rfl)
        rw [Server.launches, found] at none
        exact (startsWith_eq_false call data).mp none

/-- A frame adds a start and the trailers that go with it, or none. -/
theorem receive_counts (server : Server) (serving : Serving) (f : Frame) (streamId : Nat) :
    ∃ added ≤ 1, (server.receive serving f).starts streamId = serving.starts streamId + added ∧
      (server.receive serving f).trailers streamId ≤ serving.trailers streamId + added ∧
      (added = 0 ↔ (serving.session.alive = true → serving.connection.ended = false →
        f.hdr.streamId = streamId → server.StartsNone serving f)) := by
  rw [startsNone_iff]
  unfold Server.receive
  by_cases finished : serving.session.alive = false ∨ serving.connection.ended = true
  · rw [if_pos finished]
    refine ⟨0, Nat.zero_le 1, rfl, le_rfl, iff_of_true rfl fun alive going => ?_⟩
    obtain dead | ended := finished
    · cases alive.symm.trans dead
    · cases going.symm.trans ended
  · rw [if_neg finished]
    obtain ⟨living, unended⟩ := not_or.mp finished
    have alive := Bool.eq_true_of_not_eq_false living
    have going := Bool.eq_false_of_not_eq_true unended
    have follows : Follows serving.current f (serving.current.processFrame
        (server.config serving.connection f) f) := follows_processFrame rfl rfl
    unfold Follows at follows
    rw [streamCall_current] at follows
    cases processed : serving.current.processFrame (server.config serving.connection f) f with
    | error fault =>
      rw [processed] at follows
      refine ⟨0, Nat.zero_le 1, rfl, le_rfl, iff_of_true rfl fun _ _ _ call called => ?_⟩
      cases follows.symm.trans called
    | ok session =>
      rw [processed] at follows
      obtain ⟨answers, isAnswers, made⟩ := follows
      have made : callsOf session.events = callsOf serving.session.events ++
        ((streamCall serving.session f).toList ++ answers) := made
      dsimp only
      rw [made, List.drop_left, List.foldl_append]
      set next : Serving := { serving with session }
      cases called : streamCall serving.session f with
      | none =>
        obtain ⟨starts, trailers⟩ := serve_answers server answers isAnswers next streamId
        refine ⟨0, Nat.zero_le 1, starts, trailers, iff_of_true rfl fun _ _ _ call wrong => ?_⟩
        cases wrong
      | some call =>
        obtain ⟨starts, trailers⟩ := serve_counts server next call streamId
        obtain ⟨same, fewer⟩ := serve_answers server answers isAnswers (server.serve next call)
          streamId
        refine ⟨server.added streamId next call, ?_, same.trans starts, fewer.trans trailers, ?_⟩
        · unfold Server.added
          split <;> decide
        · have about := stream_streamCall called
          unfold Server.added
          constructor
          · intro none _ _ here other same
            cases same
            refine Bool.eq_false_of_not_eq_true fun launches => ?_
            rw [if_pos ⟨going, about.trans (congrArg some here), launches⟩] at none
            cases none
          · intro all
            refine if_neg fun ⟨_, stream, launches⟩ => ?_
            have here : f.hdr.streamId = streamId := Option.some.inj (about.symm.trans stream)
            cases (all alive going here call rfl).symm.trans launches

/-- Over a run of frames, the handler of a stream is started once at most, and its trailers are
submitted once at most, if and only if each frame spares the stream once its handler has been
started. -/
theorem Server.once_iff (server : Server) (streamId : Nat) (frames : List Frame) :
    (frames.foldl server.receive {}).Once streamId ↔
      Throughout server.receive (server.SparesStarted streamId) {} frames := by
  have sound (serving : Serving) (f : Frame)
      (fewer : serving.trailers streamId ≤ serving.starts streamId) :
      (server.receive serving f).trailers streamId ≤
        (server.receive serving f).starts streamId := by
    obtain ⟨added, -, starts, trailers, -⟩ := receive_counts server serving f streamId
    rw [starts]
    exact trailers.trans (Nat.add_le_add_right fewer added)
  have once (serving : Serving) (fewer : serving.trailers streamId ≤ serving.starts streamId) :
      serving.Once streamId ↔ serving.starts streamId ≤ 1 :=
    ⟨fun once => once.starts, fun starts => ⟨starts, fewer.trans starts⟩⟩
  have stepwise (serving : Serving) (f : Frame)
      (fewer : serving.trailers streamId ≤ serving.starts streamId) :
      (server.receive serving f).Once streamId ↔
        serving.Once streamId ∧ server.SparesStarted streamId serving f := by
    rw [once _ (sound serving f fewer), once _ fewer]
    obtain ⟨added, one, starts, -, exact'⟩ := receive_counts server serving f streamId
    have spares : server.SparesStarted streamId serving f ↔
        (0 < serving.starts streamId → added = 0) :=
      ⟨fun spares started => exact'.mpr fun alive going here => spares alive going here started,
        fun none alive going here started => exact'.mp (none started) alive going here⟩
    rw [starts, spares]
    constructor
    · intro few
      exact ⟨by omega, fun started => by omega⟩
    · rintro ⟨few, none⟩
      obtain unstarted | started := Nat.eq_zero_or_pos (serving.starts streamId)
      · rw [unstarted, Nat.zero_add]
        exact one
      · rw [none started]
        exact few
  have start : ({} : Serving).Once streamId := ⟨Nat.zero_le 1, Nat.zero_le 1⟩
  exact (foldl_iff_throughout (fun serving f => sound serving f) stepwise frames {} le_rfl).trans
    (and_iff_right start)

/-- A server with a method that streams from the client, and answers with nothing. -/
def uploadServer : Server :=
  ({} : Server).registerClientStream (ascii "S") (ascii "M") fun _ _ => .returned []

/-- HEADERS of a call of that method. -/
def uploadHeaders (flags : UInt8) : Frame :=
  .ofPayload .headers (Flag.endHeaders ||| flags) 1
    ([0x83, 0x04, 0x04] ++ ascii "/S/M" ++ [0x0f, 0x10, 0x10] ++ contentType)

/-- HEADERS that end the stream start the handler, and DATA that ends it starts the handler again.
Where HEADERS follow DATA that has ended the stream and more DATA follows, the trailers are
submitted twice as well. -/
theorem not_once_uploadServer :
    (([uploadHeaders Flag.endStream, .ofPayload .data Flag.endStream 1 []].foldl
        uploadServer.receive {}).starts 1 = 2 ∧
      ([uploadHeaders 0, .ofPayload .data Flag.endStream 1 [], uploadHeaders 0,
        .ofPayload .data Flag.endStream 1 []].foldl uploadServer.receive {}).trailers 1 = 2) ∧
      ¬ ([uploadHeaders Flag.endStream, .ofPayload .data Flag.endStream 1 []].foldl
        uploadServer.receive {}).Once 1 := by
  have twice : ([uploadHeaders Flag.endStream, .ofPayload .data Flag.endStream 1 []].foldl
      uploadServer.receive {}).starts 1 = 2 := by decide +kernel
  refine ⟨⟨twice, by decide +kernel⟩, fun once => ?_⟩
  have few := once.starts
  rw [twice] at few
  exact absurd few (by decide)

/-- A call as a channel makes it. -/
example :
    let serving := [uploadHeaders 0, .ofPayload .data 0 1 (encodeGrpcMessage [7]),
      .ofPayload .data Flag.endStream 1 []].foldl uploadServer.receive {}
    serving.starts 1 = 1 ∧ serving.trailers 1 = 1 := by decide +kernel

end AsyncNet.Grpc
