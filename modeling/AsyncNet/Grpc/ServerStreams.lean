/-
This file is about calls whose responses are streams of messages, from the writers of a server to
the callbacks of a client: `channel::server_stream_call` of `src/grpc/grpc_channel.cpp` at one end
and the writers of `src/grpc/grpc_stream.cpp` at the other. Any number of calls share a session.
The writers are called in any order, the session of the server answers in between what it has
received, and the bytes reach the client in pieces of any size.

The callback of a call is given the messages of its own writer, in their order, and none that was
not written. When the promise of the call is complete, all of them have come, and the call returns
the status with which the writer was finished.
-/

import AsyncNet.Grpc.StreamingServer

namespace AsyncNet.Grpc

open AsyncNet.Http AsyncNet.Http.H2 AsyncNet.Library

/-! ### Calls -/

/-- The arguments of `server_stream_call`, but for the callback. -/
structure ServerStreamCall where
  service : Bytes
  method : Bytes
  requestData : Bytes

def ServerStreamCall.toRequest (call : ServerStreamCall) (host : Bytes) : Request :=
  makeGrpcRequest host (makePath call.service call.method) (encodeGrpcMessage call.requestData)

/-- `server_stream_call` until it waits: what it does to the session, unless it returns at once. -/
def Channel.serverStreamCall (channel : Channel) (call : ServerStreamCall)
    (connection : Http.Connection) : Except Status Http.Connection :=
  if channel.connected = false then .error ⟨.unavailable, ascii "Channel not connected"⟩
  else .ok (submitStreamCall connection (call.toRequest channel.host))

/-- `server_stream_call` from the completion of its promise on. -/
def serverStreamStatus (promise : ResponsePromise) : Status :=
  if promise.error then ⟨.internal, ascii "Request error"⟩ else extractGrpcStatus promise.resp

/-- The writer of a stream, with what it has been given. -/
structure Writer where
  messages : List Bytes := []
  status : Option Status := none

/-- A call on a writer. Once it is finished, it takes nothing more. -/
def Writer.take (writer : Writer) (call : WriterCall) : Writer :=
  if writer.status.isSome then writer
  else
    match call with
    | .write message => { writer with messages := writer.messages ++ [message] }
    | .finish code message => { writer with status := some ⟨code, message⟩ }

/-- The stage to which a writer has brought its stream. -/
def Writer.stage (writer : Writer) : StreamStage :=
  match writer.status with
  | none => .streaming
  | some status => .done (statusTrailers status)

def Writer.bytes (writer : Writer) : Bytes := writer.messages.flatMap encodeGrpcMessage

/-! ### A client and the writers of a server -/

/-- The session of a client, the session of a server with the writers of its streams, and the bytes
on their way to the client. So many streams have been started. -/
structure Streams where
  client : Session := Session.create .client
  server : Http.Connection := .create .server
  writers : Nat → Option Writer := fun _ => none
  started : Nat := 0
  toClient : Bytes := []

namespace Streams

/-- What can happen: a call is made, the start handler takes the next request, a writer is called,
the session of the server answers a frame, it hands over its output, or bytes arrive. -/
inductive Step where
  | call (call : ServerStreamCall)
  | start
  | write (sid : Nat) (call : WriterCall)
  | reply (f : Frame)
  | flush
  | deliver (count : Nat)

def makeCall (streams : Streams) (channel : Channel) (call : ServerStreamCall) : Streams :=
  match channel.serverStreamCall call streams.client.connection with
  | .error _ => streams
  | .ok connection => { streams with client := { streams.client with connection } }

/-- Requests come in the order of the calls. -/
def startNext (streams : Streams) : Streams :=
  let sid := 2 * streams.started + 1
  if sid < streams.client.connection.nextStreamId then
    { streams with
      server := streams.server.command (.submitResponseHeaders sid streamResponse)
      writers := Function.update streams.writers sid (some {})
      started := streams.started + 1 }
  else streams

def callWriter (streams : Streams) (sid : Nat) (call : WriterCall) : Streams :=
  match streams.writers sid with
  | none => streams
  | some writer =>
      let events := (runWriter sid writer.status.isSome [call]).2
      { streams with
        server := streams.server.commands (events.filterMap Event.command)
        writers := Function.update streams.writers sid (some (writer.take call)) }

def step (channel : Channel) (streams : Streams) : Step → Except Fault Streams
  | .call call => .ok (streams.makeCall channel call)
  | .start => .ok streams.startNext
  | .write sid call => .ok (streams.callWriter sid call)
  | .reply f => .ok { streams with server := streams.server.enqueue f.wire }
  | .flush =>
      .ok { streams with
        server := streams.server.command .getPendingOutput
        toClient := streams.toClient ++ streams.server.outputBuf }
  | .deliver count => do
      let client ← streams.client.feed (streams.toClient.take count)
      return { streams with client, toClient := streams.toClient.drop count }

/-- The frames with which the session of the server answers in a run. -/
def replies (steps : List Step) : List Frame :=
  steps.filterMap fun step =>
    match step with
    | .reply f => some f
    | _ => none

def isCall : Step → Bool
  | .call _ => true
  | _ => false

/-- Not too many calls are made, and what is written can be sent. The session of the server answers
with frames of the connection, and its credit lets no send window overflow. -/
structure Orderly (steps : List Step) : Prop where
  few : steps.countP isCall < 2 ^ 30
  small : ∀ sid message, .write sid (.write message) ∈ steps → message.length < 2 ^ 32 - 5
  tellable : ∀ sid code message, .write sid (.finish code message) ∈ steps →
    Tellable ⟨code, message⟩
  controls : ∀ f, .reply f ∈ steps → IsControl f
  credit : ∀ scope, 65535 + credits scope (replies steps) ≤ maxWindowSize

theorem Orderly.of_append {steps more : List Step} (orderly : Orderly (steps ++ more)) :
    Orderly steps where
  few := by
    have few := orderly.few
    rw [List.countP_append] at few
    omega
  small := fun sid message member =>
    orderly.small sid message (List.mem_append_left more member)
  tellable := fun sid code message member =>
    orderly.tellable sid code message (List.mem_append_left more member)
  controls := fun f member => orderly.controls f (List.mem_append_left more member)
  credit := fun scope => by
    have credit := orderly.credit scope
    rw [replies, List.filterMap_append, credits_append] at credit
    exact le_trans (Nat.add_le_add_left (Nat.le_add_right _ _) 65535) credit

/-! ### What the client has heard -/

/-- What the callback of a stream has been given, call by call. -/
def piecesOf (sid : Nat) (calls : List Call) : List Bytes :=
  calls.filterMap fun call =>
    match call with
    | .dataCallback streamId data _ => if streamId = sid then some data else none
    | _ => none

/-- The callback of a stream feeds a deframer, which calls `on_message`. -/
def received (streams : Streams) (sid : Nat) : Except Fault StreamDeframer :=
  (piecesOf sid (callsOf streams.client.connection.events)).foldlM StreamDeframer.feed
    { onMsg := true }

/-- The promise of a call. -/
def promise (streams : Streams) (sid : Nat) : ResponsePromise :=
  streams.client.connection.promises (.caller sid)

/-- The writer of a stream. One that has not been started has been given nothing. -/
def writer (streams : Streams) (sid : Nat) : Writer := (streams.writers sid).getD {}

/-- The callback has been given the first messages of the writer. A call that has returned has been
given all of them, and its status. -/
def Follows (streams : Streams) (sid : Nat) : Prop :=
  ∃ deframer, streams.received sid = .ok deframer ∧
    deframer.passed <+: (streams.writer sid).messages ∧
    ((streams.promise sid).complete = true →
      deframer.passed = (streams.writer sid).messages ∧
        (streams.writer sid).status = some (serverStreamStatus (streams.promise sid)))

/-- The callback has been given all messages of the writer. If that is finished, the call has
returned. -/
def Settled (streams : Streams) (sid : Nat) : Prop :=
  ∃ deframer, streams.received sid = .ok deframer ∧
    deframer.passed = (streams.writer sid).messages ∧
    ∀ status, (streams.writer sid).status = some status →
      (streams.promise sid).complete = true ∧ serverStreamStatus (streams.promise sid) = status

/-! ### A client that reads -/

/-- What a client has heard and what it has still to read make up what was written: with the frames
to come its streams reach the given stages, and the data of every stream is complete. -/
structure Reads (target : Nat → StreamStage) (written : Nat → Bytes) (limit : Nat → Nat)
    (next : Nat) (connection : Http.Connection) (frames : List Frame) : Prop where
  stages : ∃ stages, Listens stages connection ∧
    Interleaved frameStream StreamStep stages frames target
  aside : ∀ f ∈ frames, frameStream f = none → IsControl f
  heard : ∀ sid, (piecesOf sid (callsOf connection.events)).flatten ++ dataOf sid frames =
    written sid
  credit : ∀ scope, connection.sendWindowOf scope + (credits scope frames : Int) ≤ limit scope
  nextStreamId : connection.nextStreamId = next

section Reading

variable {target : Nat → StreamStage} {written : Nat → Bytes} {limit : Nat → Nat} {next : Nat}
  {connection : Http.Connection} {f : Frame} {frames : List Frame}

theorem piecesOf_append (sid : Nat) (calls more : List Call) :
    piecesOf sid (calls ++ more) = piecesOf sid calls ++ piecesOf sid more :=
  List.filterMap_append

theorem piecesOf_singleton (sid streamId : Nat) (data : Bytes) (endStream : Bool) :
    piecesOf sid [.dataCallback streamId data endStream] =
      if streamId = sid then [data] else [] := by
  by_cases own : streamId = sid
  · rw [if_pos own]
    exact List.filterMap_cons_some (if_pos own)
  · rw [if_neg own]
    exact List.filterMap_cons_none (if_neg own)

/-- What a frame brings to a callback is the data that it carries. -/
theorem flatten_heard {sid : Nat} {before stage : StreamStage}
    (taken : StreamStep sid before f stage) (other : Nat) :
    (piecesOf other (heard f)).flatten = dataOf other [f] := by
  rw [dataOf, List.flatMap_singleton]
  cases taken with
  | headers begins decodes =>
    rw [heard, begins.type]
    dsimp only
    rw [begins.endStream, if_neg Bool.false_ne_true]
    exact (if_neg fun both => FrameType.noConfusion both.1).symm
  | data isData =>
    rw [heard, isData.type, isData.streamId]
    dsimp only
    rw [piecesOf_singleton]
    by_cases own : sid = other
    · rw [if_pos own, if_pos ⟨rfl, own⟩, List.flatten_singleton]
    · rw [if_neg own, if_neg fun both => own both.2, List.flatten_nil]
  | trailers begins decodes =>
    rw [heard, begins.type]
    dsimp only
    rw [begins.endStream, if_pos rfl, piecesOf_singleton,
      if_neg fun both : FrameType.headers = .data ∧ _ => FrameType.noConfusion both.1]
    split <;> rfl

/-- A client takes the next frame. -/
theorem Reads.receive (few : next ≤ 2 ^ 31) (small : ∀ scope, limit scope ≤ maxWindowSize)
    (reads : Reads target written limit next connection (f :: frames)) :
    ∃ (after : Http.Connection) (replies : List Frame),
      connection.processFrame Http.Connection.clientConfig f = .ok after ∧
      after.outputBuf = connection.outputBuf ++ replies.flatMap Frame.wire ∧
      (∀ reply ∈ replies, reply.Proper) ∧ Reads target written limit next after frames := by
  obtain ⟨stages, listens, interleaved⟩ := reads.stages
  have aside : ∀ g ∈ frames, frameStream g = none → IsControl g := fun g member =>
    reads.aside g (List.mem_cons_of_mem f member)
  have credit {replies : List Frame} {after : Http.Connection}
      (receipt : Http.Connection.Receipt f replies connection after) (scope : Nat) :
      after.sendWindowOf scope + (credits scope frames : Int) ≤ limit scope := by
    have before := reads.credit scope
    have grown := receipt.sendWindow scope
    rw [credits_cons] at before
    push_cast at before
    omega
  have split (sid : Nat) : dataOf sid (f :: frames) = dataOf sid [f] ++ dataOf sid frames :=
    dataOf_append sid [f] frames
  cases interleaved with
  | aside none later =>
    have room (scope : Nat) :
        connection.sendWindowOf scope + (f.credit scope : Int) ≤ maxWindowSize := by
      have before := reads.credit scope
      have bound := small scope
      rw [credits_cons] at before
      push_cast at before
      omega
    obtain ⟨after, replies, run, -, receipt, makes, listens'⟩ :=
      listens.administer (reads.aside f List.mem_cons_self none) room
    refine ⟨after, replies, run, receipt.outputBuf, receipt.proper, ⟨stages, listens', later⟩,
      aside, fun sid => ?_, credit receipt, receipt.nextStreamId.trans reads.nextStreamId⟩
    have before := reads.heard sid
    rw [split, dataOf_eq_nil fun g member => by
      rw [List.mem_singleton.mp member, none]
      exact nofun] at before
    rw [makes, List.append_nil]
    exact before
  | @cons _ _ _ _ sid stage own taken later =>
    obtain ⟨after, run, hears, listens'⟩ := listens.hear (reads.nextStreamId ▸ few) taken
    obtain ⟨replies, -, receipt⟩ := hears.receipt
    refine ⟨after, replies, run, receipt.outputBuf, receipt.proper, ⟨_, listens', later⟩, aside,
      fun other => ?_, credit receipt, receipt.nextStreamId.trans reads.nextStreamId⟩
    have before := reads.heard other
    rw [split, ← flatten_heard taken other] at before
    rw [hears.makes, piecesOf_append, List.flatten_append, List.append_assoc]
    exact before

/-- More frames are sent on a stream. -/
theorem Reads.emit {sid : Nat} {stage : StreamStage} {more : List Frame}
    (reads : Reads target written limit next connection frames)
    (run : Run (StreamStep sid) (target sid) more stage)
    (own : ∀ g ∈ more, frameStream g = some sid) :
    Reads (Function.update target sid stage)
      (Function.update written sid (written sid ++ dataOf sid more)) limit next connection
      (frames ++ more) where
  stages := by
    obtain ⟨stages, listens, interleaved⟩ := reads.stages
    exact ⟨stages, listens, interleaved.append (interleaved_of_run run own target rfl)⟩
  aside := fun g member none => by
    rcases List.mem_append.mp member with before | new
    · exact reads.aside g before none
    · rw [own g new] at none
      cases none
  heard := fun other => by
    rw [dataOf_append, ← List.append_assoc, reads.heard other]
    by_cases same : other = sid
    · rw [same, Function.update_self]
    · rw [Function.update_of_ne same, dataOf_eq_nil fun g member => ?_, List.append_nil]
      rw [own g member]
      exact fun wrong => same (Option.some.inj wrong).symm
  credit := fun scope => by
    rw [credits_append, credits_of_streams own, Nat.add_zero]
    exact reads.credit scope
  nextStreamId := reads.nextStreamId

/-- A frame of the connection is sent. -/
theorem Reads.answer {f : Frame} (reads : Reads target written limit next connection frames)
    (control : IsControl f) :
    Reads target written (fun scope => limit scope + f.credit scope) next connection
      (frames ++ [f]) := by
  have none : frameStream f = none := by
    cases control <;> rfl
  refine ⟨?_, fun g member alone => ?_, fun sid => ?_, fun scope => ?_, reads.nextStreamId⟩
  · obtain ⟨stages, listens, interleaved⟩ := reads.stages
    exact ⟨stages, listens, interleaved.append (.aside none (.nil target))⟩
  · rcases List.mem_append.mp member with before | new
    · exact reads.aside g before alone
    · rw [List.mem_singleton.mp new]
      exact control
  · have empty : dataOf sid [f] = [] := dataOf_eq_nil fun g member => by
      rw [List.mem_singleton.mp member, none]
      exact nofun
    rw [dataOf_append, empty, List.append_nil]
    exact reads.heard sid
  · have before := reads.credit scope
    rw [credits_append, credits_cons, credits_nil]
    push_cast
    omega

/-- A call opens the next stream. -/
theorem Reads.call (reads : Reads target written limit next connection frames)
    (positive : next ≠ 0) (req : Request) :
    Reads (Function.update target next .start) written limit (next + 2)
      (submitStreamCall connection req) frames := by
  obtain ⟨stages, listens, interleaved⟩ := reads.stages
  obtain rfl := reads.nextStreamId
  obtain ⟨listens', nextStreamId, calls, window⟩ := listens.submit positive req
  have unused : ∀ g ∈ frames, frameStream g ≠ some connection.nextStreamId :=
    interleaved.unused fun g stage taken =>
      taken.not_idle.1 (listens.fresh connection.nextStreamId le_rfl).1
  refine ⟨⟨_, listens', interleaved.replace unused .start⟩, reads.aside, fun sid => ?_,
    fun scope => ?_, nextStreamId⟩
  · rw [calls]
    exact reads.heard sid
  · rw [window]
    exact reads.credit scope

end Reading

/-! ### The invariant -/

/-- The stage to which the server has brought a stream. -/
def stageOf (streams : Streams) (sid : Nat) : StreamStage :=
  match streams.writers sid with
  | some writer => writer.stage
  | none =>
      if sid % 2 = 1 ∧ sid < streams.client.connection.nextStreamId then .start else .idle

/-- What has been written to a stream. -/
def written (streams : Streams) (sid : Nat) : Bytes := (streams.writer sid).bytes

/-- What no send window of the client exceeds. -/
def windowLimit (steps : List Step) (scope : Nat) : Nat := 65535 + credits scope (replies steps)

/-- The bytes on their way, after those that the reader holds, are frames with which the client will
have heard what the writers were given. -/
structure Holds (steps : List Step) (frames : List Frame) (streams : Streams) : Prop where
  config : streams.client.config = Http.Connection.clientConfig
  unread : Session.Unread streams.client.reader (streams.toClient ++ streams.server.outputBuf)
    frames
  reads : Reads streams.stageOf streams.written (windowLimit steps)
    streams.client.connection.nextStreamId streams.client.connection frames
  small : ∀ sid, ∀ message ∈ (streams.writer sid).messages, message.length < 2 ^ 32 - 5
  told : ∀ sid status, (streams.writer sid).status = some status → Tellable status
  size : streams.server.peerMaxFrameSize = 16384
  word : streams.server.encoder.maxTableSize < 2 ^ 64
  calls : ∃ count, streams.client.connection.nextStreamId = 2 * count + 1 ∧
    count ≤ steps.countP isCall ∧ streams.started ≤ count
  fresh : ∀ sid, 2 * streams.started + 1 ≤ sid → streams.writers sid = none

section Invariant

variable {steps : List Step} {frames : List Frame} {streams : Streams}

theorem holds_create : Holds [] [settingsFrame] {} where
  config := rfl
  unread := ⟨FrameReader.coherent_new, rfl, fun f member => by
    rw [List.mem_singleton.mp member]
    exact Http.Connection.proper_of_isControl .settings⟩
  reads := {
    stages := by
      have idle : ({} : Streams).stageOf = fun _ => .idle := by
        funext sid
        refine if_neg fun both => ?_
        have below : sid < 1 := both.2
        omega
      rw [idle]
      exact ⟨_, .create, .aside rfl (.nil _)⟩
    aside := fun f member _ => by
      rw [List.mem_singleton.mp member]
      exact .settings
    heard := fun _ => rfl
    credit := fun scope => by
      have full : (Http.Connection.create .client).sendWindowOf scope = 65535 := by
        unfold Http.Connection.sendWindowOf
        split <;> rfl
      show (Http.Connection.create .client).sendWindowOf scope + _ ≤ _
      rw [full]
      exact le_rfl
    nextStreamId := rfl }
  small := fun _ _ member => absurd member List.not_mem_nil
  told := fun _ _ none => absurd none nofun
  size := rfl
  word := show 4096 < 2 ^ 64 by decide
  calls := ⟨0, rfl, le_rfl, le_rfl⟩
  fresh := fun _ _ => rfl

/-- The streams that have been opened have numbers that a frame can carry. -/
theorem Holds.few (holds : Holds steps frames streams) (orderly : Orderly steps) :
    streams.client.connection.nextStreamId ≤ 2 ^ 31 := by
  obtain ⟨count, next, made, -⟩ := holds.calls
  have few := orderly.few
  omega

theorem Holds.identifier (holds : Holds steps frames streams) (orderly : Orderly steps) {sid : Nat}
    {writer : Writer} (found : streams.writers sid = some writer) : sid < 2 ^ 31 := by
  obtain ⟨count, next, made, begun⟩ := holds.calls
  have few := orderly.few
  by_contra large
  rw [holds.fresh sid (by omega)] at found
  cases found

theorem Holds.call (holds : Holds steps frames streams) (channel : Channel)
    (call : ServerStreamCall) :
    Holds (steps ++ [.call call]) frames (streams.makeCall channel call) := by
  have limit : windowLimit (steps ++ [Step.call call]) = windowLimit steps := by
    unfold windowLimit replies
    rw [List.filterMap_append]
    funext scope
    exact congrArg (65535 + credits scope ·) (List.append_nil _)
  obtain ⟨count, next, made, begun⟩ := holds.calls
  have counted : (steps ++ [Step.call call]).countP isCall = steps.countP isCall + 1 :=
    List.countP_append
  unfold makeCall Channel.serverStreamCall
  by_cases connected : channel.connected = false
  · rw [if_pos connected]
    exact { holds with
      reads := by
        rw [limit]
        exact holds.reads
      calls := ⟨count, next, by omega, begun⟩ }
  · rw [if_neg connected]
    dsimp only
    have reads := holds.reads.call (by omega) (call.toRequest channel.host)
    have nextStreamId := reads.nextStreamId
    refine { holds with
      reads := ?_
      calls := ⟨count + 1, nextStreamId.trans (by omega), by omega, begun.trans (Nat.le_succ _)⟩ }
    rw [limit]
    show Reads _ _ _ (submitStreamCall _ _).nextStreamId _ _
    rw [nextStreamId]
    convert reads using 1
    · funext sid
      unfold stageOf
      dsimp only
      rw [nextStreamId]
      by_cases same : sid = streams.client.connection.nextStreamId
      · rw [same, Function.update_self, holds.fresh _ (by omega)]
        exact if_pos ⟨by omega, by omega⟩
      · rw [Function.update_of_ne same]
        cases streams.writers sid with
        | some writer => rfl
        | none =>
          dsimp only
          refine if_congr ?_ rfl rfl
          omega
    · rfl

/-- A step that grants no credit leaves the limits as they are. -/
theorem Holds.later {action : Step} (holds : Holds steps frames streams)
    (silent : replies [action] = []) : Holds (steps ++ [action]) frames streams := by
  obtain ⟨count, next, made, begun⟩ := holds.calls
  have limit : windowLimit (steps ++ [action]) = windowLimit steps := by
    funext scope
    unfold windowLimit
    unfold replies at silent ⊢
    rw [List.filterMap_append, silent, List.append_nil]
  exact { holds with
    reads := by
      rw [limit]
      exact holds.reads
    calls := ⟨count, next, by
      rw [List.countP_append]
      exact made.trans (Nat.le_add_right _ _), begun⟩ }

/-- A writer has sent frames on its stream. -/
theorem Holds.emit {sid : Nat} {data : Bytes} {more : List Frame} {server : Http.Connection}
    {writer : Writer} {started : Nat} (holds : Holds steps frames streams)
    (emits : Emits sid (streams.stageOf sid) data writer.stage more streams.server server)
    (bytes : writer.bytes = streams.written sid ++ data)
    (small : ∀ message ∈ writer.messages, message.length < 2 ^ 32 - 5)
    (told : ∀ status, writer.status = some status → Tellable status)
    (begun : 2 * started + 1 ≤ streams.client.connection.nextStreamId)
    (fresh : ∀ other, 2 * started + 1 ≤ other → other ≠ sid ∧ streams.writers other = none) :
    Holds steps (frames ++ more)
      { streams with
        server, started, writers := Function.update streams.writers sid (some writer) } := by
  obtain ⟨count, next, made, -⟩ := holds.calls
  have reads := holds.reads.emit emits.run emits.own
  refine ⟨holds.config, ?_, ?_, fun other message member => ?_, fun other status given => ?_,
    emits.peerMaxFrameSize.trans holds.size, ?_, ⟨count, next, made, ?_⟩,
    fun other large => ?_⟩
  · show Session.Unread _ (streams.toClient ++ server.outputBuf) _
    rw [emits.outputBuf, ← List.append_assoc]
    exact holds.unread.append emits.proper
  · convert reads using 1
    · funext other
      unfold stageOf
      dsimp only
      by_cases same : other = sid
      · rw [same, Function.update_self, Function.update_self]
      · rw [Function.update_of_ne same, Function.update_of_ne same]
    · funext other
      unfold written Streams.writer
      dsimp only
      by_cases same : other = sid
      · rw [same, Function.update_self, Function.update_self, emits.data]
        exact bytes
      · rw [Function.update_of_ne same, Function.update_of_ne same]
  · unfold Streams.writer at member
    dsimp only at member
    by_cases same : other = sid
    · rw [same, Function.update_self] at member
      exact small message member
    · rw [Function.update_of_ne same] at member
      exact holds.small other message member
  · unfold Streams.writer at given
    dsimp only at given
    by_cases same : other = sid
    · rw [same, Function.update_self] at given
      exact told status given
    · rw [Function.update_of_ne same] at given
      exact holds.told other status given
  · show server.encoder.maxTableSize < 2 ^ 64
    rw [emits.maxTableSize]
    exact holds.word
  · show started ≤ count
    omega
  · obtain ⟨different, absent⟩ := fresh other large
    show Function.update streams.writers sid _ other = none
    rw [Function.update_of_ne different]
    exact absent

theorem Holds.start (holds : Holds steps frames streams) (orderly : Orderly steps) :
    ∃ frames', Holds (steps ++ [.start]) frames' streams.startNext := by
  unfold startNext
  dsimp only
  set sid := 2 * streams.started + 1
  by_cases asked : sid < streams.client.connection.nextStreamId
  · rw [if_pos asked]
    have few := holds.few orderly
    have absent := holds.fresh sid le_rfl
    have stage : streams.stageOf sid = .start := by
      unfold stageOf
      rw [absent]
      exact if_pos ⟨by omega, asked⟩
    have identifier : sid < 2 ^ 31 := asked.trans_le few
    obtain ⟨frames', emits⟩ := emits_responseHeaders identifier holds.size holds.word
    rw [← stage, show StreamStage.streaming = ({} : Writer).stage from rfl] at emits
    obtain ⟨count, next, -⟩ := holds.calls
    refine ⟨frames ++ frames', (holds.emit emits ?_ nofun nofun ?_ ?_).later rfl⟩
    · unfold written Streams.writer
      rw [absent]
      rfl
    · omega
    · exact fun other large => ⟨by omega, holds.fresh other (by omega)⟩
  · rw [if_neg asked]
    exact ⟨frames, holds.later rfl⟩

theorem Holds.write (holds : Holds steps frames streams) {sid : Nat} {call : WriterCall}
    (orderly : Orderly (steps ++ [.write sid call])) :
    ∃ frames', Holds (steps ++ [.write sid call]) frames' (streams.callWriter sid call) := by
  have last : Step.write sid call ∈ steps ++ [.write sid call] :=
    List.mem_append_right steps List.mem_cons_self
  unfold callWriter
  cases found : streams.writers sid with
  | none => exact ⟨frames, holds.later rfl⟩
  | some writer =>
    have identifier := holds.identifier orderly.of_append found
    have mine : streams.writer sid = writer := by
      unfold Streams.writer
      rw [found]
      rfl
    have stage : streams.stageOf sid = writer.stage := by
      unfold stageOf
      rw [found]
    have begun : 2 * streams.started + 1 ≤ streams.client.connection.nextStreamId := by
      obtain ⟨count, next, -, begun⟩ := holds.calls
      omega
    have fresh (other : Nat) (large : 2 * streams.started + 1 ≤ other) :
        other ≠ sid ∧ streams.writers other = none := by
      refine ⟨fun same => ?_, holds.fresh other large⟩
      rw [← same, holds.fresh other large] at found
      cases found
    have small := holds.small sid
    have told := holds.told sid
    have bytes : streams.written sid = writer.bytes := congrArg Writer.bytes mine
    rw [mine] at small told
    obtain ⟨messages, status⟩ := writer
    cases status with
    | some status =>
      -- A finished writer sends nothing.
      have emits : Emits sid (streams.stageOf sid) [] (Writer.stage ⟨messages, some status⟩) []
          streams.server streams.server :=
        ⟨stage ▸ .nil _, fun _ none => absurd none List.not_mem_nil,
          fun _ none => absurd none List.not_mem_nil, rfl, (List.append_nil _).symm, rfl, rfl⟩
      refine ⟨frames ++ [], (holds.emit emits ?_ small told begun fresh).later rfl⟩
      rw [bytes, List.append_nil]
    | none =>
      cases call with
      | write message =>
        obtain ⟨more, emits⟩ : ∃ more, Emits sid (streams.stageOf sid) (encodeGrpcMessage message)
            (Writer.stage ⟨messages ++ [message], none⟩) more streams.server
            (streams.server.command (.submitData sid (encodeGrpcMessage message) false)) := by
          rw [stage]
          exact emits_write identifier holds.size message
        refine ⟨frames ++ more, (holds.emit emits ?_ (fun other member => ?_) told begun
          fresh).later rfl⟩
        · rw [bytes]
          exact List.flatMap_append.trans
            (congrArg (_ ++ ·) (List.flatMap_singleton encodeGrpcMessage message))
        · rcases List.mem_append.mp member with before | new
          · exact small other before
          · rw [List.mem_singleton.mp new]
            exact orderly.small sid message last
      | finish code message =>
        obtain ⟨more, emits⟩ : ∃ more, Emits sid (streams.stageOf sid) []
            (Writer.stage ⟨messages, some ⟨code, message⟩⟩) more streams.server
            (streams.server.command (.submitTrailers sid (finishTrailers code message))) := by
          rw [stage]
          exact emits_finish identifier holds.size holds.word
            (orderly.tellable sid code message last)
        refine ⟨frames ++ more, (holds.emit emits ?_ small (fun status given => ?_) begun
          fresh).later rfl⟩
        · rw [bytes, List.append_nil]
          rfl
        · cases given
          exact orderly.tellable sid code message last

theorem Holds.reply (holds : Holds steps frames streams) (channel : Channel) {f : Frame}
    (control : IsControl f) :
    ∃ next, streams.step channel (.reply f) = .ok next ∧
      Holds (steps ++ [.reply f]) (frames ++ [f]) next := by
  obtain ⟨count, next, made, begun⟩ := holds.calls
  have limit : windowLimit (steps ++ [.reply f]) =
      fun scope => windowLimit steps scope + f.credit scope := by
    funext scope
    unfold windowLimit replies
    rw [List.filterMap_append, credits_append, ← Nat.add_assoc]
    show _ + credits scope [f] = _
    rw [credits_cons, credits_nil, Nat.add_zero]
  refine ⟨_, rfl, { holds with
    unread := ?_
    reads := ?_
    calls := ⟨count, next, by
      rw [List.countP_append]
      exact made.trans (Nat.le_add_right _ _), begun⟩ }⟩
  · have proper : ∀ g ∈ [f], g.Proper := fun g member => by
      rw [List.mem_singleton.mp member]
      exact Http.Connection.proper_of_isControl control
    have unread := holds.unread.append proper
    rw [List.flatMap_singleton, List.append_assoc] at unread
    exact unread
  · rw [limit]
    exact holds.reads.answer control

theorem Holds.flush (holds : Holds steps frames streams) (channel : Channel) :
    ∃ next, streams.step channel .flush = .ok next ∧ Holds (steps ++ [.flush]) frames next ∧
      next.server.outputBuf = [] ∧ next.writers = streams.writers := by
  have unread := holds.unread
  rw [← List.append_nil (streams.toClient ++ streams.server.outputBuf)] at unread
  have flushed : Holds steps frames
      { streams with
        server := streams.server.command .getPendingOutput
        toClient := streams.toClient ++ streams.server.outputBuf } :=
    { holds with unread := unread }
  exact ⟨_, rfl, flushed.later rfl, rfl, rfl⟩

/-- Bytes arrive. The client takes the frames that they complete. -/
theorem Holds.deliver (holds : Holds steps frames streams) (orderly : Orderly steps)
    (channel : Channel) (count : Nat) :
    ∃ next frames', streams.step channel (.deliver count) = .ok next ∧
      Holds (steps ++ [.deliver count]) frames' next ∧ next.server = streams.server ∧
      next.toClient = streams.toClient.drop count ∧ next.writers = streams.writers := by
  have few := holds.few orderly
  obtain ⟨client, frames', replies, run, config, -, -, reads, unread⟩ := @Session.feed_unread
    Http.Connection.clientConfig
    (fun connection frames _ => Reads streams.stageOf streams.written (windowLimit steps)
      streams.client.connection.nextStreamId connection frames)
    (fun connection frames sent reads => by
      obtain ⟨stages, listens, -⟩ := reads.stages
      exact listens.steady.alive)
    (fun connection f frames sent reads => reads.receive few orderly.credit)
    (streams.toClient.take count) (streams.toClient.drop count ++ streams.server.outputBuf)
    streams.client frames holds.config holds.reads (by
      rw [← List.append_assoc, List.take_append_drop]
      exact holds.unread)
  obtain ⟨calls, next, made, begun⟩ := holds.calls
  have nextStreamId := reads.nextStreamId
  have delivered : Holds steps frames'
      { streams with client, toClient := streams.toClient.drop count } := {
    config := config
    unread := unread
    reads := by
      have same : ({ streams with client, toClient := streams.toClient.drop count } :
          Streams).stageOf = streams.stageOf := by
        funext sid
        unfold stageOf
        dsimp only
        rw [nextStreamId]
      rw [same]
      dsimp only
      rw [nextStreamId]
      exact reads
    small := holds.small
    told := holds.told
    size := holds.size
    word := holds.word
    calls := ⟨calls, nextStreamId.trans next, made, begun⟩
    fresh := holds.fresh }
  refine ⟨_, frames', ?_, delivered.later rfl, rfl, rfl, rfl⟩
  rw [step, run]
  rfl

/-! ### Runs -/

/-- A step preserves the invariant. -/
theorem Holds.step (holds : Holds steps frames streams) (channel : Channel) {action : Step}
    (orderly : Orderly (steps ++ [action])) :
    ∃ next frames', streams.step channel action = .ok next ∧
      Holds (steps ++ [action]) frames' next := by
  cases action with
  | call call => exact ⟨_, frames, rfl, holds.call channel call⟩
  | start =>
    obtain ⟨frames', holds'⟩ := holds.start orderly.of_append
    exact ⟨_, frames', rfl, holds'⟩
  | write sid call =>
    obtain ⟨frames', holds'⟩ := holds.write orderly
    exact ⟨_, frames', rfl, holds'⟩
  | reply f =>
    obtain ⟨next, run, holds'⟩ :=
      holds.reply channel (orderly.controls f (List.mem_append_right steps List.mem_cons_self))
    exact ⟨next, frames ++ [f], run, holds'⟩
  | flush =>
    obtain ⟨next, run, holds', -⟩ := holds.flush channel
    exact ⟨next, frames, run, holds'⟩
  | deliver count =>
    obtain ⟨next, frames', run, holds', -⟩ := holds.deliver orderly.of_append channel count
    exact ⟨next, frames', run, holds'⟩

/-- A run does not fail, and preserves the invariant. -/
theorem holds_run (channel : Channel) (steps : List Step) (orderly : Orderly steps) :
    ∃ final frames, steps.foldlM (Streams.step channel) {} = .ok final ∧
      Holds steps frames final := by
  induction steps using List.reverseRecOn with
  | nil => exact ⟨{}, [settingsFrame], rfl, holds_create⟩
  | append_singleton steps action inductionHypothesis =>
    obtain ⟨streams, frames, run, holds⟩ := inductionHypothesis orderly.of_append
    obtain ⟨next, frames', taken, holds'⟩ := holds.step channel orderly
    refine ⟨next, frames', ?_, holds'⟩
    rw [List.foldlM_append, run]
    show [action].foldlM (Streams.step channel) streams = _
    rw [List.foldlM_cons, taken]
    rfl

/-! ### What the callers have seen -/

/-- When no data of a stream is on its way, its callback has been given all messages. -/
theorem Holds.received_all (holds : Holds steps frames streams) {sid : Nat}
    (none : dataOf sid frames = []) :
    ∃ deframer, streams.received sid = .ok deframer ∧
      deframer.passed = (streams.writer sid).messages := by
  have cut : (piecesOf sid (callsOf streams.client.connection.events)).flatten ++ [] =
      (streams.writer sid).messages.flatMap encodeGrpcMessage := none ▸ holds.reads.heard sid
  obtain ⟨deframer, run, held⟩ := StreamDeframer.holds_pieces (streams.writer sid).messages true
    (holds.small sid) _ [] cut
  rw [List.append_nil] at cut
  have whole : arrived encodeGrpcMessage _ _ = (streams.writer sid).messages :=
    arrived_append (streams.writer sid).messages [] 0 nofun
  rw [List.append_nil, Nat.add_zero, ← cut] at whole
  exact ⟨deframer, run, held.passed.trans whole⟩

/-- A stream whose trailers have been read has nothing on its way. -/
theorem Holds.finished (holds : Holds steps frames streams) {sid : Nat}
    (complete : (streams.promise sid).complete = true) :
    dataOf sid frames = [] ∧ ∃ trailers, streams.stageOf sid = .done trailers ∧
      (streams.promise sid).error = false ∧
      (streams.promise sid).resp = (streamMessage trailers).response := by
  obtain ⟨stages, listens, interleaved⟩ := holds.reads.stages
  obtain ⟨trailers, done⟩ := listens.waiting sid complete
  have stuck (f : Frame) (stage : StreamStage) : ¬ StreamStep sid (stages sid) f stage := by
    rw [done]
    exact nofun
  have unused := interleaved.unused stuck
  have run := interleaved.run sid
  rw [List.filter_eq_nil_iff.mpr fun f member => by simpa using unused f member] at run
  exact ⟨dataOf_eq_nil unused, trailers, run.eq_of_nil ▸ done, listens.unfailed sid,
    (listens.completed sid trailers done).2⟩

theorem status_of_stageOf {sid : Nat} {trailers : Headers}
    (done : streams.stageOf sid = .done trailers) :
    ∃ status, (streams.writer sid).status = some status ∧ trailers = statusTrailers status := by
  unfold stageOf at done
  unfold Streams.writer
  cases found : streams.writers sid with
  | none =>
    rw [found] at done
    dsimp only at done
    split at done <;> cases done
  | some writer =>
    rw [found] at done
    obtain ⟨messages, status⟩ := writer
    cases status with
    | none => cases done
    | some status => exact ⟨status, rfl, (StreamStage.done.inj done).symm⟩

/-- The status that a call returns. -/
theorem serverStreamStatus_eq {promise : ResponsePromise} {status : Status}
    (tellable : Tellable status) (error : promise.error = false)
    (resp : promise.resp = (streamMessage (statusTrailers status)).response) :
    serverStreamStatus promise = status := by
  rw [serverStreamStatus, error, if_neg Bool.false_ne_true, resp, tellable.extractGrpcStatus]

theorem Holds.follows (holds : Holds steps frames streams) (sid : Nat) : streams.Follows sid := by
  obtain ⟨deframer, run, held⟩ := StreamDeframer.holds_pieces (streams.writer sid).messages true
    (holds.small sid) _ _ (holds.reads.heard sid)
  obtain ⟨left, whole, -⟩ := held.stream
  refine ⟨deframer, run, ⟨left, ?_⟩, fun complete => ?_⟩
  · rw [held.passed]
    exact whole.symm
  · obtain ⟨none, trailers, done, error, resp⟩ := holds.finished complete
    obtain ⟨status, given, rfl⟩ := status_of_stageOf done
    obtain ⟨deframer', run', all⟩ := holds.received_all none
    have same : deframer = deframer' := Except.ok.inj (run.symm.trans run')
    rw [same, given, serverStreamStatus_eq (holds.told sid status given) error resp]
    exact ⟨all, rfl⟩

theorem Holds.settled (holds : Holds steps [] streams) (sid : Nat) : streams.Settled sid := by
  obtain ⟨deframer, run, all⟩ := holds.received_all (show dataOf sid [] = [] from rfl)
  refine ⟨deframer, run, all, fun status given => ?_⟩
  obtain ⟨stages, listens, interleaved⟩ := holds.reads.stages
  have reached : stages sid = .done (statusTrailers status) := by
    cases interleaved
    unfold stageOf
    cases found : streams.writers sid with
    | none =>
      unfold Streams.writer at given
      rw [found] at given
      cases given
    | some writer =>
      unfold Streams.writer at given
      rw [found] at given
      unfold Writer.stage
      dsimp only
      rw [show writer.status = some status from given]
  obtain ⟨complete, resp⟩ := listens.completed sid _ reached
  exact ⟨complete, serverStreamStatus_eq (holds.told sid status given) (listens.unfailed sid) resp⟩

end Invariant

theorem Orderly.flush {steps : List Step} (orderly : Orderly steps) :
    Orderly (steps ++ [.flush]) := by
  have before {action : Step} (other : action ≠ .flush) (member : action ∈ steps ++ [.flush]) :
      action ∈ steps :=
    (List.mem_append.mp member).resolve_right fun last => other (List.mem_singleton.mp last)
  refine ⟨?_, fun sid message member => orderly.small sid message (before nofun member),
    fun sid code message member => orderly.tellable sid code message (before nofun member),
    fun f member => orderly.controls f (before nofun member), fun scope => ?_⟩
  · rw [List.countP_append]
    exact orderly.few
  · rw [replies, List.filterMap_append]
    show 65535 + credits scope (replies steps ++ []) ≤ _
    rw [List.append_nil]
    exact orderly.credit scope

end Streams

end AsyncNet.Grpc
