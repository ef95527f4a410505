/-
This file follows the requests of a client and the responses of a server frame by
frame. The frames on their way to the server spell out the requests that it has not
read, in the order of their submission, and the frames on their way to the client spell
out the responses to the requests that have been served. Whichever side takes a frame
next, and whenever a request is submitted, this stays so.
-/

import Mathlib.Data.Prod.Lex
import AsyncNet.Http.Http2Reading

namespace AsyncNet.Http

open H2

/-! ### Requests and their answers -/

/-- The requests of a client as the messages that a server reads: each opens the next odd
stream. -/
def requestMessages (read : Request → Message) (requests : List Request) : List (Nat × Message) :=
  requests.mapIdx fun index req => (2 * index + 1, read req)

/-- The answer to a request. -/
def answer (handler : Request → Response) (entry : Nat × Message) : Nat × Message :=
  (entry.1, responseMessage (handler entry.2.request))

/-- What a server makes of a request, whatever the encoder that wrote its headers. -/
structure ReadsAs (req : Request) (message : Message) : Prop where
  decodes : ∀ encoder : HpackEncoder, encoder.maxTableSize < 2 ^ 64 →
    Decodes (encoder.encode (Connection.requestHeaders req)).1 message.headers
  body : message.body = req.bd
  single : message.trailers = none

section Requests

variable (read : Request → Message) (requests : List Request)

theorem requestMessages_append (req : Request) :
    requestMessages read (requests ++ [req]) =
      requestMessages read requests ++ [(2 * requests.length + 1, read req)] :=
  List.mapIdx_concat

theorem length_requestMessages : (requestMessages read requests).length = requests.length :=
  List.length_mapIdx

theorem getElem?_requestMessages (index : Nat) :
    (requestMessages read requests)[index]? =
      requests[index]?.map fun req => (2 * index + 1, read req) := List.getElem?_mapIdx

end Requests

theorem bodyTotal_append (messages more : List (Nat × Message)) :
    bodyTotal (messages ++ more) = bodyTotal messages + bodyTotal more := by
  rw [bodyTotal, List.map_append, List.sum_append]
  rfl

/-- How many messages a side has begun to read. -/
def started (count : Nat) : Reading → Nat
  | none => count
  | some _ => count + 1

theorem le_started (count : Nat) (reading : Reading) : count ≤ started count reading := by
  cases reading with
  | none => exact le_rfl
  | some _ => exact Nat.le_succ count

/-- The stream whose header block is incomplete. -/
def waitsFor : Reading → Nat
  | none => 0
  | some (sid, _, progress) => waits sid progress

theorem current_of_ne_done (sid : Nat) (message : Message) {progress : Progress}
    (unfinished : progress ≠ .done) :
    current sid message progress = some (sid, message, progress) := by
  cases progress with
  | done => exact absurd rfl unfinished
  | _ => rfl

/-- The first of the messages that are left. -/
theorem drop_eq_cons {Entry : Type} {entries later : List Entry} {entry : Entry} {index : Nat}
    (left : entries.drop index = entry :: later) :
    entries[index]? = some entry ∧ entries.drop (index + 1) = later := by
  constructor
  · rw [← List.head?_drop, left]
    rfl
  · rw [← List.tail_drop, left]
    rfl

/-! ### The server's side -/

/-- The messages of a client: their streams are the odd ones in order, and their answers can be
sent. -/
structure Orderly (handler : Request → Response) (start : Option StartHandler)
    (messages : List (Nat × Message)) : Prop where
  streamId : ∀ (index : Nat) (entry : Nat × Message), messages[index]? = some entry →
    entry.1 = 2 * index + 1
  few : messages.length < 2 ^ 29
  single : ∀ (index : Nat) (entry : Nat × Message), messages[index]? = some entry →
    entry.2.trailers = none
  declined : ∀ (index : Nat) (entry : Nat × Message), messages[index]? = some entry →
    Connection.Declines start entry.2.requestHead
  sendable : ∀ (index : Nat) (entry : Nat × Message), messages[index]? = some entry →
    (responseMessage (handler entry.2.request)).Sendable

/-- A server that has served some of the messages and has others on their way. -/
structure ServerSide (start : Option StartHandler) (messages : List (Nat × Message))
    (frames : List Frame) (server : Connection) (served : Nat) (reading : Reading) : Prop where
  steady : server.Steady
  spells : Spells reading frames (messages.drop (started served reading))
  within : started served reading ≤ messages.length
  reads : ∀ sid message progress, reading = some (sid, message, progress) →
    messages[served]? = some (sid, message) ∧ progress ≠ .start ∧
      server.view sid = some (serverStream sid message progress)
  waiting : server.continuationStream = waitsFor reading
  absent : ∀ sid, 2 * started served reading + 1 ≤ sid → server.view sid = none
  calls : Connection.answerCalls start server.events =
    (messages.take served).map fun entry => Event.requestHandler entry.2.request

/-- What a server makes of a frame: the responses that it sends are those to the requests it has
served. It has served another request, or it has little to send. -/
structure ServerStep (handler : Request → Response) (start : Option StartHandler)
    (messages : List (Nat × Message)) (frames : List Frame) (f : Frame) (replies : List Frame)
    (before after : Connection) (served : Nat) : Prop where
  receipt : Connection.Receipt f replies before after
  side : ∃ served' reading more, ServerSide start messages frames after served' reading ∧
    Spells none replies more ∧ (∀ scope, loads scope replies ≤ bodyTotal more) ∧
    (messages.take served').map (answer handler) =
      (messages.take served).map (answer handler) ++ more
  nearer : (Connection.answerCalls start before.events).length <
      (Connection.answerCalls start after.events).length ∨
    Connection.answerCalls start after.events = Connection.answerCalls start before.events ∧
      efforts replies < f.effort

section Server

variable {handler : Request → Response} {start : Option StartHandler}
  {messages : List (Nat × Message)} {f : Frame} {frames : List Frame} {server : Connection}
  {served : Nat} {reading : Reading}

/-- More messages are sent to a server. -/
theorem ServerSide.extend {more : List Frame} {others : List (Nat × Message)}
    (side : ServerSide start messages frames server served reading)
    (sent : Spells none more others) :
    ServerSide start (messages ++ others) (frames ++ more) server served reading where
  steady := side.steady
  spells := by
    rw [List.drop_append_of_le_length side.within]
    exact side.spells.append sent
  within := by
    rw [List.length_append]
    exact side.within.trans (Nat.le_add_right _ _)
  reads := fun sid message progress is => by
    obtain ⟨entry, rest⟩ := side.reads sid message progress is
    exact ⟨List.getElem?_append_left (List.getElem?_eq_some_iff.mp entry).1 ▸ entry, rest⟩
  waiting := side.waiting
  absent := side.absent
  calls := by
    have few : served ≤ messages.length := (le_started served reading).trans side.within
    rw [List.take_append_of_le_length few]
    exact side.calls

/-- A frame of a message that a server reads. -/
theorem serverStep_advance {sid : Nat} {message : Message} {progress progress' : Progress}
    (orderly : Orderly handler start messages) (advance : Advance sid message progress f progress')
    (entry : messages[served]? = some (sid, message)) (steady : server.Steady)
    (absent : progress = .start → server.view sid = none)
    (present : progress ≠ .start → server.view sid = some (serverStream sid message progress))
    (waiting : server.continuationStream = waits sid progress)
    (later : Spells (current sid message progress') frames (messages.drop (served + 1)))
    (others : ∀ other, 2 * (served + 1) + 1 ≤ other → server.view other = none)
    (calls : Connection.answerCalls start server.events =
      (messages.take served).map fun entry => Event.requestHandler entry.2.request) :
    ∃ after replies, server.processFrame (Connection.serverConfig handler start) f = .ok after ∧
      ServerStep handler start messages frames f replies server after served := by
  have streamId : sid = 2 * served + 1 := orderly.streamId served _ entry
  have inside : served < messages.length := (List.getElem?_eq_some_iff.mp entry).1
  have few := orderly.few
  have answered := orderly.sendable served _ entry
  obtain ⟨after, run, hears⟩ := Connection.hears_advance advance
    (orderly.single served _ entry) steady (by omega) (by omega) absent present waiting
    (orderly.declined served _ entry)
  have serves := hears.serves answered
  obtain ⟨replies, receipt, spelled, light, less⟩ := serves.receipt
  have absent' (other : Nat) (large : 2 * (served + 1) + 1 ≤ other) : after.view other = none := by
    rw [serves.others other (by omega)]
    exact others other large
  refine ⟨after, replies, run, ?_⟩
  by_cases done : progress' = .done
  · subst done
    have taken : messages.take (served + 1) = messages.take served ++ [(sid, message)] := by
      rw [List.take_add_one, entry]
      rfl
    refine ⟨receipt, ⟨served + 1, none, _, ?_, spelled, light, ?_⟩, Or.inl ?_⟩
    · exact {
        steady := receipt.steady
        spells := later
        within := inside
        reads := fun _ _ _ is => absurd is (Option.some_ne_none _).symm
        waiting := serves.continuationStream
        absent := absent'
        calls := by
          rw [serves.calls, calls, taken, List.map_append]
          rfl }
    · rw [taken, List.map_append]
      rfl
    · rw [serves.calls, List.length_append]
      exact Nat.lt_succ_self _
  · have going := current_of_ne_done sid message done
    rw [going] at later
    have same : Connection.answerCalls start after.events =
        Connection.answerCalls start server.events := by
      rw [serves.calls, Connection.atEnd_of_ne_done _ done, List.append_nil]
    refine ⟨receipt, ⟨served, some (sid, message, progress'), _, ?_, spelled, light, ?_⟩,
      Or.inr ⟨same, less done⟩⟩
    · exact {
        steady := receipt.steady
        spells := later
        within := inside
        reads := fun _ _ _ is => by
          cases is
          exact ⟨entry, advance_ne_start advance, serves.view done⟩
        waiting := serves.continuationStream
        absent := absent'
        calls := same.trans calls }
    · rw [Connection.atEnd_of_ne_done _ done, List.append_nil]

/-- A server takes the next frame. -/
theorem ServerSide.receive (orderly : Orderly handler start messages)
    (side : ServerSide start messages (f :: frames) server served reading)
    (room : ∀ scope, server.sendWindowOf scope + (f.credit scope : Int) ≤ maxWindowSize) :
    ∃ after replies, server.processFrame (Connection.serverConfig handler start) f = .ok after ∧
      ServerStep handler start messages frames f replies server after served := by
  have spells := side.spells
  have within := side.within
  have absent := side.absent
  have waiting := side.waiting
  have reads := side.reads
  generalize left : messages.drop (started served reading) = rest at spells
  cases spells with
  | control control later =>
    obtain ⟨after, run, administers⟩ := Connection.receive_control
      (Connection.serverConfig handler start) server control side.steady side.waiting room
    obtain ⟨replies, controls, less, receipt⟩ := administers.receipt
    refine ⟨after, replies, run, receipt, ⟨served, none, [], ?_,
      Spells.of_controls replies controls, fun scope => ?_, (List.append_nil _).symm⟩,
      Or.inr ⟨Connection.answerCalls_congr administers.keeps.calls, less⟩⟩
    · exact {
        steady := receipt.steady
        spells := left.symm ▸ later
        within := side.within
        reads := fun _ _ _ is => absurd is (Option.some_ne_none _).symm
        waiting := administers.keeps.continuationStream.trans side.waiting
        absent := fun sid large => (administers.view sid).trans (side.absent sid large)
        calls := (Connection.answerCalls_congr administers.keeps.calls).trans side.calls }
    · rw [loads_of_controls scope replies controls]
      exact Nat.zero_le _
  | @start sid message f progress' frames rest advance later =>
    obtain ⟨entry, tail⟩ := drop_eq_cons left
    have streamId : sid = 2 * served + 1 := orderly.streamId served _ entry
    refine serverStep_advance orderly advance entry side.steady
      (fun _ => absent sid streamId.ge) (fun wrong => absurd rfl wrong) waiting
      (tail.symm ▸ later) (fun other large => absent other ?_) side.calls
    show 2 * served + 1 ≤ other
    omega
  | @next sid message f progress progress' frames rest advance later =>
    obtain ⟨entry, begun, view⟩ := reads sid message progress rfl
    exact serverStep_advance orderly advance entry side.steady (fun wrong => absurd wrong begun)
      (fun _ => view) waiting (left.symm ▸ later) absent side.calls

end Server

/-! ### The client's side -/

/-- A client that has submitted a number of requests, has read some of the answers and has others on
their way. -/
structure ClientSide (count : Nat) (answers : List (Nat × Message)) (frames : List Frame)
    (client : Connection) (finished : Nat) (reading : Reading) : Prop where
  steady : client.Steady
  spells : Spells reading frames (answers.drop (started finished reading))
  within : started finished reading ≤ answers.length
  asked : answers.length ≤ count
  streamId : ∀ (index : Nat) (entry : Nat × Message), answers[index]? = some entry →
    entry.1 = 2 * index + 1
  reads : ∀ sid message progress, reading = some (sid, message, progress) →
    answers[finished]? = some (sid, message) ∧
      client.view sid = some (clientStream sid (.caller finished) message progress)
  waiting : client.continuationStream = waitsFor reading
  fresh : ∀ index, started finished reading ≤ index → index < count →
    client.view (2 * index + 1) = some (awaiting (2 * index + 1) (.caller index))
  absent : ∀ sid, 2 * count + 1 ≤ sid → client.view sid = none
  nextStreamId : client.nextStreamId = 2 * count + 1
  completed : ∀ (index : Nat) (entry : Nat × Message), index < finished →
    answers[index]? = some entry →
      (client.promises (.caller index)).complete = true ∧
        (client.promises (.caller index)).error = false ∧
        (client.promises (.caller index)).resp = entry.2.response
  unfailed : ∀ index, (client.promises (.caller index)).error = false

section Client

variable {count : Nat} {answers : List (Nat × Message)} {f : Frame} {frames : List Frame}
  {client : Connection} {finished : Nat} {reading : Reading}

/-- More answers are sent to a client. -/
theorem ClientSide.extend {more : List Frame} {others : List (Nat × Message)}
    (side : ClientSide count answers frames client finished reading)
    (sent : Spells none more others) (asked : (answers ++ others).length ≤ count)
    (streamId : ∀ (index : Nat) (entry : Nat × Message), (answers ++ others)[index]? = some entry →
      entry.1 = 2 * index + 1) :
    ClientSide count (answers ++ others) (frames ++ more) client finished reading where
  steady := side.steady
  spells := by
    rw [List.drop_append_of_le_length side.within]
    exact side.spells.append sent
  within := by
    rw [List.length_append]
    exact side.within.trans (Nat.le_add_right _ _)
  asked := asked
  streamId := streamId
  reads := fun sid message progress is => by
    obtain ⟨entry, view⟩ := side.reads sid message progress is
    exact ⟨List.getElem?_append_left (List.getElem?_eq_some_iff.mp entry).1 ▸ entry, view⟩
  waiting := side.waiting
  fresh := side.fresh
  absent := side.absent
  nextStreamId := side.nextStreamId
  completed := fun index entry before found => by
    have few : finished ≤ answers.length := (le_started finished reading).trans side.within
    rw [List.getElem?_append_left (before.trans_le few)] at found
    exact side.completed index entry before found
  unfailed := side.unfailed

/-- A client submits another request. -/
theorem ClientSide.submits {after : Connection}
    (side : ClientSide count answers frames client finished reading)
    (quiet : Connection.Quiet client after) (steady : after.Steady)
    (others : ∀ sid, sid ≠ 2 * count + 1 → after.view sid = client.view sid)
    (nextStreamId : after.nextStreamId = 2 * count + 1 + 2)
    (view : after.view (2 * count + 1) = some (awaiting (2 * count + 1) (.caller count))) :
    ClientSide (count + 1) answers frames after finished reading where
  steady := steady
  spells := side.spells
  within := side.within
  asked := side.asked.trans (Nat.le_succ _)
  streamId := side.streamId
  reads := fun sid message progress is => by
    obtain ⟨entry, there⟩ := side.reads sid message progress is
    have streamId : sid = 2 * finished + 1 := side.streamId _ _ entry
    have inside := (List.getElem?_eq_some_iff.mp entry).1
    have asked := side.asked
    exact ⟨entry, (others sid (by omega)).trans there⟩
  waiting := quiet.continuationStream.trans side.waiting
  fresh := fun index large small => by
    by_cases last : index = count
    · rw [last]
      exact view
    · rw [others _ (by omega)]
      exact side.fresh index large (by omega)
  absent := fun sid large => (others sid (by omega)).trans (side.absent sid (by omega))
  nextStreamId := nextStreamId
  completed := fun index entry before found => by
    rw [quiet.promises]
    exact side.completed index entry before found
  unfailed := fun index => by
    rw [quiet.promises]
    exact side.unfailed index

/-- What a client makes of a frame. -/
structure ClientStep (count : Nat) (answers : List (Nat × Message)) (frames : List Frame)
    (f : Frame) (replies : List Frame) (before after : Connection) : Prop where
  receipt : Connection.Receipt f replies before after
  side : ∃ finished reading, ClientSide count answers frames after finished reading
  controls : ∀ reply ∈ replies, IsControl reply
  nearer : efforts replies < f.effort

/-- A frame of an answer that a client reads. -/
theorem clientStep_advance {sid : Nat} {message : Message} {progress progress' : Progress}
    (side : ClientSide count answers (f :: frames) client finished reading)
    (few : count < 2 ^ 29) (advance : Advance sid message progress f progress')
    (entry : answers[finished]? = some (sid, message))
    (present : client.view sid = some (clientStream sid (.caller finished) message progress))
    (waiting : client.continuationStream = waits sid progress)
    (later : Spells (current sid message progress') frames (answers.drop (finished + 1)))
    (begun : started finished reading ≤ finished + 1) :
    ∃ after replies, client.processFrame Connection.clientConfig f = .ok after ∧
      ClientStep count answers frames f replies client after := by
  have streamId : sid = 2 * finished + 1 := side.streamId finished _ entry
  have inside : finished < answers.length := (List.getElem?_eq_some_iff.mp entry).1
  have asked := side.asked
  obtain ⟨after, run, completes⟩ := Connection.completes_advance advance side.steady (by omega)
    (by omega) present waiting
  obtain ⟨replies, controls, less, receipt⟩ := completes.receipt
  have fresh (index : Nat) (large : finished + 1 ≤ index) (small : index < count) :
      after.view (2 * index + 1) = some (awaiting (2 * index + 1) (.caller index)) := by
    rw [completes.others _ (by omega)]
    exact side.fresh index (begun.trans large) small
  have absent (other : Nat) (large : 2 * count + 1 ≤ other) : after.view other = none := by
    rw [completes.others other (by omega)]
    exact side.absent other large
  refine ⟨after, replies, run, receipt, ?_, controls, less⟩
  by_cases done : progress' = .done
  · subst done
    have settled : after.promises (.caller finished) =
        { client.promises (.caller finished) with resp := message.response, complete := true } := by
      rw [completes.promises]
      exact if_pos rfl
    have kept (index : Nat) (other : index ≠ finished) :
        after.promises (.caller index) = client.promises (.caller index) := by
      rw [completes.promises]
      exact if_neg fun same => other (PromiseRef.caller.inj same)
    exact ⟨finished + 1, none, {
      steady := receipt.steady
      spells := later
      within := inside
      asked := side.asked
      streamId := side.streamId
      reads := fun _ _ _ is => absurd is (Option.some_ne_none _).symm
      waiting := completes.continuationStream
      fresh := fresh
      absent := absent
      nextStreamId := receipt.nextStreamId.trans side.nextStreamId
      completed := fun index found before is => by
        by_cases last : index = finished
        · subst last
          cases entry.symm.trans is
          rw [settled]
          exact ⟨rfl, side.unfailed index, rfl⟩
        · rw [kept index last]
          exact side.completed index found (by omega) is
      unfailed := fun index => by
        by_cases last : index = finished
        · rw [last, settled]
          exact side.unfailed finished
        · rw [kept index last]
          exact side.unfailed index }⟩
  · have going := current_of_ne_done sid message done
    have promises : after.promises = client.promises := by
      rw [completes.promises]
      cases progress' with
      | done => exact absurd rfl done
      | _ => rfl
    rw [going] at later
    exact ⟨finished, some (sid, message, progress'), {
      steady := receipt.steady
      spells := later
      within := inside
      asked := side.asked
      streamId := side.streamId
      reads := fun _ _ _ is => by
        cases is
        exact ⟨entry, completes.view done⟩
      waiting := completes.continuationStream
      fresh := fresh
      absent := absent
      nextStreamId := receipt.nextStreamId.trans side.nextStreamId
      completed := fun index found before is => by
        rw [promises]
        exact side.completed index found before is
      unfailed := fun index => by
        rw [promises]
        exact side.unfailed index }⟩

/-- A client takes the next frame. -/
theorem ClientSide.receive (few : count < 2 ^ 29)
    (side : ClientSide count answers (f :: frames) client finished reading)
    (room : ∀ scope, client.sendWindowOf scope + (f.credit scope : Int) ≤ maxWindowSize) :
    ∃ after replies, client.processFrame Connection.clientConfig f = .ok after ∧
      ClientStep count answers frames f replies client after := by
  have spells := side.spells
  generalize left : answers.drop (started finished reading) = rest at spells
  generalize is : f :: frames = pending at spells
  cases spells with
  | nothing => cases is
  | control control later =>
    cases is
    obtain ⟨after, run, administers⟩ := Connection.receive_control
      Connection.clientConfig client control side.steady side.waiting room
    obtain ⟨replies, controls, less, receipt⟩ := administers.receipt
    refine ⟨after, replies, run, receipt, ⟨finished, none, ?_⟩, controls, less⟩
    exact {
      steady := receipt.steady
      spells := left.symm ▸ later
      within := side.within
      asked := side.asked
      streamId := side.streamId
      reads := fun _ _ _ is => absurd is (Option.some_ne_none _).symm
      waiting := administers.keeps.continuationStream.trans side.waiting
      fresh := fun index large small =>
        (administers.view _).trans (side.fresh index large small)
      absent := fun sid large => (administers.view sid).trans (side.absent sid large)
      nextStreamId := receipt.nextStreamId.trans side.nextStreamId
      completed := fun index entry before found => by
        rw [administers.keeps.promises]
        exact side.completed index entry before found
      unfailed := fun index => by
        rw [administers.keeps.promises]
        exact side.unfailed index }
  | @start sid message f progress' frames rest advance later =>
    cases is
    obtain ⟨entry, tail⟩ := drop_eq_cons left
    have streamId : sid = 2 * finished + 1 := side.streamId finished _ entry
    have inside : finished < answers.length := (List.getElem?_eq_some_iff.mp entry).1
    have fresh := side.fresh finished le_rfl (inside.trans_le side.asked)
    rw [← streamId] at fresh
    exact clientStep_advance side few advance entry fresh side.waiting (tail.symm ▸ later)
      (Nat.le_succ finished)
  | @next sid message f progress progress' frames rest advance later =>
    cases is
    obtain ⟨entry, view⟩ := side.reads sid message progress rfl
    exact clientStep_advance side few advance entry view side.waiting (left.symm ▸ later) le_rfl

end Client

/-! ### Flow control between the two -/

/-- The credit that a side has and can still get is covered by the other side's window and by the
data that it has sent in all. -/
def Balanced (sender receiver : Connection) (toSender fromSender : List Frame)
    (sent : Nat) : Prop :=
  ∀ scope, sender.sendWindowOf scope + (credits scope toSender : Int) +
    (loads scope fromSender : Int) ≤ receiver.recvWindowOf scope + (sent : Int)

section Books

variable {me after peer : Connection} {f : Frame} {replies rest other : List Frame} {sent : Nat}

theorem Balanced.receive (balanced : Balanced peer me other (f :: rest) sent)
    (receipt : Connection.Receipt f replies me after) :
    Balanced peer after (other ++ replies) rest sent := by
  intro scope
  have before := balanced scope
  have moved := receipt.recvWindow scope
  rw [loads_cons] at before
  rw [credits_append]
  push_cast at before moved ⊢
  omega

theorem Balanced.reply {extra : Nat} (balanced : Balanced me peer (f :: rest) other sent)
    (receipt : Connection.Receipt f replies me after)
    (light : ∀ scope, loads scope replies ≤ extra) :
    Balanced after peer rest (other ++ replies) (sent + extra) := by
  intro scope
  have before := balanced scope
  have moved := receipt.sendWindow scope
  have weight := light scope
  rw [credits_cons] at before
  rw [loads_append]
  push_cast at before moved ⊢
  omega

/-- Less data than this cannot make a send window overflow, which grows with what the other side
has taken and never shrinks. -/
def bodyLimit : Nat := 2 ^ 31 - 2 ^ 16

/-- The credit that a frame grants leaves room. -/
theorem Balanced.room (balanced : Balanced me peer (f :: rest) other sent)
    (bounded : peer.Bounded) (small : sent < bodyLimit) (scope : Nat) :
    me.sendWindowOf scope + (f.credit scope : Int) ≤ maxWindowSize := by
  have before := balanced scope
  have high := (bounded scope).2
  have limit : ((maxWindowSize : Nat) : Int) = 2147483647 := rfl
  have below : sent < 2 ^ 31 - 2 ^ 16 := small
  rw [credits_cons] at before
  rw [limit]
  push_cast at before
  omega

end Books

/-! ### The exchange -/

/-- Requests that two sessions can manage. -/
structure Manageable (read : Request → Message) (handler : Request → Response)
    (start : Option StartHandler) (requests : List Request) : Prop where
  few : requests.length < 2 ^ 29
  readable : ∀ req ∈ requests, ReadsAs req (read req)
  declined : ∀ req ∈ requests, Connection.Declines start (read req).requestHead
  answerable : ∀ req ∈ requests, (responseMessage (handler (read req).request)).Sendable
  requestTotal : bodyTotal (requestMessages read requests) < bodyLimit
  answerTotal : bodyTotal ((requestMessages read requests).map (answer handler)) < bodyLimit

section Manageability

variable {read : Request → Message} {handler : Request → Response} {start : Option StartHandler}
  {requests : List Request}

theorem Manageable.orderly (manageable : Manageable read handler start requests) :
    Orderly handler start (requestMessages read requests) := by
  have entries {index : Nat} {entry : Nat × Message}
      (found : (requestMessages read requests)[index]? = some entry) :
      ∃ req ∈ requests, entry = (2 * index + 1, read req) := by
    rw [getElem?_requestMessages, Option.map_eq_some_iff] at found
    obtain ⟨req, is, rfl⟩ := found
    exact ⟨req, List.mem_of_getElem? is, rfl⟩
  refine ⟨fun index entry found => ?_, ?_, fun index entry found => ?_, fun index entry found => ?_,
    fun index entry found => ?_⟩
  · obtain ⟨req, _, rfl⟩ := entries found
    rfl
  · rw [length_requestMessages]
    exact manageable.few
  · obtain ⟨req, member, rfl⟩ := entries found
    exact (manageable.readable req member).single
  · obtain ⟨req, member, rfl⟩ := entries found
    exact manageable.declined req member
  · obtain ⟨req, member, rfl⟩ := entries found
    exact manageable.answerable req member

theorem Manageable.of_append {more : List Request}
    (manageable : Manageable read handler start (requests ++ more)) :
    Manageable read handler start requests := by
  have front : requestMessages read (requests ++ more) = requestMessages read requests ++
      more.mapIdx fun index req => (2 * (index + requests.length) + 1, read req) :=
    List.mapIdx_append
  have few := manageable.few
  have requestTotal := manageable.requestTotal
  have answerTotal := manageable.answerTotal
  rw [List.length_append] at few
  rw [front, bodyTotal_append] at requestTotal
  rw [front, List.map_append, bodyTotal_append] at answerTotal
  exact ⟨by omega, fun req member => manageable.readable req (List.mem_append_left more member),
    fun req member => manageable.declined req (List.mem_append_left more member),
    fun req member => manageable.answerable req (List.mem_append_left more member), by omega,
    by omega⟩

theorem answers_take_lt (served : Nat) (manageable : Manageable read handler start requests) :
    bodyTotal (((requestMessages read requests).take served).map (answer handler)) < bodyLimit := by
  refine lt_of_le_of_lt ?_ manageable.answerTotal
  conv_rhs => rw [← List.take_append_drop served (requestMessages read requests)]
  rw [List.map_append, bodyTotal_append]
  exact Nat.le_add_right _ _

theorem streamId_answers (manageable : Manageable read handler start requests) (served : Nat)
    (index : Nat) (entry : Nat × Message)
    (found : (((requestMessages read requests).take served).map (answer handler))[index]? =
      some entry) : entry.1 = 2 * index + 1 := by
  rw [List.getElem?_map, Option.map_eq_some_iff] at found
  obtain ⟨request, is, rfl⟩ := found
  rw [List.getElem?_take] at is
  split at is
  · exact manageable.orderly.streamId index request is
  · exact absurd is (Option.some_ne_none _).symm

end Manageability

/-- A client and a server with the frames on their way between them. -/
structure Exchange (read : Request → Message) (handler : Request → Response)
    (start : Option StartHandler) (requests : List Request) (client server : Connection)
    (toServer toClient : List Frame) : Prop where
  sides : ∃ served finished reading reading',
    ServerSide start (requestMessages read requests) toServer server served reading ∧
      ClientSide requests.length (((requestMessages read requests).take served).map
        (answer handler))
        toClient client finished reading' ∧
      Balanced server client toServer toClient
        (bodyTotal (((requestMessages read requests).take served).map (answer handler)))
  balanced : Balanced client server toClient toServer (bodyTotal (requestMessages read requests))

/-- What is left to be done: the requests to be served first, then the frames to be taken. -/
def remaining (start : Option StartHandler) (requests : List Request) (server : Connection)
    (toServer toClient : List Frame) : ℕ ×ₗ ℕ :=
  toLex (requests.length - (Connection.answerCalls start server.events).length,
    efforts toServer + efforts toClient)

section Exchanges

variable {read : Request → Message} {handler : Request → Response} {start : Option StartHandler}
  {requests : List Request}
  {client server : Connection} {f : Frame} {toServer toClient : List Frame}

theorem ServerSide.length_calls {messages : List (Nat × Message)} {served : Nat} {reading : Reading}
    (side : ServerSide start messages toServer server served reading) :
    (Connection.answerCalls start server.events).length ≤ messages.length := by
  rw [side.calls, List.length_map]
  exact List.length_take_le' _ _

/-- The server takes the next frame. -/
theorem Exchange.server_receives (manageable : Manageable read handler start requests)
    (exchange : Exchange read handler start requests client server (f :: toServer) toClient) :
    ∃ after replies, server.processFrame (Connection.serverConfig handler start) f = .ok after ∧
      Connection.Receipt f replies server after ∧
      Exchange read handler start requests client after toServer (toClient ++ replies) ∧
      remaining start requests after toServer (toClient ++ replies) <
        remaining start requests server (f :: toServer) toClient := by
  obtain ⟨served, finished, reading, reading', serverSide, clientSide, balanced⟩ := exchange.sides
  have room := balanced.room clientSide.steady.bounded (answers_take_lt served manageable)
  obtain ⟨after, replies, run, step⟩ := serverSide.receive manageable.orderly room
  obtain ⟨served', reading'', more, side, spelled, light, answers⟩ := step.side
  refine ⟨after, replies, run, step.receipt,
    ⟨⟨served', finished, reading'', reading', side, ?_, ?_⟩,
    exchange.balanced.receive step.receipt⟩, ?_⟩
  · rw [answers]
    refine clientSide.extend spelled ?_ ?_
    · rw [← answers, List.length_map, ← length_requestMessages read requests]
      exact List.length_take_le' _ _
    · rw [← answers]
      exact streamId_answers manageable served'
  · rw [answers, bodyTotal_append]
    exact balanced.reply step.receipt light
  · have length := side.length_calls
    rw [length_requestMessages] at length
    unfold remaining
    rw [Prod.Lex.toLex_lt_toLex, efforts_append, efforts_cons]
    rcases step.nearer with more | ⟨same, less⟩
    · exact Or.inl (by dsimp only; omega)
    · exact Or.inr ⟨by rw [same], by dsimp only; omega⟩

/-- The client takes the next frame. -/
theorem Exchange.client_receives (manageable : Manageable read handler start requests)
    (exchange : Exchange read handler start requests client server toServer (f :: toClient)) :
    ∃ after replies, client.processFrame Connection.clientConfig f = .ok after ∧
      Connection.Receipt f replies client after ∧
      Exchange read handler start requests after server (toServer ++ replies) toClient ∧
      remaining start requests server (toServer ++ replies) toClient <
        remaining start requests server toServer (f :: toClient) := by
  obtain ⟨served, finished, reading, reading', serverSide, clientSide, balanced⟩ := exchange.sides
  have room := exchange.balanced.room serverSide.steady.bounded manageable.requestTotal
  obtain ⟨after, replies, run, step⟩ := clientSide.receive manageable.few room
  obtain ⟨finished', reading'', side⟩ := step.side
  have extended := serverSide.extend (Spells.of_controls replies step.controls)
  rw [List.append_nil] at extended
  refine ⟨after, replies, run, step.receipt,
    ⟨⟨served, finished', reading, reading'', extended, side,
    balanced.receive step.receipt⟩, ?_⟩, ?_⟩
  · have replied := exchange.balanced.reply step.receipt fun scope =>
      (loads_of_controls scope replies step.controls).le
    rw [Nat.add_zero] at replied
    exact replied
  · have less := step.nearer
    unfold remaining
    rw [Prod.Lex.toLex_lt_toLex, efforts_append, efforts_cons]
    exact Or.inr ⟨rfl, by dsimp only; omega⟩

/-- The client submits a request. -/
theorem Exchange.submits (req : Request)
    (manageable : Manageable read handler start (requests ++ [req]))
    (exchange : Exchange read handler start requests client server toServer toClient) :
    ∃ frames, (∀ f ∈ frames, f.Proper) ∧
      (client.doSubmitRequest req (some (.caller requests.length)) false).outputBuf =
        client.outputBuf ++ frames.flatMap Frame.wire ∧
      Exchange read handler start (requests ++ [req])
        (client.doSubmitRequest req (some (.caller requests.length)) false) server
        (toServer ++ frames) toClient := by
  obtain ⟨served, finished, reading, reading', serverSide, clientSide, balanced⟩ := exchange.sides
  have sid := clientSide.nextStreamId
  have few := manageable.few
  rw [List.length_append, List.length_singleton] at few
  have reads := manageable.readable req (List.mem_append_right requests List.mem_cons_self)
  have moves := Connection.moves_doSubmitRequest client req (some (.caller requests.length))
  have view := Connection.view_doSubmitRequest client req (some (.caller requests.length))
    (clientSide.absent _ sid.ge)
  have quiet := Connection.quiet_doSubmitRequest client req (some (.caller requests.length)) false
  rw [sid, clientSide.steady.peerMaxFrameSize] at moves
  rw [sid] at view
  set after := client.doSubmitRequest req (some (.caller requests.length)) false
  set block := (client.encoder.encode (Connection.requestHeaders req)).1
  set frames := messageFrames (2 * requests.length + 1) 16384 (requestMessage req) block []
  have silent (scope : Nat) : credits scope frames = 0 := credits_messageFrames scope _ _ _ _ _
  have spelled : Spells none frames [(2 * requests.length + 1, read req)] := by
    have same : frames = messageFrames (2 * requests.length + 1) 16384 (read req) block [] := by
      unfold frames messageFrames Message.bare
      rw [reads.body, reads.single]
      rfl
    rw [same]
    refine spells_messageFrames (by decide) le_rfl _ _ _
      (reads.decodes _ clientSide.steady.maxTableSize) fun trailers given => ?_
    exact absurd (reads.single.symm.trans given) (Option.some_ne_none trailers).symm
  have bounded : after.Bounded := moves.bounded silent clientSide.steady.bounded
  have sendWindow (scope : Nat) : after.sendWindowOf scope = client.sendWindowOf scope :=
    moves.sendWindow scope
  have recvWindow (scope : Nat) : after.recvWindowOf scope = client.recvWindowOf scope := by
    have same := moves.recvWindow scope
    rw [silent scope, ite_self] at same
    exact add_right_cancel same
  have kept : ((requestMessages read (requests ++ [req])).take served) =
      (requestMessages read requests).take served := by
    have inside : served ≤ (requestMessages read requests).length :=
      (le_started served reading).trans serverSide.within
    rw [requestMessages_append, List.take_append_of_le_length inside]
  refine ⟨frames, proper_messageFrames _ _ _ _ _ (by omega) (by decide), moves.outputBuf,
    ⟨served, finished, reading, reading', ?_, ?_, ?_⟩, ?_⟩
  · rw [requestMessages_append]
    exact serverSide.extend spelled
  · rw [kept, List.length_append, List.length_singleton]
    exact clientSide.submits quiet
      (moves.steady { clientSide.steady with peerMaxFrameSize := rfl } bounded) moves.others
      moves.nextStreamId view
  · rw [kept]
    intro scope
    rw [credits_append, silent scope, recvWindow scope]
    exact balanced scope
  · intro scope
    have before := exchange.balanced scope
    have weight : loads scope frames ≤ req.bd.length := loads_messageFrames_le scope _ _ _ _ _
    have total : bodyTotal (requestMessages read (requests ++ [req])) =
        bodyTotal (requestMessages read requests) + req.bd.length := by
      rw [requestMessages_append, bodyTotal_append, ← reads.body]
      rfl
    rw [total, loads_append, sendWindow scope]
    push_cast
    omega

theorem Exchange.alive_server
    (exchange : Exchange read handler start requests client server toServer toClient) :
    server.alive = true := by
  obtain ⟨_, _, _, _, side, _⟩ := exchange.sides
  exact side.steady.alive

theorem Exchange.alive_client
    (exchange : Exchange read handler start requests client server toServer toClient) :
    client.alive = true := by
  obtain ⟨_, _, _, _, _, side, _⟩ := exchange.sides
  exact side.steady.alive

/-- The server hands its output to the network. -/
theorem Exchange.server_flushes
    (exchange : Exchange read handler start requests client server toServer toClient) :
    Exchange read handler start requests client (server.command .getPendingOutput) toServer
      toClient := by
  obtain ⟨served, finished, reading, reading', serverSide, clientSide, balanced⟩ := exchange.sides
  exact ⟨⟨served, finished, reading, reading',
    { serverSide with steady := { serverSide.steady with } }, clientSide, balanced⟩,
    exchange.balanced⟩

/-- The client hands its output to the network. -/
theorem Exchange.client_flushes
    (exchange : Exchange read handler start requests client server toServer toClient) :
    Exchange read handler start requests (client.command .getPendingOutput) server toServer
      toClient := by
  obtain ⟨served, finished, reading, reading', serverSide, clientSide, balanced⟩ := exchange.sides
  exact ⟨⟨served, finished, reading, reading', serverSide,
    { clientSide with steady := { clientSide.steady with } }, balanced⟩, exchange.balanced⟩

end Exchanges

theorem steady_create (mode : Mode) : (Connection.create mode).Steady := by
  refine ⟨rfl, rfl, rfl, by show 4096 < 2 ^ 64; decide, fun scope => ?_⟩
  have full : (Connection.create mode).recvWindowOf scope = 65535 := by
    unfold Connection.recvWindowOf
    split <;> rfl
  rw [full]
  decide

/-- Each side has sent its settings, and nothing else. -/
theorem exchange_create (read : Request → Message) (handler : Request → Response)
    (start : Option StartHandler) :
    Exchange read handler start [] (Connection.create .client) (Connection.create .server)
      [settingsFrame] [settingsFrame] := by
  have spells : Spells none [settingsFrame] [] := .control .settings .nothing
  have balanced (left right : Mode) : Balanced (Connection.create left) (Connection.create right)
      [settingsFrame] [settingsFrame] 0 := by
    intro scope
    have full : (Connection.create left).sendWindowOf scope = 65535 := by
      unfold Connection.sendWindowOf
      split <;> rfl
    have full' : (Connection.create right).recvWindowOf scope = 65535 := by
      unfold Connection.recvWindowOf
      split <;> rfl
    rw [full, full']
    rfl
  refine ⟨⟨0, 0, none, none, ?_, ?_, balanced .server .client⟩, balanced .client .server⟩
  · exact {
      steady := steady_create .server
      spells := spells
      within := le_rfl
      reads := fun _ _ _ is => absurd is (Option.some_ne_none _).symm
      waiting := rfl
      absent := fun _ _ => rfl
      calls := by
        cases start with
        | none => rfl
        | some _ => rfl }
  · exact {
      steady := steady_create .client
      spells := spells
      within := le_rfl
      asked := le_rfl
      streamId := fun _ _ found => absurd found (Option.some_ne_none _).symm
      reads := fun _ _ _ is => absurd is (Option.some_ne_none _).symm
      waiting := rfl
      fresh := fun _ _ none => absurd none (Nat.not_lt_zero _)
      absent := fun _ _ => rfl
      nextStreamId := rfl
      completed := fun _ _ none => absurd none (Nat.not_lt_zero _)
      unfailed := fun _ => rfl }

/-- When no frame is on its way, every request has been served and every answer has been read. -/
theorem Exchange.all_done {read : Request → Message} {handler : Request → Response}
    {start : Option StartHandler} {requests : List Request} {client server : Connection}
    (exchange : Exchange read handler start requests client server [] []) :
    Connection.answerCalls start server.events =
        requests.map (fun req => Event.requestHandler (read req).request) ∧
      ∀ index req, requests[index]? = some req →
        (client.promises (.caller index)).complete = true ∧
          (client.promises (.caller index)).error = false ∧
          (client.promises (.caller index)).resp =
            (responseMessage (handler (read req).request)).response := by
  obtain ⟨served, finished, reading, reading', serverSide, clientSide, -⟩ := exchange.sides
  obtain ⟨rfl, left⟩ := serverSide.spells.eq_nil
  obtain ⟨rfl, left'⟩ := clientSide.spells.eq_nil
  have all : (requestMessages read requests).take served = requestMessages read requests :=
    List.take_of_length_le (List.drop_eq_nil_iff.mp left)
  rw [all] at clientSide left'
  have calls := serverSide.calls
  rw [all] at calls
  refine ⟨calls.trans ?_, fun index req is => ?_⟩
  · refine List.ext_getElem? fun index => ?_
    rw [List.getElem?_map, getElem?_requestMessages, List.getElem?_map, Option.map_map]
    rfl
  · have found : ((requestMessages read requests).map (answer handler))[index]? =
        some (answer handler (2 * index + 1, read req)) := by
      rw [List.getElem?_map, getElem?_requestMessages, is]
      rfl
    have inside := (List.getElem?_eq_some_iff.mp found).1
    exact clientSide.completed index _ (inside.trans_le (List.drop_eq_nil_iff.mp left')) found

end AsyncNet.Http
