/-
This file is about the requests that a client submits to an `http3_session` before and after
its handshake is complete. There is room for one request that waits for the handshake, and a
request whose stream cannot be opened after it is dropped without a word to its promise. So
every request is opened once on a stream of its own, or its promise is completed with an
error, if and only if at most one request is submitted before the handshake and the streams of
those after it can be opened.
-/

import Mathlib.Data.List.Nodup
import AsyncNet.Http.Http3Session

namespace AsyncNet.Http.H3

open H2

/-- A call of `submit_request`: the request and the address of its promise. -/
structure Submission where
  req : Request
  promise : Nat
  deriving DecidableEq, Repr

namespace Session

def submit (session : Session) (submission : Submission) : Session :=
  (session.submitRequest submission.req (some submission.promise)).2

/-- Calls before the handshake is complete, and calls after it. -/
def runHandshake (session : Session) (before after : List Submission) : Session :=
  after.foldl submit (before.foldl submit session).handshakeCompleted

/-! ### What is to hold -/

/-- The stream of a request. -/
def requestStream (streamId : Nat) (submission : Submission) : StreamState :=
  { streamId, state := .opened, sendBuf := requestFrames submission.req
    promise := some submission.promise }

/-- The data that ends a stream, and the stream. -/
def finished : Event → Option (Nat × Bytes)
  | .write streamId data true => some (streamId, data)
  | _ => none

/-- A request is on a stream that was not there earlier and that no other request is on, with its
promise, and has been written to it once. -/
def OpenedOnce (earlier session : Session) (submission : Submission) : Prop :=
  ∃ streamId, earlier.streams streamId = none ∧
    session.streams streamId = some (requestStream streamId submission) ∧
    (∀ other ss, session.streams other = some ss → ss.promise = some submission.promise →
      other = streamId) ∧
    (session.events.filterMap finished).filter (fun entry => entry.1 = streamId) =
      [(streamId, requestFrames submission.req)]

/-- The promise of a request has been completed with an error. -/
def FailedPromise (session : Session) (submission : Submission) : Prop :=
  (session.promises submission.promise).complete = true ∧
    (session.promises submission.promise).error = true

/-- A client session before its handshake, with the promises of requests that are to come. -/
structure Starts (session : Session) (submissions : List Submission) : Prop where
  mode : session.mode = .client
  handshakeDone : session.handshakeDone = false
  hasPendingRequest : session.hasPendingRequest = false
  streams : ∀ streamId, session.streams streamId = none
  events : session.events = []
  promises : ∀ submission ∈ submissions,
    (session.promises submission.promise).complete = false
  distinct : (submissions.map Submission.promise).Nodup
  fresh : ∀ call other streamId, session.bidiOpens call = some streamId →
    session.bidiOpens other = some streamId → call = other

/-! ### After the handshake -/

/-- A session after its handshake, and the requests on its streams. -/
structure Tracks (session : Session) (history : List (Nat × Submission)) : Prop where
  handshakeDone : session.handshakeDone = true
  streams : ∀ streamId ss, session.streams streamId = some ss ↔
    ∃ submission, (streamId, submission) ∈ history ∧ ss = requestStream streamId submission
  writes : session.events.filterMap finished =
    history.map fun entry => (entry.1, requestFrames entry.2.req)
  distinct : (history.map Prod.fst).Nodup
  unused : ∀ entry ∈ history, ∀ call, session.bidiOpens call ≠ some entry.1
  fresh : ∀ call other streamId, session.bidiOpens call = some streamId →
    session.bidiOpens other = some streamId → call = other

/-- A request that is put on a stream that the library has opened. -/
theorem Tracks.openRequest {session : Session} {history : List (Nat × Submission)}
    (tracks : session.Tracks history) {streamId : Nat}
    (opened : session.bidiOpens 0 = some streamId) (submission : Submission) :
    (session.openBidiStream.2.openRequest streamId submission.req
      (some submission.promise)).Tracks (history ++ [(streamId, submission)]) := by
  have absent : session.streams streamId = none := by
    rw [Option.eq_none_iff_forall_ne_some]
    intro ss found
    obtain ⟨other, member, _⟩ := (tracks.streams streamId ss).mp found
    exact tracks.unused _ member 0 opened
  have new : session.openBidiStream.2.stream streamId = {} := by
    show (session.streams streamId).getD {} = {}
    rw [absent]
    rfl
  refine ⟨tracks.handshakeDone, fun other ss => ?_, ?_, ?_, ?_, ?_⟩
  · show (if other = streamId then some _ else session.streams other) = some ss ↔ _
    rw [new]
    by_cases same : other = streamId
    · subst same
      rw [if_pos rfl, Option.some.injEq]
      constructor
      · rintro rfl
        exact ⟨submission, List.mem_append_right _ List.mem_cons_self, rfl⟩
      · rintro ⟨other, member, rfl⟩
        obtain older | last := List.mem_append.mp member
        · exact absurd opened (tracks.unused _ older 0)
        · cases List.mem_singleton.mp last
          rfl
    · rw [if_neg same, tracks.streams]
      constructor
      · rintro ⟨given, member, rfl⟩
        exact ⟨given, List.mem_append_left _ member, rfl⟩
      · rintro ⟨given, member, rfl⟩
        obtain older | last := List.mem_append.mp member
        · exact ⟨given, older, rfl⟩
        · cases List.mem_singleton.mp last
          exact absurd rfl same
  · show (session.events ++ [_]).filterMap finished = _
    rw [List.filterMap_append, tracks.writes, List.map_append]
    rfl
  · rw [List.map_append, List.nodup_append]
    refine ⟨tracks.distinct, List.nodup_singleton _, fun old member new fresh => ?_⟩
    obtain ⟨entry, found, rfl⟩ := List.mem_map.mp member
    rw [List.mem_singleton.mp fresh]
    rintro rfl
    exact tracks.unused entry found 0 opened
  · intro entry member call answer
    obtain older | last := List.mem_append.mp member
    · exact tracks.unused entry older (call + 1) answer
    · rw [List.mem_singleton.mp last] at answer
      exact absurd (tracks.fresh (call + 1) 0 streamId answer opened) (Nat.succ_ne_zero call)
  · intro call other given answer again
    exact Nat.succ.inj (tracks.fresh (call + 1) (other + 1) given answer again)

/-- A call that opens no stream leaves the requests where they are. -/
theorem Tracks.openBidiStream {session : Session} {history : List (Nat × Submission)}
    (tracks : session.Tracks history) : session.openBidiStream.2.Tracks history where
  handshakeDone := tracks.handshakeDone
  streams := tracks.streams
  writes := tracks.writes
  distinct := tracks.distinct
  unused := fun entry member call => tracks.unused entry member (call + 1)
  fresh := fun call other given answer again =>
    Nat.succ.inj (tracks.fresh (call + 1) (other + 1) given answer again)

/-- The requests for which the library opens a stream, with their streams. -/
def openedFor : (Nat → Option Nat) → List Submission → List (Nat × Submission)
  | _, [] => []
  | answers, submission :: submissions =>
      (answers 0).toList.map (fun streamId => (streamId, submission)) ++
        openedFor (fun call => answers (call + 1)) submissions

theorem Tracks.submit {session : Session} {history : List (Nat × Submission)}
    (tracks : session.Tracks history) (submission : Submission) :
    (session.submit submission).Tracks
        (history ++ (session.bidiOpens 0).toList.map fun streamId => (streamId, submission)) ∧
      (session.submit submission).bidiOpens = (fun call => session.bidiOpens (call + 1)) ∧
      (session.submit submission).promises = session.promises := by
  unfold Session.submit submitRequest
  rw [if_pos tracks.handshakeDone]
  cases opened : session.bidiOpens 0 with
  | none =>
    have failed : session.openBidiStream = (none, session.openBidiStream.2) := by
      rw [← opened]
      rfl
    rw [failed]
    refine ⟨?_, rfl, rfl⟩
    rw [Option.toList_none, List.map_nil, List.append_nil]
    exact tracks.openBidiStream
  | some streamId =>
    have found : session.openBidiStream = (some streamId, session.openBidiStream.2) := by
      rw [← opened]
      rfl
    rw [found]
    exact ⟨tracks.openRequest opened submission, rfl, rfl⟩

/-- The calls after the handshake: the requests are on the streams that the library opened. -/
theorem Tracks.foldl_submit (submissions : List Submission) {session : Session}
    {history : List (Nat × Submission)} (tracks : session.Tracks history) :
    (submissions.foldl Session.submit session).Tracks
        (history ++ openedFor session.bidiOpens submissions) ∧
      (submissions.foldl Session.submit session).promises = session.promises := by
  induction submissions generalizing session history with
  | nil =>
    rw [openedFor, List.append_nil]
    exact ⟨tracks, rfl⟩
  | cons submission submissions inductionHypothesis =>
    obtain ⟨next, answers, promises⟩ := tracks.submit submission
    obtain ⟨final, kept⟩ := inductionHypothesis next
    rw [openedFor, ← List.append_assoc, ← answers]
    exact ⟨final, kept.trans promises⟩

/-! ### The handshake -/

/-- The request that waits for the handshake. -/
def queue (session : Session) (last : Submission) : Session :=
  { session with
    pendingRequest := last.req
    pendingPromise := some last.promise
    hasPendingRequest := true }

theorem submit_waiting {session : Session} (waiting : session.handshakeDone = false)
    (submission : Submission) : session.submit submission = session.queue submission := by
  rw [submit, submitRequest, if_neg (by rw [waiting]; nofun)]
  rfl

/-- The last of the calls before the handshake is the one that waits for it. -/
theorem foldl_submit_before (before : List Submission) (session : Session)
    (waiting : session.handshakeDone = false) :
    before.foldl submit session = before.getLast?.elim session session.queue := by
  induction before using List.reverseRecOn with
  | nil => rfl
  | append_singleton before last inductionHypothesis =>
    rw [List.foldl_append, inductionHypothesis, List.getLast?_append, List.getLast?_singleton]
    show submit _ last = session.queue last
    cases before.getLast? with
    | none => exact submit_waiting waiting last
    | some other => exact @submit_waiting (session.queue other) waiting last

/-- The parts of a session that the control streams are not about. -/
structure SameRequests (session other : Session) : Prop where
  mode : other.mode = session.mode
  handshakeDone : other.handshakeDone = session.handshakeDone
  streams : other.streams = session.streams
  pendingRequest : other.pendingRequest = session.pendingRequest
  pendingPromise : other.pendingPromise = session.pendingPromise
  hasPendingRequest : other.hasPendingRequest = session.hasPendingRequest
  promises : other.promises = session.promises
  bidiOpens : other.bidiOpens = session.bidiOpens
  writes : other.events.filterMap finished = session.events.filterMap finished

theorem SameRequests.trans {first second third : Session} (early : SameRequests first second)
    (late : SameRequests second third) : SameRequests first third where
  mode := late.mode.trans early.mode
  handshakeDone := late.handshakeDone.trans early.handshakeDone
  streams := late.streams.trans early.streams
  pendingRequest := late.pendingRequest.trans early.pendingRequest
  pendingPromise := late.pendingPromise.trans early.pendingPromise
  hasPendingRequest := late.hasPendingRequest.trans early.hasPendingRequest
  promises := late.promises.trans early.promises
  bidiOpens := late.bidiOpens.trans early.bidiOpens
  writes := late.writes.trans early.writes

/-- The identifiers of the control streams do not matter. -/
theorem SameRequests.named {session other : Session} (same : SameRequests session other)
    (control encoder decoder : Option Nat) :
    SameRequests session { other with
      controlStreamId := control
      qpackEncoderStreamId := encoder
      qpackDecoderStreamId := decoder } :=
  ⟨same.mode, same.handshakeDone, same.streams, same.pendingRequest, same.pendingPromise,
    same.hasPendingRequest, same.promises, same.bidiOpens, same.writes⟩

theorem sameRequests_openTypedStream (session : Session) (data : Bytes) :
    SameRequests session (session.openTypedStream data).2 := by
  unfold openTypedStream
  cases opened : session.uniOpens 0 with
  | none =>
    have failed : session.openUniStream = (none, session.openUniStream.2) := by
      rw [← opened]
      rfl
    rw [failed]
    exact ⟨rfl, rfl, rfl, rfl, rfl, rfl, rfl, rfl, rfl⟩
  | some streamId =>
    have found : session.openUniStream = (some streamId, session.openUniStream.2) := by
      rw [← opened]
      rfl
    rw [found]
    refine ⟨rfl, rfl, rfl, rfl, rfl, rfl, rfl, rfl, ?_⟩
    show (session.events ++ [_]).filterMap finished = _
    rw [List.filterMap_append]
    exact List.append_nil _

theorem sameRequests_openControlStreams (session : Session) :
    SameRequests session session.openControlStreams := by
  unfold openControlStreams
  split
  · exact ⟨rfl, rfl, rfl, rfl, rfl, rfl, rfl, rfl, rfl⟩
  · have control := sameRequests_openTypedStream session
      (encodeVarint StreamType.control.code ++ H3.buildSettingsFrame [(0x06, 8192)])
    generalize session.openTypedStream _ = opened at control
    obtain ⟨answer, next⟩ := opened
    simp only
    split
    · exact control
    · have named := control.named answer next.qpackEncoderStreamId next.qpackDecoderStreamId
      have encoder := named.trans
        (sameRequests_openTypedStream _ (encodeVarint StreamType.qpackEncoder.code))
      generalize ({ next with controlStreamId := answer } : Session).openTypedStream _ = opened
        at encoder
      obtain ⟨answer', next'⟩ := opened
      have decoder := (encoder.named next'.controlStreamId (answer'.or next'.qpackEncoderStreamId)
        next'.qpackDecoderStreamId).trans
        (sameRequests_openTypedStream _ (encodeVarint StreamType.qpackDecoder.code))
      exact decoder.named _ _ _

/-- The handshake itself opens no stream for requests. -/
theorem tracks_openControlStreams {session : Session}
    (streams : ∀ streamId, session.streams streamId = none) (events : session.events = [])
    (fresh : ∀ call other streamId, session.bidiOpens call = some streamId →
      session.bidiOpens other = some streamId → call = other) :
    ({ session with handshakeDone := true } : Session).openControlStreams.Tracks [] := by
  have same := sameRequests_openControlStreams { session with handshakeDone := true }
  refine ⟨same.handshakeDone, fun streamId ss => ?_, ?_, List.nodup_nil, nofun, ?_⟩
  · have none : ({ session with handshakeDone := true } : Session).openControlStreams.streams
        streamId = none := by
      rw [same.streams]
      exact streams streamId
    rw [none]
    constructor
    · nofun
    · rintro ⟨_, member, _⟩
      cases member
  · rw [same.writes]
    show session.events.filterMap finished = _
    rw [events]
    rfl
  · rw [same.bidiOpens]
    exact fresh

/-- A client's handshake goes on with the request that waits for it. -/
theorem handshakeCompleted_client {session : Session} (client : session.mode = .client) :
    session.handshakeCompleted =
      if session.hasPendingRequest then
        { session with handshakeDone := true }.openControlStreams.submitQueuedRequest
      else { session with handshakeDone := true }.openControlStreams := by
  have same := sameRequests_openControlStreams { session with handshakeDone := true }
  unfold handshakeCompleted
  simp only
  rw [same.mode, same.hasPendingRequest]
  dsimp only
  rw [client]

/-- The request that waits for the handshake is opened, or its promise completed with an error. -/
theorem Tracks.submitQueuedRequest {session : Session} (tracks : session.Tracks [])
    {last : Submission} (waits : session.hasPendingRequest = true)
    (request : session.pendingRequest = last.req)
    (promise : session.pendingPromise = some last.promise) :
    ∃ history, session.submitQueuedRequest.Tracks history ∧
      session.submitQueuedRequest.bidiOpens = (fun call => session.bidiOpens (1 + call)) ∧
      (∀ ref, ref ≠ last.promise →
        session.submitQueuedRequest.promises ref = session.promises ref) ∧
      (∀ entry ∈ history, entry.2 = last) ∧ history.length ≤ 1 ∧
      ((∃ streamId, (streamId, last) ∈ history) ∨
        session.submitQueuedRequest.FailedPromise last) := by
  have shifted : (fun call => session.bidiOpens (call + 1)) =
      fun call => session.bidiOpens (1 + call) := by
    funext call
    rw [Nat.add_comm]
  have idle : ({ session with hasPendingRequest := false } : Session).Tracks [] :=
    ⟨tracks.handshakeDone, tracks.streams, tracks.writes, tracks.distinct, tracks.unused,
      tracks.fresh⟩
  have answers : ({ session with hasPendingRequest := false } : Session).bidiOpens =
    session.bidiOpens := rfl
  have promises : ({ session with hasPendingRequest := false } : Session).promises =
    session.promises := rfl
  replace request : ({ session with hasPendingRequest := false } : Session).pendingRequest =
    last.req := request
  replace promise : ({ session with hasPendingRequest := false } : Session).pendingPromise =
    some last.promise := promise
  rw [Session.submitQueuedRequest, if_pos waits]
  simp only
  generalize ({ session with hasPendingRequest := false } : Session) = taken at *
  rw [← shifted, ← answers, ← promises]
  cases opened : taken.bidiOpens 0 with
  | none =>
    have failed : taken.openBidiStream = (none, taken.openBidiStream.2) := by
      rw [← opened]
      rfl
    have waiting : taken.openBidiStream.2.pendingPromise = some last.promise := promise
    rw [failed]
    simp only
    rw [waiting]
    have later := idle.openBidiStream
    refine ⟨[], ⟨later.handshakeDone, later.streams, later.writes, later.distinct, later.unused,
      later.fresh⟩, rfl, fun ref other => if_neg other, nofun, Nat.zero_le _, Or.inr ?_⟩
    constructor
    · exact congrArg ResponsePromise.complete (if_pos rfl)
    · exact congrArg ResponsePromise.error (if_pos rfl)
  | some streamId =>
    have found : taken.openBidiStream = (some streamId, taken.openBidiStream.2) := by
      rw [← opened]
      rfl
    have queued : taken.openBidiStream.2.pendingRequest = last.req := request
    have waiting : taken.openBidiStream.2.pendingPromise = some last.promise := promise
    rw [found]
    simp only
    rw [queued, waiting]
    refine ⟨[(streamId, last)], idle.openRequest opened last, rfl, fun _ _ => rfl, ?_,
      Nat.le_refl 1, Or.inl ⟨streamId, List.mem_cons_self⟩⟩
    intro entry member
    rw [List.mem_singleton.mp member]

/-- What the handshake does with the requests before it. -/
theorem handshakeCompleted_spec {session : Session} {before after : List Submission}
    (starts : session.Starts (before ++ after)) :
    ∃ history, (before.foldl submit session).handshakeCompleted.Tracks history ∧
      ((before.foldl submit session).handshakeCompleted.bidiOpens =
        fun call => session.bidiOpens (min before.length 1 + call)) ∧
      (∀ ref, (∀ last ∈ before.getLast?, ref ≠ last.promise) →
        (before.foldl submit session).handshakeCompleted.promises ref = session.promises ref) ∧
      (∀ entry ∈ history, entry.2 ∈ before.getLast?) ∧ history.length ≤ 1 ∧
      ∀ last ∈ before.getLast?, (∃ streamId, (streamId, last) ∈ history) ∨
        (before.foldl submit session).handshakeCompleted.FailedPromise last := by
  rw [foldl_submit_before before session starts.handshakeDone]
  cases found : before.getLast? with
  | none =>
    rw [List.getLast?_eq_none_iff] at found
    subst found
    have same := sameRequests_openControlStreams { session with handshakeDone := true }
    have tracks := tracks_openControlStreams starts.streams starts.events starts.fresh
    rw [Option.elim_none, handshakeCompleted_client starts.mode,
      if_neg (by rw [starts.hasPendingRequest]; nofun)]
    refine ⟨[], tracks, ?_, fun ref _ => ?_, nofun, Nat.zero_le _, nofun⟩
    · rw [same.bidiOpens]
      funext call
      exact congrArg session.bidiOpens (Nat.zero_add call).symm
    · rw [same.promises]
  | some last =>
    have some : before ≠ [] := by
      rintro rfl
      cases found
    have positive := List.length_pos_of_ne_nil some
    have same := sameRequests_openControlStreams { session.queue last with handshakeDone := true }
    have tracks := @tracks_openControlStreams (session.queue last) starts.streams
      starts.events starts.fresh
    obtain ⟨history, final, answers, promises, only, few, settled⟩ :=
      tracks.submitQueuedRequest same.hasPendingRequest same.pendingRequest same.pendingPromise
    have waits : (session.queue last).hasPendingRequest = true := rfl
    rw [Option.elim_some, @handshakeCompleted_client (session.queue last) starts.mode,
      if_pos waits]
    refine ⟨history, final, ?_, fun ref other => ?_, fun entry member => ?_, few, ?_⟩
    · rw [answers, same.bidiOpens, Nat.min_eq_right positive]
      rfl
    · rw [promises ref (other last rfl), same.promises]
      rfl
    · rw [only entry member]
      exact rfl
    · rintro _ ⟨⟩
      exact settled

/-! ### Every request -/

theorem mem_openedFor {answers : Nat → Option Nat} {submissions : List Submission}
    {entry : Nat × Submission} (member : entry ∈ openedFor answers submissions) :
    entry.2 ∈ submissions := by
  induction submissions generalizing answers with
  | nil => cases member
  | cons submission submissions inductionHypothesis =>
    obtain first | later := List.mem_append.mp member
    · obtain ⟨streamId, _, rfl⟩ := List.mem_map.mp first
      exact List.mem_cons_self
    · exact List.mem_cons_of_mem _ (inductionHypothesis later)

theorem openedFor_sublist (answers : Nat → Option Nat) (submissions : List Submission) :
    ((openedFor answers submissions).map Prod.snd).Sublist submissions := by
  induction submissions generalizing answers with
  | nil => exact List.Sublist.slnil
  | cons submission submissions inductionHypothesis =>
    rw [openedFor, List.map_append]
    have later := inductionHypothesis fun call => answers (call + 1)
    cases answers 0 with
    | none => exact later.cons submission
    | some streamId => exact later.cons_cons submission

/-- All of the requests are opened if and only if the library opens all of the streams. -/
theorem forall_openedFor_iff {submissions : List Submission} (answers : Nat → Option Nat)
    (distinct : submissions.Nodup) :
    (∀ submission ∈ submissions,
      ∃ streamId, (streamId, submission) ∈ openedFor answers submissions) ↔
      ∀ call < submissions.length, (answers call).isSome := by
  induction submissions generalizing answers with
  | nil => exact ⟨nofun, nofun⟩
  | cons submission submissions inductionHypothesis =>
    obtain ⟨new, rest⟩ := List.nodup_cons.mp distinct
    have later := inductionHypothesis (fun call => answers (call + 1)) rest
    constructor
    · intro all
      have opened : (answers 0).isSome := by
        obtain ⟨streamId, member⟩ := all submission List.mem_cons_self
        obtain first | last := List.mem_append.mp member
        · obtain ⟨given, found, _⟩ := List.mem_map.mp first
          rw [Option.mem_toList.mp found]
          rfl
        · exact absurd (mem_openedFor last) new
      have others := later.mp fun other member => by
        obtain ⟨streamId, found⟩ := all other (List.mem_cons_of_mem _ member)
        obtain first | last := List.mem_append.mp found
        · obtain ⟨given, _, same⟩ := List.mem_map.mp first
          cases same
          exact absurd member new
        · exact ⟨streamId, last⟩
      intro call less
      cases call with
      | zero => exact opened
      | succ call => exact others call (Nat.lt_of_succ_lt_succ less)
    · intro all other member
      obtain rfl | member := List.mem_cons.mp member
      · obtain ⟨streamId, found⟩ := Option.isSome_iff_exists.mp (all 0 (Nat.succ_pos _))
        refine ⟨streamId, List.mem_append_left _ ?_⟩
        rw [found]
        exact List.mem_cons_self
      · obtain ⟨streamId, found⟩ := later.mpr
          (fun call less => all (call + 1) (Nat.succ_lt_succ less)) other member
        exact ⟨streamId, List.mem_append_right _ found⟩

/-- Of entries with different keys, one has a given key. -/
theorem filter_key {Value : Type} {entries : List (Nat × Value)} {entry : Nat × Value}
    (distinct : (entries.map Prod.fst).Nodup) (member : entry ∈ entries) :
    entries.filter (fun other => other.1 = entry.1) = [entry] := by
  induction entries with
  | nil => cases member
  | cons first entries inductionHypothesis =>
    obtain ⟨new, rest⟩ := List.nodup_cons.mp distinct
    obtain rfl | later := List.mem_cons.mp member
    · rw [List.filter_cons_of_pos (by simp), List.filter_eq_nil_iff.mpr]
      intro other found same
      exact new (of_decide_eq_true same ▸ List.mem_map_of_mem found)
    · have differs : first.1 ≠ entry.1 := fun same => new (same ▸ List.mem_map_of_mem later)
      rw [List.filter_cons_of_neg (by simpa using differs), inductionHypothesis rest later]

/-- A request that is on a stream is there once. -/
theorem Tracks.openedOnce {session earlier : Session} {history : List (Nat × Submission)}
    (tracks : session.Tracks history) (promises : (history.map (·.2.promise)).Nodup)
    (none : ∀ streamId, earlier.streams streamId = none) {streamId : Nat} {submission : Submission}
    (member : (streamId, submission) ∈ history) : OpenedOnce earlier session submission := by
  refine ⟨streamId, none streamId, (tracks.streams _ _).mpr ⟨submission, member, rfl⟩, ?_, ?_⟩
  · intro other ss found promise
    obtain ⟨given, there, rfl⟩ := (tracks.streams _ _).mp found
    have same := List.inj_on_of_nodup_map promises there member (Option.some.inj promise)
    exact congrArg Prod.fst same
  · rw [tracks.writes]
    refine @filter_key _ _ (streamId, requestFrames submission.req) ?_
      (List.mem_map.mpr ⟨_, member, rfl⟩)
    rw [List.map_map]
    exact tracks.distinct

theorem Tracks.mem_of_openedOnce {session earlier : Session} {history : List (Nat × Submission)}
    (tracks : session.Tracks history) {submission : Submission}
    (opened : OpenedOnce earlier session submission) :
    ∃ entry ∈ history, entry.2.promise = submission.promise := by
  obtain ⟨streamId, _, found, _⟩ := opened
  obtain ⟨other, member, same⟩ := (tracks.streams _ _).mp found
  exact ⟨_, member, (Option.some.inj (congrArg StreamState.promise same)).symm⟩

/-- A request that was overwritten, or that found no stream, is not settled. -/
theorem not_settled {session earlier : Session} {history : List (Nat × Submission)}
    (tracks : session.Tracks history) {submission : Submission}
    (absent : ∀ entry ∈ history, entry.2.promise ≠ submission.promise)
    (incomplete : (session.promises submission.promise).complete = false) :
    ¬ (OpenedOnce earlier session submission ∨ session.FailedPromise submission) := by
  rintro (opened | ⟨complete, _⟩)
  · obtain ⟨entry, member, same⟩ := tracks.mem_of_openedOnce opened
    exact absent entry member same
  · rw [incomplete] at complete
    cases complete

/-- How a run ends: what became of the last request before the handshake, and the streams of the
requests after it. -/
structure Ends (session : Session) (before after : List Submission)
    (history : List (Nat × Submission)) : Prop where
  tracks : (session.runHandshake before after).Tracks (history ++
    openedFor (fun call => session.bidiOpens (min before.length 1 + call)) after)
  promises : ∀ submission ∈ before ++ after,
    (∀ last ∈ before.getLast?, submission.promise ≠ last.promise) →
      ((session.runHandshake before after).promises submission.promise).complete = false
  only : ∀ entry ∈ history, entry.2 ∈ before.getLast?
  few : history.length ≤ 1
  last : ∀ last ∈ before.getLast?, (∃ streamId, (streamId, last) ∈ history) ∨
    (session.runHandshake before after).FailedPromise last

theorem Starts.ends {session : Session} {before after : List Submission}
    (starts : session.Starts (before ++ after)) : ∃ history, session.Ends before after history := by
  obtain ⟨history, handshaken, answers, promises, only, few, last⟩ :=
    handshakeCompleted_spec starts
  obtain ⟨final, kept⟩ := handshaken.foldl_submit after
  rw [answers] at final
  refine ⟨history, final, fun submission member other => ?_, only, few, fun given found => ?_⟩
  · rw [runHandshake, kept, promises _ other]
    exact starts.promises submission member
  · rw [FailedPromise, runHandshake, kept]
    exact last given found

/-- The promises before the handshake are not those after it. -/
theorem Starts.apart {session : Session} {before after : List Submission}
    (starts : session.Starts (before ++ after)) {early late : Submission} (first : early ∈ before)
    (second : late ∈ after) : early.promise ≠ late.promise := by
  have distinct := starts.distinct
  rw [List.map_append, List.nodup_append] at distinct
  exact distinct.2.2 _ (List.mem_map_of_mem first) _ (List.mem_map_of_mem second)

/-- A second request before the handshake takes the place of the first. -/
theorem Ends.single {session : Session} {before after : List Submission}
    {history : List (Nat × Submission)} (ends : session.Ends before after history)
    (starts : session.Starts (before ++ after))
    (all : ∀ submission ∈ before ++ after,
      OpenedOnce (before.foldl submit session) (session.runHandshake before after) submission ∨
        (session.runHandshake before after).FailedPromise submission) : before.length ≤ 1 := by
  match before with
  | [] => exact Nat.zero_le _
  | [_] => exact Nat.le_refl _
  | first :: second :: rest =>
    have member : first ∈ first :: second :: rest ++ after := List.mem_cons_self
    have differs : ∀ last ∈ (first :: second :: rest).getLast?,
        first.promise ≠ last.promise := by
      intro last found same
      have distinct := starts.distinct
      rw [List.cons_append, List.map_cons, List.nodup_cons] at distinct
      rw [List.getLast?_cons_cons] at found
      exact distinct.1 (same ▸ List.mem_map_of_mem
        (List.mem_append_left _ (List.mem_of_mem_getLast? found)))
    refine absurd (all first member) (not_settled ends.tracks ?_
      (ends.promises first member differs))
    intro entry found same
    obtain queued | opened := List.mem_append.mp found
    · exact differs _ (ends.only entry queued) same.symm
    · exact starts.apart List.mem_cons_self (mem_openedFor opened) same.symm

/-- A request after the handshake whose stream cannot be opened is lost. -/
theorem Ends.opened {session : Session} {before after : List Submission}
    {history : List (Nat × Submission)} (ends : session.Ends before after history)
    (starts : session.Starts (before ++ after)) {submission : Submission}
    (member : submission ∈ after)
    (settled : OpenedOnce (before.foldl submit session) (session.runHandshake before after)
        submission ∨ (session.runHandshake before after).FailedPromise submission) :
    ∃ streamId, (streamId, submission) ∈
      openedFor (fun call => session.bidiOpens (min before.length 1 + call)) after := by
  have distinct := starts.distinct
  rw [List.map_append, List.nodup_append] at distinct
  have other : ∀ last ∈ before.getLast?, submission.promise ≠ last.promise := fun last found same =>
    starts.apart (List.mem_of_mem_getLast? found) member same.symm
  by_contra absent
  refine not_settled ends.tracks ?_
    (ends.promises submission (List.mem_append_right _ member) other) settled
  intro entry found same
  obtain queued | opened := List.mem_append.mp found
  · exact other _ (ends.only entry queued) same.symm
  · refine absent ⟨entry.1, ?_⟩
    rw [← List.inj_on_of_nodup_map distinct.2.1 (mem_openedFor opened) member same]
    exact opened

/-- No promise is on two streams. -/
theorem Ends.nodup {session : Session} {before after : List Submission}
    {history : List (Nat × Submission)} (ends : session.Ends before after history)
    (starts : session.Starts (before ++ after)) :
    ((history ++ openedFor (fun call => session.bidiOpens (min before.length 1 + call))
      after).map (·.2.promise)).Nodup := by
  have distinct := starts.distinct
  rw [List.map_append, List.nodup_append] at distinct
  rw [List.map_append, List.nodup_append]
  refine ⟨?_, ?_, ?_⟩
  · have few := ends.few
    match history with
    | [] => exact List.nodup_nil
    | [_] => exact List.nodup_singleton _
  · have names := (openedFor_sublist (fun call => session.bidiOpens (min before.length 1 + call))
      after).map Submission.promise
    rw [List.map_map] at names
    exact distinct.2.1.sublist names
  · intro promise queued other opened
    obtain ⟨entry, found, rfl⟩ := List.mem_map.mp queued
    obtain ⟨given, there, rfl⟩ := List.mem_map.mp opened
    exact starts.apart (List.mem_of_mem_getLast? (ends.only entry found)) (mem_openedFor there)

/-- Every request is opened once on its own stream with its own promise, or its promise is completed
with an error, if and only if at most one request is submitted before the handshake and the streams
of those after it can be opened. -/
theorem settled_iff (session : Session) (before after : List Submission)
    (starts : session.Starts (before ++ after)) :
    (∀ submission ∈ before ++ after,
      OpenedOnce (before.foldl submit session) (session.runHandshake before after) submission ∨
        (session.runHandshake before after).FailedPromise submission) ↔
      before.length ≤ 1 ∧
        ∀ call < after.length, (session.bidiOpens (before.length + call)).isSome := by
  obtain ⟨history, ends⟩ := starts.ends
  have distinct := starts.distinct
  rw [List.map_append, List.nodup_append] at distinct
  have opens := forall_openedFor_iff (fun call => session.bidiOpens (min before.length 1 + call))
    (List.Nodup.of_map _ distinct.2.1)
  have none (streamId : Nat) : (before.foldl submit session).streams streamId = none := by
    rw [foldl_submit_before before session starts.handshakeDone]
    cases before.getLast? <;> exact starts.streams streamId
  constructor
  · intro all
    have single := ends.single starts all
    rw [Nat.min_eq_left single] at opens
    refine ⟨single, opens.mp fun submission member => ?_⟩
    have opened := ends.opened starts member (all submission (List.mem_append_right _ member))
    rw [Nat.min_eq_left single] at opened
    exact opened
  · rintro ⟨single, answers⟩ submission member
    have once := ends.nodup starts
    obtain early | late := List.mem_append.mp member
    · have only : before = [submission] := by
        match before, single, early with
        | [other], _, found => rw [List.mem_singleton.mp found]
      obtain ⟨streamId, found⟩ | failed := ends.last submission (by rw [only]; rfl)
      · exact Or.inl (ends.tracks.openedOnce once none (List.mem_append_left _ found))
      · exact Or.inr failed
    · rw [Nat.min_eq_left single] at opens
      obtain ⟨streamId, found⟩ := opens.mpr answers submission late
      rw [← Nat.min_eq_left single] at found
      exact Or.inl (ends.tracks.openedOnce once none (List.mem_append_right _ found))

/-- A client whose streams can be opened: 0, 4, 8 and so on. -/
def client : Session := { mode := .client, bidiOpens := fun call => some (4 * call) }

theorem starts_client (submissions : List Submission)
    (distinct : (submissions.map Submission.promise).Nodup) : client.Starts submissions where
  mode := rfl
  handshakeDone := rfl
  hasPendingRequest := rfl
  streams := fun _ => rfl
  events := rfl
  promises := fun _ _ => rfl
  distinct := distinct
  fresh := fun call other streamId first second => by
    have same := Option.some.inj (first.trans second.symm)
    omega

/-- One request before the handshake and two after it. -/
theorem settled_iff_three :
    (∀ submission ∈ [⟨{}, 0⟩] ++ [⟨{}, 1⟩, ⟨{}, 2⟩],
      OpenedOnce ([⟨{}, 0⟩].foldl submit client)
          (client.runHandshake [⟨{}, 0⟩] [⟨{}, 1⟩, ⟨{}, 2⟩]) submission ∨
        (client.runHandshake [⟨{}, 0⟩] [⟨{}, 1⟩, ⟨{}, 2⟩]).FailedPromise submission) ↔
      [(⟨{}, 0⟩ : Submission)].length ≤ 1 ∧
        ∀ call < [(⟨{}, 1⟩ : Submission), ⟨{}, 2⟩].length, (client.bidiOpens (1 + call)).isSome :=
  settled_iff client [⟨{}, 0⟩] [⟨{}, 1⟩, ⟨{}, 2⟩] (starts_client _ (by decide))

/-- Of two requests before the handshake one is lost. -/
theorem two_before_handshake :
    ¬ ∀ submission ∈ [⟨{ path := ascii "/a" }, 0⟩, ⟨{ path := ascii "/b" }, 1⟩] ++ [],
      OpenedOnce ([⟨{ path := ascii "/a" }, 0⟩, ⟨{ path := ascii "/b" }, 1⟩].foldl submit client)
          (client.runHandshake [⟨{ path := ascii "/a" }, 0⟩, ⟨{ path := ascii "/b" }, 1⟩] [])
          submission ∨
        (client.runHandshake [⟨{ path := ascii "/a" }, 0⟩, ⟨{ path := ascii "/b" }, 1⟩]
          []).FailedPromise submission := by
  intro all
  have starts := starts_client
    ([⟨{ path := ascii "/a" }, 0⟩, ⟨{ path := ascii "/b" }, 1⟩] ++ []) (by decide)
  obtain ⟨history, ends⟩ := starts.ends
  exact absurd (ends.single starts all) (by decide)

end Session

end AsyncNet.Http.H3
