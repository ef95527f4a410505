/-
This file is about the end of a response that a client receives over HTTP/3. Its promise is
completed by the FIN of the stream, by a frame that is handled after the FIN, or when the stream
is closed. The first two move the response of the stream to the promise. The third one,
`cb_stream_close`, gives the promise the body and the version, but leaves it the status and the
headers that it had before.

What has been received is recorded here beside the session, so that what the promise is given
can be compared with it. Between the occurrences on a stream anything may happen that leaves its
response and its promise alone.
-/

import AsyncNet.Http.Http3Requests
import AsyncNet.Http.QpackRoundTrip

namespace AsyncNet.Http.H3

open H2 Library

namespace Session

/-- `cb_stream_close`. -/
def streamClose (session : Session) (streamId : Nat) : Session :=
  match session.streams streamId with
  | none => session
  | some ss =>
      let session :=
        match session.mode, ss.promise with
        | .client, some ref =>
            let promise := session.promises ref
            if promise.complete then session
            else
              let session := session.setPromise ref
                (if ss.respHeadersComplete then
                  { promise with
                    resp := { promise.resp with bd := ss.respBody, ver := .http3 }
                    complete := true }
                else { promise with error := true, complete := true })
              if promise.waiter then session.record (.resume ref) else session
        | _, _ => session
      session.setStream streamId { ss with state := .closed }

/-! ### What is received -/

/-- What happens on a stream: a frame is handled, the data ends, the stream is closed. Other things
leave it aside. -/
inductive Occurrence where
  | frame (f : Frame)
  | fin
  | close
  | aside
  deriving DecidableEq, Repr

structure Moment where
  before : Session
  occurrence : Occurrence
  after : Session

/-- What belongs to the response on a stream is left as it is. A caller may begin to wait for the
promise. -/
structure Aside (streamId ref : Nat) (before after : Session) : Prop where
  mode : after.mode = before.mode
  resp : (after.stream streamId).resp = (before.stream streamId).resp
  respBody : (after.stream streamId).respBody = (before.stream streamId).respBody
  respHeadersComplete : (after.stream streamId).respHeadersComplete =
    (before.stream streamId).respHeadersComplete
  promise : (after.stream streamId).promise = (before.stream streamId).promise
  known : (after.streams streamId).isSome = (before.streams streamId).isSome
  given : (after.promises ref).resp = (before.promises ref).resp
  complete : (after.promises ref).complete = (before.promises ref).complete

inductive Step (streamId ref : Nat) : Moment → Prop
  | frame {before after : Session} {f : Frame}
      (handled : before.handleRequestFrame streamId f = .ok after) :
      Step streamId ref ⟨before, .frame f, after⟩
  | fin (before : Session) : Step streamId ref ⟨before, .fin, before.finishStream streamId⟩
  | close (before : Session) : Step streamId ref ⟨before, .close, before.streamClose streamId⟩
  | aside {before after : Session} (same : Aside streamId ref before after) :
      Step streamId ref ⟨before, .aside, after⟩

/-- The moments of a run from one session to another. -/
inductive Run (streamId ref : Nat) (start : Session) : List Moment → Session → Prop
  | nil : Run streamId ref start [] start
  | snoc {moments : List Moment} {moment : Moment}
      (run : Run streamId ref start moments moment.before) (step : Step streamId ref moment) :
      Run streamId ref start (moments ++ [moment]) moment.after

/-- The decoded field sections and the data that have been received on a stream. -/
structure Receipt where
  sections : List Headers := []
  body : Bytes := []
  deriving DecidableEq, Repr

/-- The response with the decoded headers. -/
def Receipt.decoded (receipt : Receipt) : Response :=
  receipt.sections.flatten.foldl applyResponseHeader {}

def Receipt.take (receipt : Receipt) (moment : Moment) : Receipt :=
  match moment.occurrence with
  | .frame ⟨.headers, payload⟩ =>
      match moment.before.decoder.decode payload with
      | .ok headers => { receipt with sections := receipt.sections ++ [headers] }
      | .error _ => receipt
  | .frame ⟨.data, payload⟩ => { receipt with body := receipt.body ++ payload }
  | _ => receipt

def received (moments : List Moment) : Receipt := moments.foldl Receipt.take {}

/-- The response has the status and headers that were decoded, the body and the version. -/
structure Receipt.Answers (receipt : Receipt) (resp : Response) : Prop where
  status : resp.status = receipt.decoded.status
  hdrs : resp.hdrs = receipt.decoded.hdrs
  bd : resp.bd = receipt.body
  ver : resp.ver = .http3

/-- The promise is completed at this moment. -/
def Moment.Completes (ref : Nat) (moment : Moment) : Prop :=
  (moment.before.promises ref).complete = false ∧ (moment.after.promises ref).complete = true

/-- Whatever completes the promise when headers have been received gives it what has been received,
and nothing completes it again. -/
structure Agrees (ref : Nat) (moments : List Moment) : Prop where
  answers : ∀ front moment, front ++ [moment] <+: moments → moment.Completes ref →
    (received (front ++ [moment])).sections ≠ [] →
    (received (front ++ [moment])).Answers (moment.after.promises ref).resp
  once : moments.Pairwise fun earlier later => earlier.Completes ref → ¬ later.Completes ref

/-- The stream is not closed before its response is complete, unless the promise has the status and
the headers of the response already. -/
def Moment.Safe (streamId ref : Nat) (moment : Moment) : Prop :=
  moment.occurrence = .close → (moment.before.promises ref).complete = false →
    (moment.before.stream streamId).respHeadersComplete →
    (moment.before.promises ref).resp.status = (moment.before.stream streamId).resp.status ∧
      (moment.before.promises ref).resp.hdrs = (moment.before.stream streamId).resp.hdrs

/-! ### Operations -/

variable {session : Session} {streamId ref : Nat}

/-- The stream is one of a client, with its promise. -/
structure Owns (streamId ref : Nat) (session : Session) : Prop where
  client : session.mode = .client
  known : (session.streams streamId).isSome
  promise : (session.stream streamId).promise = some ref

theorem Owns.setStream (owns : session.Owns streamId ref) {ss : StreamState}
    (promise : ss.promise = some ref) : (session.setStream streamId ss).Owns streamId ref where
  client := owns.client
  known := isSome_setStream session streamId ss
  promise := by
    rw [stream_setStream]
    exact promise

theorem Owns.modifyStream (owns : session.Owns streamId ref) {change : StreamState → StreamState}
    (keeps : ∀ ss, (change ss).promise = ss.promise) :
    (session.modifyStream streamId change).Owns streamId ref :=
  owns.setStream ((keeps _).trans owns.promise)

theorem Owns.setPromise (owns : session.Owns streamId ref) (other : Nat)
    (promise : ResponsePromise) : (session.setPromise other promise).Owns streamId ref :=
  ⟨owns.client, owns.known, owns.promise⟩

theorem Owns.record (owns : session.Owns streamId ref) (event : Event) :
    (session.record event).Owns streamId ref :=
  ⟨owns.client, owns.known, owns.promise⟩

theorem Owns.aside {after : Session} (owns : session.Owns streamId ref)
    (same : Aside streamId ref session after) : after.Owns streamId ref where
  client := same.mode.trans owns.client
  known := same.known.trans owns.known
  promise := same.promise.trans owns.promise

theorem completePromise_settled (owns : session.Owns streamId ref)
    (complete : (session.promises ref).complete = true) :
    session.completePromise streamId = session := by
  unfold completePromise
  dsimp only
  rw [owns.promise]
  dsimp only
  rw [if_pos complete]

/-- The promise is given the response of the stream. -/
theorem promises_completePromise (owns : session.Owns streamId ref)
    (pending : (session.promises ref).complete = false) :
    (session.completePromise streamId).promises ref = { session.promises ref with
      resp := { (session.stream streamId).resp with
        bd := (session.stream streamId).respBody, ver := .http3 }
      complete := true } := by
  unfold completePromise
  dsimp only
  rw [owns.promise]
  dsimp only
  rw [if_neg (by rw [pending]; exact Bool.false_ne_true)]
  split <;> exact if_pos rfl

theorem Owns.completePromise (owns : session.Owns streamId ref) :
    (session.completePromise streamId).Owns streamId ref := by
  by_cases complete : (session.promises ref).complete
  · rw [completePromise_settled owns complete]
    exact owns
  · unfold Session.completePromise
    dsimp only
    rw [owns.promise]
    dsimp only
    rw [if_neg complete]
    split
    · exact ((owns.setPromise ref _).setStream rfl).record _
    · exact (owns.setPromise ref _).setStream rfl

end Session

/-- A stream that has been given headers. -/
def StreamState.takeHeaders (headers : Headers) (ss : StreamState) : StreamState :=
  { ss with
    respHeadersComplete := true
    resp := { headers.foldl Session.applyResponseHeader ss.resp with ver := .http3 } }

/-- A stream that has been given data. -/
def StreamState.takeData (data : Bytes) (ss : StreamState) : StreamState :=
  { ss with respBody := ss.respBody ++ data }

/-- A stream of which the data ended. -/
def StreamState.ended (ss : StreamState) : StreamState := { ss with endStream := true }

namespace Session

variable {session : Session} {streamId ref : Nat}

/-- A frame that is handled gives the stream headers or data, and it may complete the promise. -/
theorem handleRequestFrame_cases (client : session.mode = .client) {f : Frame} {after : Session}
    (handled : session.handleRequestFrame streamId f = .ok after) :
    (∃ headers, f.type = .headers ∧ session.decoder.decode f.payload = .ok headers ∧
      ∃ next, next = session.modifyStream streamId (StreamState.takeHeaders headers) ∧
        (after = next ∨ after = next.completePromise streamId)) ∨
    (f.type = .data ∧ ∃ next,
      next = session.modifyStream streamId (StreamState.takeData f.payload) ∧
      (after = next ∨
        (session.stream streamId).respHeadersComplete ∧ after = next.completePromise streamId)) ∨
    (f.type ≠ .headers ∧ f.type ≠ .data ∧ after = session) := by
  unfold handleRequestFrame at handled
  split at handled
  · rename_i type
    unfold handleRequestHeaders at handled
    rw [client] at handled
    obtain ⟨headers, decoded, rest⟩ := bind_ok handled
    cases rest
    refine Or.inl ⟨headers, type, decoded, _, rfl, ?_⟩
    split
    · exact Or.inr rfl
    · exact Or.inl rfl
  · rename_i type
    unfold handleRequestData at handled
    rw [client] at handled
    cases handled
    refine Or.inr (Or.inl ⟨type, _, rfl, ?_⟩)
    unfold handleResponseData
    dsimp only
    split
    · rename_i ended
      exact Or.inr ⟨(Bool.and_eq_true_iff.mp ended).2, rfl⟩
    · exact Or.inl rfl
  · rename_i headers data
    cases handled
    exact Or.inr (Or.inr ⟨headers, data, rfl⟩)

theorem Owns.found (owns : session.Owns streamId ref) :
    ∃ ss, session.streams streamId = some ss ∧ session.stream streamId = ss ∧
      ss.promise = some ref := by
  obtain ⟨ss, found⟩ := Option.isSome_iff_exists.mp owns.known
  have isStream : session.stream streamId = ss := by
    unfold stream
    rw [found]
    rfl
  exact ⟨ss, found, isStream, isStream ▸ owns.promise⟩

/-- A stream that is closed with its promise not complete. -/
theorem promises_streamClose (owns : session.Owns streamId ref)
    (pending : (session.promises ref).complete = false) :
    (session.streamClose streamId).promises ref =
      if (session.stream streamId).respHeadersComplete then
        { session.promises ref with
          resp := { (session.promises ref).resp with
            bd := (session.stream streamId).respBody, ver := .http3 }
          complete := true }
      else { session.promises ref with error := true, complete := true } := by
  obtain ⟨ss, found, isStream, promise⟩ := owns.found
  rw [isStream]
  unfold streamClose
  rw [found]
  dsimp only
  rw [owns.client, promise]
  dsimp only
  rw [if_neg (by rw [pending]; exact Bool.false_ne_true)]
  show (if (session.promises ref).waiter then _ else _ : Session).promises ref = _
  split <;> exact if_pos rfl

theorem Owns.streamClose (owns : session.Owns streamId ref) :
    (session.streamClose streamId).Owns streamId ref := by
  obtain ⟨ss, found, -, promise⟩ := owns.found
  unfold Session.streamClose
  rw [found]
  dsimp only
  rw [owns.client, promise]
  refine Owns.setStream ?_ rfl
  dsimp only
  split
  · exact owns
  · split
    · exact (owns.setPromise ref _).record _
    · exact owns.setPromise ref _

theorem streamClose_settled (owns : session.Owns streamId ref)
    (complete : (session.promises ref).complete = true) :
    (session.streamClose streamId).promises ref = session.promises ref := by
  obtain ⟨ss, found, -, promise⟩ := owns.found
  unfold streamClose
  rw [found]
  dsimp only
  rw [owns.client, promise]
  dsimp only
  rw [if_pos complete]
  rfl

theorem Owns.handleRequestFrame {f : Frame} {after : Session} (owns : session.Owns streamId ref)
    (handled : session.handleRequestFrame streamId f = .ok after) : after.Owns streamId ref := by
  obtain ⟨headers, -, -, next, rfl, rfl | rfl⟩ | ⟨-, next, rfl, rfl | ⟨-, rfl⟩⟩ | ⟨-, -, rfl⟩ :=
    handleRequestFrame_cases owns.client handled
  · exact owns.modifyStream fun ss => rfl
  · refine Owns.completePromise ?_
    exact owns.modifyStream fun ss => rfl
  · exact owns.modifyStream fun ss => rfl
  · refine Owns.completePromise ?_
    exact owns.modifyStream fun ss => rfl
  · exact owns

/-- The data ends: the promise is completed if the headers are complete. -/
theorem finishStream_client (client : session.mode = .client) :
    session.finishStream streamId =
      if (session.stream streamId).respHeadersComplete then
        (session.modifyStream streamId StreamState.ended).completePromise streamId
      else session.modifyStream streamId StreamState.ended := by
  have same := stream_modifyStream session streamId StreamState.ended
  unfold finishStream
  dsimp only
  split
  · rename_i server
    cases client.symm.trans server
  · show (if ((session.modifyStream streamId StreamState.ended).stream
      streamId).respHeadersComplete then _ else _) = _
    rw [same]
    rfl

theorem Owns.finishStream (owns : session.Owns streamId ref) :
    (session.finishStream streamId).Owns streamId ref := by
  rw [finishStream_client owns.client]
  split
  · refine Owns.completePromise ?_
    exact owns.modifyStream fun ss => rfl
  · exact owns.modifyStream fun ss => rfl

theorem Owns.step {moment : Moment} (owns : moment.before.Owns streamId ref)
    (step : Step streamId ref moment) : moment.after.Owns streamId ref := by
  cases step with
  | frame handled => exact owns.handleRequestFrame handled
  | fin => exact owns.finishStream
  | close => exact owns.streamClose
  | aside same => exact owns.aside same

/-- A promise that is complete stays complete. -/
theorem settled_step {moment : Moment} (owns : moment.before.Owns streamId ref)
    (complete : (moment.before.promises ref).complete = true) (step : Step streamId ref moment) :
    (moment.after.promises ref).complete = true := by
  obtain ⟨before, occurrence, after⟩ := moment
  dsimp only at owns complete ⊢
  have stays {change : StreamState → StreamState} (keeps : ∀ ss, (change ss).promise = ss.promise) :
      (((before.modifyStream streamId change).completePromise streamId).promises ref).complete =
        true := by
    rw [completePromise_settled (owns.modifyStream keeps) complete]
    exact complete
  cases step with
  | frame handled =>
    obtain ⟨headers, -, -, next, rfl, rfl | rfl⟩ | ⟨-, next, rfl, rfl | ⟨-, rfl⟩⟩ | ⟨-, -, rfl⟩ :=
      handleRequestFrame_cases owns.client handled
    · exact complete
    · exact stays fun ss => rfl
    · exact complete
    · exact stays fun ss => rfl
    · exact complete
  | fin =>
    rw [finishStream_client owns.client]
    split
    · exact stays fun ss => rfl
    · exact complete
  | close =>
    rw [streamClose_settled owns complete]
    exact complete
  | aside same => exact same.complete.trans complete

/-! ### Waiting -/

theorem foldl_applyResponseHeader_ver (headers : Headers) (resp : Response) (ver : Version) :
    headers.foldl applyResponseHeader { resp with ver } =
      { headers.foldl applyResponseHeader resp with ver } := by
  induction headers generalizing resp with
  | nil => rfl
  | cons header headers inductionHypothesis =>
    have one : applyResponseHeader { resp with ver } header =
        { applyResponseHeader resp header with ver } := by
      unfold applyResponseHeader
      dsimp only
      split
      · rfl
      · split <;> rfl
    rw [List.foldl_cons, List.foldl_cons, one, inductionHypothesis]

/-- The stream holds what has been received, for a promise that is not complete. -/
structure Awaits (streamId ref : Nat) (receipt : Receipt) (session : Session) : Prop where
  owns : session.Owns streamId ref
  pending : (session.promises ref).complete = false
  resp : ∃ ver, (session.stream streamId).resp = { receipt.decoded with ver }
  body : (session.stream streamId).respBody = receipt.body
  headers : (session.stream streamId).respHeadersComplete = true ↔ receipt.sections ≠ []

/-- The promise is complete, and it has been given what has been received. -/
structure Given (streamId ref : Nat) (receipt : Receipt) (session : Session) : Prop where
  owns : session.Owns streamId ref
  complete : (session.promises ref).complete = true
  answers : receipt.Answers (session.promises ref).resp

section Awaits

variable {receipt : Receipt}

theorem Awaits.completePromise (awaits : session.Awaits streamId ref receipt) :
    (session.completePromise streamId).Given streamId ref receipt := by
  have given := promises_completePromise awaits.owns awaits.pending
  obtain ⟨ver, resp⟩ := awaits.resp
  refine ⟨awaits.owns.completePromise, ?_, ?_⟩
  · rw [given]
  · rw [given, resp, awaits.body]
    exact ⟨rfl, rfl, rfl, rfl⟩

theorem Awaits.takeHeaders (awaits : session.Awaits streamId ref receipt) (headers : Headers) :
    (session.modifyStream streamId (StreamState.takeHeaders headers)).Awaits streamId ref
      { receipt with sections := receipt.sections ++ [headers] } := by
  have same := stream_modifyStream session streamId (StreamState.takeHeaders headers)
  obtain ⟨ver, resp⟩ := awaits.resp
  refine ⟨awaits.owns.modifyStream fun ss => rfl, awaits.pending, ⟨.http3, ?_⟩, ?_, ?_⟩
  · rw [same, StreamState.takeHeaders, resp, foldl_applyResponseHeader_ver]
    unfold Receipt.decoded
    rw [List.flatten_append, List.foldl_append, List.flatten_singleton]
  · rw [same]
    exact awaits.body
  · rw [same]
    exact iff_of_true rfl (List.append_ne_nil_of_right_ne_nil _ (List.cons_ne_nil _ _))

theorem Awaits.takeData (awaits : session.Awaits streamId ref receipt) (data : Bytes) :
    (session.modifyStream streamId (StreamState.takeData data)).Awaits streamId ref
      { receipt with body := receipt.body ++ data } := by
  have same := stream_modifyStream session streamId (StreamState.takeData data)
  refine ⟨awaits.owns.modifyStream fun ss => rfl, awaits.pending, ?_, ?_, ?_⟩
  · rw [same]
    exact awaits.resp
  · rw [same]
    exact congrArg (· ++ data) awaits.body
  · rw [same]
    exact awaits.headers

theorem Awaits.ended (awaits : session.Awaits streamId ref receipt) :
    (session.modifyStream streamId StreamState.ended).Awaits streamId ref receipt := by
  have same := stream_modifyStream session streamId StreamState.ended
  refine ⟨awaits.owns.modifyStream fun ss => rfl, awaits.pending, ?_, ?_, ?_⟩
  · rw [same]
    exact awaits.resp
  · rw [same]
    exact awaits.body
  · rw [same]
    exact awaits.headers

theorem Awaits.aside {after : Session} (awaits : session.Awaits streamId ref receipt)
    (same : Aside streamId ref session after) : after.Awaits streamId ref receipt where
  owns := awaits.owns.aside same
  pending := same.complete.trans awaits.pending
  resp := by
    rw [same.resp]
    exact awaits.resp
  body := same.respBody.trans awaits.body
  headers := by
    rw [same.respHeadersComplete]
    exact awaits.headers

/-- A frame that is handled while the promise is waited for. -/
theorem Awaits.frame {f : Frame} {after : Session} (awaits : session.Awaits streamId ref receipt)
    (handled : session.handleRequestFrame streamId f = .ok after) :
    after.Awaits streamId ref (receipt.take ⟨session, .frame f, after⟩) ∨
      after.Given streamId ref (receipt.take ⟨session, .frame f, after⟩) := by
  obtain ⟨type, payload⟩ := f
  obtain ⟨headers, rfl, decoded, next, rfl, ends⟩ | ⟨rfl, next, rfl, ends⟩ |
      ⟨noHeaders, noData, rfl⟩ := handleRequestFrame_cases awaits.owns.client handled
  · have taken : receipt.take ⟨session, .frame ⟨.headers, payload⟩, after⟩ =
        { receipt with sections := receipt.sections ++ [headers] } := by
      unfold Receipt.take
      dsimp only at decoded ⊢
      rw [decoded]
    rw [taken]
    rcases ends with rfl | rfl
    · exact Or.inl (awaits.takeHeaders headers)
    · exact Or.inr (awaits.takeHeaders headers).completePromise
  · rcases ends with rfl | ⟨-, rfl⟩
    · exact Or.inl (awaits.takeData payload)
    · exact Or.inr (awaits.takeData payload).completePromise
  · have taken : receipt.take ⟨after, .frame ⟨type, payload⟩, after⟩ = receipt := by
      cases type <;> first | rfl | exact absurd rfl noHeaders | exact absurd rfl noData
    rw [taken]
    exact Or.inl awaits

/-- What a step does to a stream whose promise is waited for. Where it completes the promise, this
is given what has been received if and only if the step is safe, or else no headers have come. -/
theorem Awaits.step {moment : Moment} (awaits : moment.before.Awaits streamId ref receipt)
    (step : Step streamId ref moment) :
    moment.after.Awaits streamId ref (receipt.take moment) ∧ moment.Safe streamId ref ∨
      (moment.after.promises ref).complete = true ∧
        (((receipt.take moment).sections ≠ [] →
          (receipt.take moment).Answers (moment.after.promises ref).resp) ↔
            moment.Safe streamId ref) := by
  obtain ⟨before, occurrence, after⟩ := moment
  dsimp only at awaits ⊢
  cases step with
  | @frame _ _ f handled =>
    have safe : Moment.Safe streamId ref ⟨before, .frame f, after⟩ := fun wrong => by cases wrong
    rcases awaits.frame handled with waits | given
    · exact Or.inl ⟨waits, safe⟩
    · exact Or.inr ⟨given.complete, iff_of_true (fun _ => given.answers) safe⟩
  | fin =>
    have safe : Moment.Safe streamId ref ⟨before, .fin, before.finishStream streamId⟩ :=
      fun wrong => by cases wrong
    rw [finishStream_client awaits.owns.client] at safe ⊢
    split
    · have given := awaits.ended.completePromise
      exact Or.inr ⟨given.complete,
        iff_of_true (fun _ => given.answers) (fun wrong => by cases wrong)⟩
    · exact Or.inl ⟨awaits.ended, fun wrong => by cases wrong⟩
  | close =>
    refine Or.inr ?_
    have given := promises_streamClose awaits.owns awaits.pending
    have taken : receipt.take ⟨before, .close, before.streamClose streamId⟩ = receipt := rfl
    obtain ⟨ver, resp⟩ := awaits.resp
    rw [taken]
    by_cases headers : (before.stream streamId).respHeadersComplete
    · rw [if_pos headers] at given
      rw [given]
      refine ⟨rfl, ?_, ?_⟩
      · intro answers _ _ _
        have whole := answers (awaits.headers.mp headers)
        dsimp only
        rw [resp]
        exact ⟨whole.status, whole.hdrs⟩
      · intro safe _
        have kept := safe rfl awaits.pending headers
        dsimp only at kept
        rw [resp] at kept
        exact ⟨kept.1, kept.2, awaits.body, rfl⟩
    · rw [if_neg headers] at given
      rw [given]
      have none : receipt.sections = [] := by
        by_contra some
        exact headers (awaits.headers.mpr some)
      exact ⟨rfl, iff_of_true (fun some => absurd none some) fun _ _ wrong => absurd wrong headers⟩
  | aside same =>
    exact Or.inl ⟨awaits.aside same, fun wrong => by cases wrong⟩

end Awaits

/-! ### Runs -/

/-- A stream with a request and a promise, before anything has come of its response. -/
structure Opened (session : Session) (streamId ref : Nat) : Prop where
  owns : session.Owns streamId ref
  pending : (session.promises ref).complete = false
  resp : (session.stream streamId).resp = {}
  respBody : (session.stream streamId).respBody = []
  respHeadersComplete : (session.stream streamId).respHeadersComplete = false

theorem Opened.awaits (opened : session.Opened streamId ref) :
    session.Awaits streamId ref {} where
  owns := opened.owns
  pending := opened.pending
  resp := ⟨.http11, opened.resp⟩
  body := opened.respBody
  headers := by
    rw [opened.respHeadersComplete]
    exact iff_of_false Bool.false_ne_true (fun wrong => wrong rfl)

/-- `submit_request` opens such a stream. -/
theorem opened_openRequest (client : session.mode = .client)
    (unused : session.streams streamId = none) (pending : (session.promises ref).complete = false) (req : Request) :
    (session.openRequest streamId req (some ref)).Opened streamId ref := by
  have fresh : session.stream streamId = {} := by
    unfold stream
    rw [unused]
    rfl
  have stream' : (session.openRequest streamId req (some ref)).stream streamId =
      { streamId, state := .opened, sendBuf := requestFrames req, promise := some ref } := by
    refine (stream_setStream session streamId _).trans ?_
    rw [fresh]
  refine ⟨⟨client, ?_, ?_⟩, pending, ?_, ?_, ?_⟩
  · exact isSome_setStream session streamId _
  all_goals rw [stream']

theorem received_snoc (moments : List Moment) (moment : Moment) :
    received (moments ++ [moment]) = (received moments).take moment :=
  List.foldl_concat _ _ _ _

theorem agrees_snoc (moments : List Moment) (moment : Moment) :
    Agrees ref (moments ++ [moment]) ↔ Agrees ref moments ∧
      (moment.Completes ref → ((received moments).take moment).sections ≠ [] →
        ((received moments).take moment).Answers (moment.after.promises ref).resp) ∧
      ∀ earlier ∈ moments, earlier.Completes ref → ¬ moment.Completes ref := by
  constructor
  · intro agrees
    obtain ⟨before, -, across⟩ := List.pairwise_append.mp agrees.once
    refine ⟨⟨?_, before⟩, ?_, ?_⟩
    · intro front middle isPrefix
      exact agrees.answers front middle (isPrefix.trans (List.prefix_append _ _))
    · rw [← received_snoc]
      exact agrees.answers moments moment List.prefix_rfl
    · intro earlier inside
      exact across earlier inside moment List.mem_cons_self
  · rintro ⟨agrees, last, apart⟩
    refine ⟨?_, List.pairwise_append.mpr ⟨agrees.once, List.pairwise_singleton _ _, ?_⟩⟩
    · intro front middle isPrefix
      rcases List.prefix_concat_iff.mp isPrefix with same | earlier
      · obtain ⟨rfl, whole⟩ := List.append_inj' same rfl
        cases whole
        rw [received_snoc]
        exact last
      · exact agrees.answers front middle earlier
    · intro earlier inside later isLast
      rw [List.mem_singleton.mp isLast]
      exact apart earlier inside

/-- Where a run has come to. -/
structure Follows (streamId ref : Nat) (moments : List Moment) (final : Session) : Prop where
  owns : final.Owns streamId ref
  waits : (final.promises ref).complete = false → final.Awaits streamId ref (received moments)
  completed : ∀ moment ∈ moments, moment.Completes ref → (final.promises ref).complete = true
  exact : Agrees ref moments ↔ ∀ moment ∈ moments, moment.Safe streamId ref

theorem Run.follows {start final : Session} {moments : List Moment}
    (opened : start.Opened streamId ref) (run : Run streamId ref start moments final) :
    Follows streamId ref moments final := by
  induction run with
  | nil =>
    refine ⟨opened.owns, fun _ => opened.awaits, fun _ wrong => (by cases wrong), ?_⟩
    refine iff_of_true ⟨?_, List.Pairwise.nil⟩ fun _ wrong => by cases wrong
    intro front moment isPrefix
    exact absurd (List.prefix_nil.mp isPrefix) (List.append_ne_nil_of_right_ne_nil _
      (List.cons_ne_nil _ _))
  | @snoc moments moment run step before =>
    have safeAll : (∀ each ∈ moments ++ [moment], each.Safe streamId ref) ↔
        (∀ each ∈ moments, each.Safe streamId ref) ∧ moment.Safe streamId ref := by
      rw [List.forall_mem_append, List.forall_mem_singleton]
    by_cases complete : (moment.before.promises ref).complete
    · -- Nothing completes the promise again.
      have after := settled_step before.owns complete step
      have not : ¬ moment.Completes ref := fun wrong => by
        rw [wrong.1] at complete
        cases complete
      have safe : moment.Safe streamId ref := fun _ pending => by
        rw [pending] at complete
        cases complete
      refine ⟨before.owns.step step, fun pending => ?_, fun _ _ _ => after, ?_⟩
      · rw [after] at pending
        cases pending
      · rw [agrees_snoc, safeAll, before.exact]
        exact and_congr_right fun _ => iff_of_true ⟨fun wrong => absurd wrong not, fun _ _ _ => not⟩
          safe
    · have pending := Bool.eq_false_iff.mpr complete
      have apart : ∀ earlier ∈ moments, earlier.Completes ref → ¬ moment.Completes ref :=
        fun earlier inside completes => absurd (before.completed earlier inside completes) complete
      rcases (before.waits pending).step step with ⟨waits, safe⟩ | ⟨completes, answers⟩
      · have not : ¬ moment.Completes ref := fun wrong => by
          have still := waits.pending
          rw [wrong.2] at still
          cases still
        refine ⟨waits.owns, fun _ => ?_, ?_, ?_⟩
        · rw [received_snoc]
          exact waits
        · intro each inside wrong
          rcases List.mem_append.mp inside with early | last
          · exact absurd (before.completed each early wrong) complete
          · rw [List.mem_singleton.mp last] at wrong
            exact absurd wrong not
        · rw [agrees_snoc, safeAll, before.exact]
          exact and_congr_right fun _ => iff_of_true ⟨fun wrong => absurd wrong not, apart⟩ safe
      · refine ⟨before.owns.step step, fun wrong => ?_, fun _ _ _ => completes, ?_⟩
        · rw [completes] at wrong
          cases wrong
        · rw [agrees_snoc, safeAll, before.exact, ← answers]
          refine and_congr_right fun _ => ?_
          exact ⟨fun both => both.1 ⟨pending, completes⟩, fun given => ⟨fun _ => given, apart⟩⟩

/-- Whatever completes the promise gives it what has been received, and completes it once, if and
only if the stream is never closed while the promise waits with another status or other headers. -/
theorem agrees_iff {start final : Session} {moments : List Moment}
    (opened : start.Opened streamId ref) (run : Run streamId ref start moments final) :
    Agrees ref moments ↔ ∀ moment ∈ moments, moment.Safe streamId ref :=
  (run.follows opened).exact

/-- A client that has sent a request on stream 0. -/
def requesting : Session := ({ mode := .client } : Session).openRequest 0 {} (some 0)

theorem opened_requesting : requesting.Opened 0 0 := opened_openRequest rfl rfl rfl {}

/-- The headers of a response to it. -/
def notFound : Headers := [(ascii ":status", ascii "404"), (ascii "server", ascii "x")]

/-- The client with these headers. -/
def answered : Session := requesting.modifyStream 0 (StreamState.takeHeaders notFound)

theorem step_answered :
    Step 0 0 ⟨requesting, .frame ⟨.headers, encodeStatic notFound⟩, answered⟩ := by
  have decoded : requesting.decoder.decode (encodeStatic notFound) = .ok notFound :=
    decode_encodeStatic _ _ (by decide) ((length_encodeStatic_le _).trans_lt (by decide))
  refine .frame ?_
  show requesting.handleResponseHeaders 0 (encodeStatic notFound) = .ok answered
  rw [handleResponseHeaders, decoded]
  rfl

/-- The data ends behind the headers. -/
theorem agrees_answered :
    Agrees 0 [⟨requesting, .frame ⟨.headers, encodeStatic notFound⟩, answered⟩,
      ⟨answered, .fin, answered.finishStream 0⟩] := by
  refine (agrees_iff opened_requesting
    (.snoc (.snoc .nil step_answered) (.fin answered))).mpr fun moment inside closes => ?_
  rcases List.mem_cons.mp inside with rfl | last
  · cases closes
  · rw [List.mem_singleton.mp last] at closes
    cases closes

/-- The stream is closed behind the headers: the promise keeps the status 200 and no headers. -/
theorem not_agrees_closed : ¬ ∀ (start final : Session) (moments : List Moment),
    start.Opened 0 0 → Run 0 0 start moments final → Agrees 0 moments := by
  intro agrees
  have run : Run 0 0 requesting [⟨requesting, .frame ⟨.headers, encodeStatic notFound⟩, answered⟩,
      ⟨answered, .close, answered.streamClose 0⟩] (answered.streamClose 0) :=
    .snoc (.snoc .nil step_answered) (.close answered)
  have safe := (run.follows opened_requesting).exact.mp (agrees _ _ _ opened_requesting run)
    ⟨answered, .close, answered.streamClose 0⟩ (List.mem_cons_of_mem _ List.mem_cons_self)
  have same := (safe rfl rfl rfl).1
  exact absurd same (by decide)

/-! ### Callbacks -/

/-- A callback of the QUIC library: data of a stream, or its close. -/
inductive Callback where
  | recv (streamId : Nat) (data : Bytes) (fin : Bool)
  | close (streamId : Nat)
  deriving DecidableEq, Repr

def callback (session : Session) : Callback → Except Fault Session
  | .recv streamId data fin => session.recvStreamData streamId data fin
  | .close streamId => .ok (session.streamClose streamId)

/-- What belongs to the response on the stream is left as it is, and all streams keep their
promises. -/
structure Beside (streamId ref : Nat) (before after : Session) : Prop where
  aside : Aside streamId ref before after
  promises : ∀ other, (after.stream other).promise = (before.stream other).promise

theorem Beside.refl (session : Session) : Beside streamId ref session session :=
  ⟨⟨rfl, rfl, rfl, rfl, rfl, rfl, rfl, rfl⟩, fun _ => rfl⟩

theorem Beside.trans {before middle after : Session} (first : Beside streamId ref before middle)
    (second : Beside streamId ref middle after) : Beside streamId ref before after where
  aside :=
    { mode := second.aside.mode.trans first.aside.mode
      resp := second.aside.resp.trans first.aside.resp
      respBody := second.aside.respBody.trans first.aside.respBody
      respHeadersComplete :=
        second.aside.respHeadersComplete.trans first.aside.respHeadersComplete
      promise := second.aside.promise.trans first.aside.promise
      known := second.aside.known.trans first.aside.known
      given := second.aside.given.trans first.aside.given
      complete := second.aside.complete.trans first.aside.complete }
  promises := fun other => (second.promises other).trans (first.promises other)

theorem promise_setStream {other : Nat} {ss : StreamState}
    (promise : ss.promise = (session.stream other).promise) (given : Nat) :
    ((session.setStream other ss).stream given).promise = (session.stream given).promise := by
  by_cases same : given = other
  · rw [same, stream_setStream, promise]
  · show ((if given = other then _ else _ : Option StreamState).getD {}).promise = _
    rw [if_neg same]
    rfl

theorem beside_setStream {other : Nat} (differs : streamId ≠ other) {ss : StreamState}
    (promise : ss.promise = (session.stream other).promise) :
    Beside streamId ref session (session.setStream other ss) := by
  have kept : (session.setStream other ss).streams streamId = session.streams streamId :=
    if_neg differs
  have same : (session.setStream other ss).stream streamId = session.stream streamId :=
    congrArg (fun found : Option StreamState => found.getD {}) kept
  refine ⟨⟨rfl, ?_, ?_, ?_, ?_, ?_, rfl, rfl⟩, promise_setStream promise⟩
  · rw [same]
  · rw [same]
  · rw [same]
  · rw [same]
  · rw [kept]

theorem beside_setPromise {other : Nat} (differs : ref ≠ other) (promise : ResponsePromise) :
    Beside streamId ref session (session.setPromise other promise) := by
  have same : (session.setPromise other promise).promises ref = session.promises ref :=
    if_neg differs
  refine ⟨⟨rfl, rfl, rfl, rfl, rfl, rfl, ?_, ?_⟩, fun _ => rfl⟩
  · rw [same]
  · rw [same]

/-- What the streams and the promises do not take part in. -/
theorem beside_of_eq {after : Session} (mode : after.mode = session.mode)
    (streams : after.streams = session.streams) (promises : after.promises = session.promises) :
    Beside streamId ref session after := by
  have same (other : Nat) : after.stream other = session.stream other :=
    congrArg (fun streams => (streams other).getD {}) streams
  refine ⟨⟨mode, ?_, ?_, ?_, ?_, ?_, ?_, ?_⟩, fun other => ?_⟩
  · rw [same]
  · rw [same]
  · rw [same]
  · rw [same]
  · rw [streams]
  · rw [promises]
  · rw [promises]
  · rw [same]

theorem beside_completePromise {other : Nat} (differs : streamId ≠ other)
    (alone : (session.stream other).promise ≠ some ref) :
    Beside streamId ref session (session.completePromise other) := by
  unfold completePromise
  dsimp only
  split
  · exact Beside.refl session
  · rename_i otherRef promise
    split
    · exact Beside.refl session
    · have apart : ref ≠ otherRef := fun same => alone (same ▸ promise)
      have given (promise : ResponsePromise) (ss : StreamState)
          (same : ss.promise = (session.stream other).promise) :
          Beside streamId ref session ((session.setPromise otherRef promise).setStream other ss) :=
        (beside_setPromise apart promise).trans (beside_setStream differs same)
      split
      · refine (given _ _ ?_).trans (beside_of_eq rfl rfl rfl)
        rfl
      · refine given _ _ ?_
        rfl

theorem Beside.alone {after : Session} (beside : Beside streamId ref session after) {other : Nat}
    (alone : (session.stream other).promise ≠ some ref) :
    (after.stream other).promise ≠ some ref := by
  rw [beside.promises other]
  exact alone

theorem beside_modifyStream {other : Nat} (differs : streamId ≠ other)
    {change : StreamState → StreamState} (keeps : ∀ ss, (change ss).promise = ss.promise) :
    Beside streamId ref session (session.modifyStream other change) :=
  beside_setStream differs (keeps _)

/-- What a loop over frames keeps, if every frame does. -/
theorem handleFrames_keeps {Holds : Session → Prop}
    {handle : Session → Frame → Except Fault Session}
    (keeps : ∀ session f after, Holds session → handle session f = .ok after → Holds after)
    (passes : Nat) {reader final : FrameReader} {rest : Bytes} {session after : Session}
    (holds : Holds session)
    (read : FrameReader.handleFrames handle passes reader rest session = .ok (final, after)) :
    Holds after := by
  induction passes generalizing reader rest session with
  | zero =>
    cases read
    exact holds
  | succ passes inductionHypothesis =>
    unfold FrameReader.handleFrames at read
    split at read
    · obtain ⟨next, handled, later⟩ := bind_ok read
      exact inductionHypothesis (keeps _ _ _ holds handled) later
    · cases read
      exact holds

/-- A frame of another stream. -/
theorem beside_handleRequestFrame {other : Nat} (client : session.mode = .client)
    (differs : streamId ≠ other) (alone : (session.stream other).promise ≠ some ref) {f : Frame}
    {after : Session} (handled : session.handleRequestFrame other f = .ok after) :
    Beside streamId ref session after := by
  have completes {change : StreamState → StreamState}
      (keeps : ∀ ss, (change ss).promise = ss.promise) :
      Beside streamId ref session ((session.modifyStream other change).completePromise other) := by
    have modified : Beside streamId ref session (session.modifyStream other change) :=
      beside_modifyStream differs keeps
    exact modified.trans (beside_completePromise differs (modified.alone alone))
  obtain ⟨headers, -, -, next, rfl, rfl | rfl⟩ | ⟨-, next, rfl, rfl | ⟨-, rfl⟩⟩ | ⟨-, -, rfl⟩ :=
    handleRequestFrame_cases client handled
  · exact beside_modifyStream differs fun ss => rfl
  · exact completes fun ss => rfl
  · exact beside_modifyStream differs fun ss => rfl
  · exact completes fun ss => rfl
  · exact Beside.refl _

theorem beside_finishStream {other : Nat} (client : session.mode = .client)
    (differs : streamId ≠ other) (alone : (session.stream other).promise ≠ some ref) :
    Beside streamId ref session (session.finishStream other) := by
  have ended : Beside streamId ref session (session.modifyStream other StreamState.ended) :=
    beside_modifyStream differs fun ss => rfl
  rw [finishStream_client client]
  split
  · exact ended.trans (beside_completePromise differs (ended.alone alone))
  · exact ended

theorem beside_recvBidiStreamData {other : Nat} (client : session.mode = .client)
    (differs : streamId ≠ other) (alone : (session.stream other).promise ≠ some ref) {data : Bytes}
    {fin : Bool} {after : Session}
    (received : session.recvBidiStreamData other data fin = .ok after) :
    Beside streamId ref session after := by
  have begun : Beside streamId ref session (session.modifyStream other (receiving other)) :=
    beside_modifyStream differs fun ss => rfl
  obtain ⟨⟨reader, handled⟩, read, rest⟩ := bind_ok received
  have step (middle : Session) (f : Frame) (next : Session)
      (beside : Beside streamId ref session middle)
      (one : middle.handleRequestFrame other f = .ok next) : Beside streamId ref session next :=
    beside.trans (beside_handleRequestFrame (beside.aside.mode.trans client) differs
      (beside.alone alone) one)
  have frames : Beside streamId ref session handled := handleFrames_keeps step _ begun read
  have kept : Beside streamId ref session
      (handled.modifyStream other fun ss => { ss with reader }) :=
    frames.trans (beside_modifyStream differs fun ss => rfl)
  cases fin with
  | false =>
    cases rest
    exact kept
  | true =>
    cases rest
    exact kept.trans (beside_finishStream (kept.aside.mode.trans client) differs (kept.alone alone))

theorem beside_streamClose {other : Nat} (differs : streamId ≠ other)
    (alone : (session.stream other).promise ≠ some ref) :
    Beside streamId ref session (session.streamClose other) := by
  unfold streamClose
  split
  · exact Beside.refl session
  · rename_i ss found
    have isStream : session.stream other = ss := by
      unfold stream
      rw [found]
      rfl
    have kept : ss.promise = (session.stream other).promise := by rw [isStream]
    rw [isStream] at alone
    have closed {middle : Session} (beside : Beside streamId ref session middle) :
        Beside streamId ref session (middle.setStream other { ss with state := .closed }) :=
      beside.trans (beside_setStream differs (kept.trans (beside.promises other).symm))
    refine closed ?_
    split
    · rename_i otherRef mode promise
      have apart : ref ≠ otherRef := fun same => alone (same ▸ promise)
      dsimp only
      split
      · exact Beside.refl session
      · split
        · exact (beside_setPromise apart _).trans (beside_of_eq rfl rfl rfl)
        · exact beside_setPromise apart _
    · exact Beside.refl session

/-! ### Data of unidirectional streams -/

theorem beside_handleControlFrame {f : Frame} {after : Session}
    (handled : session.handleControlFrame f = .ok after) : Beside streamId ref session after := by
  unfold handleControlFrame at handled
  split at handled
  · unfold handlePushPromise at handled
    split at handled
    · cases handled
      exact Beside.refl session
    · dsimp only at handled
      obtain ⟨headers, -, rest⟩ := bind_ok handled
      cases rest
      split
      · exact beside_of_eq rfl rfl rfl
      · exact Beside.refl session
  · cases handled
    exact Beside.refl session

theorem promise_handlePushFrame {decoder : QpackDecoder} {ss next : StreamState}
    (handled : handlePushFrame decoder ss = .ok next) : next.promise = ss.promise := by
  unfold handlePushFrame at handled
  split at handled
  · dsimp only at handled
    split at handled
    · obtain ⟨headers, -, rest⟩ := bind_ok handled
      cases rest
      rfl
    · cases handled
      rfl
    · cases handled
      rfl
  · cases handled
    rfl

theorem promise_feedPushStream {ss next : StreamState} {data : Bytes}
    (fed : feedPushStream ss data = some next) : next.promise = ss.promise := by
  unfold feedPushStream at fed
  split at fed
  · obtain ⟨pushId, -, rfl⟩ := Option.map_eq_some_iff.mp fed
    rfl
  · cases fed
    rfl

theorem beside_handlePushStream {other : Nat} (differs : streamId ≠ other) {data : Bytes}
    {fin : Bool} {after : Session} (handled : session.handlePushStream other data fin = .ok after) :
    Beside streamId ref session after := by
  unfold handlePushStream at handled
  split at handled
  · cases handled
    exact Beside.refl session
  · dsimp only at handled
    split at handled
    · cases handled
      exact beside_setStream differs rfl
    · rename_i fed isFed
      obtain ⟨next, one, rest⟩ := bind_ok handled
      have fedPromise := promise_feedPushStream isFed
      have promise : next.promise = (session.stream other).promise :=
        (promise_handlePushFrame one).trans fedPromise
      split at rest
      · cases rest
        refine Beside.trans (beside_setStream differs ?_) (beside_of_eq rfl rfl rfl)
        exact promise
      · cases rest
        exact beside_setStream differs promise

theorem beside_processUniStream {other : Nat} (differs : streamId ≠ other)
    {type : Option StreamType} {payload : Bytes} {fin : Bool} {after : Session}
    (handled : session.processUniStream other type payload fin = .ok after) :
    Beside streamId ref session after := by
  unfold processUniStream at handled
  dsimp only at handled
  split at handled
  · obtain ⟨⟨reader, final⟩, read, rfl⟩ := map_ok handled
    have step (middle : Session) (f : Frame) (next : Session)
        (beside : Beside streamId ref session middle)
        (one : middle.handleControlFrame f = .ok next) :
        Beside streamId ref session next := beside.trans (beside_handleControlFrame one)
    refine handleFrames_keeps step _ (beside_setStream differs ?_) read
    rfl
  · exact beside_handlePushStream differs handled
  · obtain ⟨decoder, -, rest⟩ := bind_ok handled
    cases rest
    refine Beside.trans (beside_setStream differs ?_) (beside_of_eq rfl rfl rfl)
    rfl
  · cases handled
    refine beside_setStream differs ?_
    rfl
  · cases handled
    exact Beside.refl _

theorem beside_recvUniStreamData {other : Nat} (differs : streamId ≠ other) {data : Bytes}
    {fin : Bool} {after : Session}
    (received : session.recvUniStreamData other data fin = .ok after) :
    Beside streamId ref session after := by
  have begun (buffer : Nat → Bytes) : Beside streamId ref session
      { session.setStream other { session.stream other with streamId := other } with
        uniStreamBuf := buffer } := by
    refine Beside.trans (beside_setStream differs ?_) (beside_of_eq rfl rfl rfl)
    rfl
  unfold recvUniStreamData at received
  dsimp only at received
  split at received
  · cases received
    exact begun _
  · exact (begun _).trans (beside_processUniStream differs received)

/-! ### Runs of callbacks -/

theorem Run.append {start middle final : Session} {moments more : List Moment}
    (run : Run streamId ref start moments middle) (later : Run streamId ref middle more final) :
    Run streamId ref start (moments ++ more) final := by
  induction later with
  | nil =>
    rw [List.append_nil]
    exact run
  | snoc later step inductionHypothesis =>
    rw [← List.append_assoc]
    exact .snoc inductionHypothesis step

theorem Run.owns {start final : Session} {moments : List Moment}
    (run : Run streamId ref start moments final) (owns : start.Owns streamId ref) :
    final.Owns streamId ref := by
  induction run with
  | nil => exact owns
  | snoc _ step inductionHypothesis => exact inductionHypothesis.step step

/-- A run with the occurrences. -/
def Reaches (streamId ref : Nat) (start : Session) (occurrences : List Occurrence)
    (final : Session) : Prop :=
  ∃ moments, Run streamId ref start moments final ∧ moments.map Moment.occurrence = occurrences

theorem Reaches.append {start middle final : Session} {occurrences more : List Occurrence}
    (first : Reaches streamId ref start occurrences middle)
    (later : Reaches streamId ref middle more final) :
    Reaches streamId ref start (occurrences ++ more) final := by
  obtain ⟨moments, run, rfl⟩ := first
  obtain ⟨others, rest, rfl⟩ := later
  exact ⟨moments ++ others, run.append rest, List.map_append⟩

theorem Step.reaches {moment : Moment} (step : Step streamId ref moment) :
    Reaches streamId ref moment.before [moment.occurrence] moment.after :=
  ⟨[moment], .snoc .nil step, rfl⟩

theorem Reaches.owns {start final : Session} {occurrences : List Occurrence}
    (reaches : Reaches streamId ref start occurrences final) (owns : start.Owns streamId ref) :
    final.Owns streamId ref := by
  obtain ⟨moments, run, -⟩ := reaches
  exact run.owns owns

/-- Frames are handled one after the other. -/
theorem reaches_handleFrames (passes : Nat) {reader final : FrameReader} {rest : Bytes}
    {after : Session}
    (read : FrameReader.handleFrames (handleRequestFrame streamId) passes reader rest session =
      .ok (final, after)) :
    ∃ frames : List Frame, Reaches streamId ref session (frames.map .frame) after := by
  have step (middle : Session) (f : Frame) (next : Session)
      (reached : ∃ frames : List Frame, Reaches streamId ref session (frames.map .frame) middle)
      (handled : middle.handleRequestFrame streamId f = .ok next) :
      ∃ frames : List Frame, Reaches streamId ref session (frames.map .frame) next := by
    obtain ⟨frames, reaches⟩ := reached
    refine ⟨frames ++ [f], ?_⟩
    rw [List.map_append]
    exact reaches.append (Step.reaches (.frame handled))
  exact handleFrames_keeps step passes ⟨[], [], .nil, rfl⟩ read

/-- What only bears on the reader and the phase of the stream. -/
theorem aside_modifyStream {change : StreamState → StreamState}
    (keeps : ∀ ss, (change ss).resp = ss.resp ∧ (change ss).respBody = ss.respBody ∧
      (change ss).respHeadersComplete = ss.respHeadersComplete ∧ (change ss).promise = ss.promise)
    (known : (session.streams streamId).isSome) :
    Aside streamId ref session (session.modifyStream streamId change) := by
  obtain ⟨resp, respBody, respHeadersComplete, promise⟩ := keeps (session.stream streamId)
  have same := stream_modifyStream session streamId change
  refine ⟨rfl, ?_, ?_, ?_, ?_, ?_, rfl, rfl⟩
  · rw [same, resp]
  · rw [same, respBody]
  · rw [same, respHeadersComplete]
  · rw [same, promise]
  · rw [known]
    exact isSome_modifyStream session streamId change

/-- What a callback is on the stream: a delivery of it is frames, and the data may end. -/
def Callback.Occurs (streamId : Nat) (occurrences : List Occurrence) : Callback → Prop
  | .recv other _ fin =>
      if streamId = other then
        ∃ frames : List Frame,
          occurrences = .aside :: frames.map .frame ++ .aside :: if fin then [.fin] else []
      else occurrences = [.aside]
  | .close other => occurrences = [if streamId = other then .close else .aside]

theorem reaches_recvBidiStreamData (owns : session.Owns streamId ref) {data : Bytes} {fin : Bool}
    {after : Session} (received : session.recvBidiStreamData streamId data fin = .ok after) :
    ∃ frames : List Frame, Reaches streamId ref session
      (.aside :: frames.map .frame ++ .aside :: if fin then [.fin] else []) after := by
  obtain ⟨⟨reader, handled⟩, read, rest⟩ := bind_ok received
  have begun : Aside streamId ref session (session.modifyStream streamId (receiving streamId)) :=
    aside_modifyStream (fun ss => ⟨rfl, rfl, rfl, rfl⟩) owns.known
  obtain ⟨frames, reaches⟩ : ∃ frames : List Frame, Reaches streamId ref
      (session.modifyStream streamId (receiving streamId)) (frames.map .frame) handled :=
    reaches_handleFrames _ read
  have first := (Step.reaches (.aside begun)).append reaches
  have kept : Aside streamId ref handled
      (handled.modifyStream streamId fun ss => { ss with reader }) :=
    aside_modifyStream (fun ss => ⟨rfl, rfl, rfl, rfl⟩) (first.owns owns).known
  have second := Step.reaches (.aside kept)
  cases fin with
  | false =>
    cases rest
    exact ⟨frames, first.append second⟩
  | true =>
    cases rest
    exact ⟨frames, first.append (second.append (Step.reaches (.fin _)))⟩

/-- The other streams have other promises. -/
def Alone (session : Session) (streamId ref : Nat) : Prop :=
  ∀ other, streamId ≠ other → (session.stream other).promise ≠ some ref

theorem Alone.kept {after : Session} (alone : session.Alone streamId ref)
    (promises : ∀ other, (after.stream other).promise = (session.stream other).promise) :
    after.Alone streamId ref := by
  intro other differs
  rw [promises other]
  exact alone other differs

/-- A callback is a run of moments on the stream. -/
theorem reaches_callback (owns : session.Owns streamId ref) (alone : session.Alone streamId ref)
    (bidirectional : streamId &&& 0x02 = 0) {call : Callback} {after : Session}
    (called : session.callback call = .ok after) :
    (∃ occurrences, call.Occurs streamId occurrences ∧
      Reaches streamId ref session occurrences after) ∧ after.Alone streamId ref := by
  -- Seen from another stream, a callback on this one lets all streams keep their promises.
  have differs : streamId + 1 ≠ streamId := Nat.succ_ne_self streamId
  have apart : (session.stream streamId).promise ≠ some (ref + 1) := by
    rw [owns.promise]
    exact fun wrong => Nat.succ_ne_self ref (Option.some.inj wrong).symm
  cases call with
  | recv other data fin =>
    by_cases same : streamId = other
    · rw [← same] at called ⊢
      have received : session.recvBidiStreamData streamId data fin = .ok after := by
        rw [← called]
        exact (if_neg (not_not_intro bidirectional)).symm
      have kept := beside_recvBidiStreamData owns.client differs apart received
      obtain ⟨frames, reaches⟩ := reaches_recvBidiStreamData owns received
      exact ⟨⟨_, (if_pos rfl).mpr ⟨frames, rfl⟩, reaches⟩, alone.kept kept.promises⟩
    · have beside : Beside streamId ref session after := by
        change (if other &&& 0x02 ≠ 0 then _ else _) = _ at called
        split at called
        · exact beside_recvUniStreamData same called
        · exact beside_recvBidiStreamData owns.client same (alone other same) called
      exact ⟨⟨_, (if_neg same).mpr rfl, Step.reaches (.aside beside.aside)⟩,
        alone.kept beside.promises⟩
  | close other =>
    cases called
    refine ⟨⟨_, rfl, ?_⟩, ?_⟩
    · by_cases same : streamId = other
      · rw [if_pos same, ← same]
        exact Step.reaches (.close session)
      · rw [if_neg same]
        exact Step.reaches (.aside (beside_streamClose same (alone other same)).aside)
    · by_cases same : streamId = other
      · rw [← same]
        have kept : Beside (streamId + 1) (ref + 1) session (session.streamClose streamId) :=
          beside_streamClose differs apart
        exact alone.kept kept.promises
      · exact alone.kept (beside_streamClose same (alone other same)).promises

/-- Callbacks, one after the other, are a run of what they are on the stream. -/
theorem reaches_callbacks (calls : List Callback) (owns : session.Owns streamId ref)
    (alone : session.Alone streamId ref) (bidirectional : streamId &&& 0x02 = 0) {final : Session}
    (called : calls.foldlM callback session = .ok final) :
    ∃ parts, List.Forall₂ (fun call part => call.Occurs streamId part) calls parts ∧
      Reaches streamId ref session parts.flatten final := by
  induction calls generalizing session with
  | nil =>
    cases called
    exact ⟨[], .nil, [], .nil, rfl⟩
  | cons call calls inductionHypothesis =>
    rw [List.foldlM_cons] at called
    obtain ⟨middle, first, later⟩ := bind_ok called
    obtain ⟨⟨part, occurs, reaches⟩, still⟩ := reaches_callback owns alone bidirectional first
    obtain ⟨parts, others, rest⟩ := inductionHypothesis (reaches.owns owns) still later
    exact ⟨part :: parts, .cons occurs others, reaches.append rest⟩

end Session

end AsyncNet.Http.H3
