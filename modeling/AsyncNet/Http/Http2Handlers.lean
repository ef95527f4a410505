/-
This file says for every handler of a frame what it adds to the log, which streams it
can end and what it does to a header block that waits for more. The later files derive
the invariants of a session from these statements alone.
-/

import AsyncNet.Http.Http2Calls
import AsyncNet.Library.Runs

namespace AsyncNet.Http

open Library H2

/-! ### The log -/

/-- The frames of a log. -/
def framesOf (events : List Event) : List Frame :=
  events.filterMap fun event => match event with | .frame f => some f | _ => none

/-- The header blocks passed to the decoder. -/
def decodesOf (events : List Event) : List Bytes :=
  events.filterMap fun event => match event with | .decode block => some block | _ => none

/-- The streams whose requests were dispatched. -/
def dispatchesOf (events : List Event) : List Nat :=
  events.filterMap fun event => match event with | .dispatch sid => some sid | _ => none

namespace Connection

section Log

variable (connection : Connection) (event : Event)

theorem framesOf_record :
    framesOf (connection.record event).events = framesOf connection.events ++ framesOf [event] :=
  List.filterMap_append

theorem decodesOf_record :
    decodesOf (connection.record event).events =
      decodesOf connection.events ++ decodesOf [event] := List.filterMap_append

theorem dispatchesOf_record :
    dispatchesOf (connection.record event).events =
      dispatchesOf connection.events ++ dispatchesOf [event] := List.filterMap_append

end Log

/-- From one to the other, no frame was taken up, the blocks were decoded, the streams were
dispatched, no stream was ended but those that may be, and no header block has grown. -/
structure Advances (blocks : List Bytes) (dispatched : List Nat) (ends : Nat → Prop)
    (before after : Connection) : Prop where
  frames : framesOf after.events = framesOf before.events
  decodes : decodesOf after.events = decodesOf before.events ++ blocks
  dispatches : dispatchesOf after.events = dispatchesOf before.events ++ dispatched
  continuationStream : after.continuationStream = before.continuationStream
  ended : ∀ sid, (after.stream sid).endStream = true →
    (before.stream sid).endStream = true ∨ ends sid
  pending : ∀ sid, (after.stream sid).pendingHeaderBlock =
    (before.stream sid).pendingHeaderBlock ∨ (after.stream sid).pendingHeaderBlock = []

theorem Advances.trans {blocks laterBlocks : List Bytes} {dispatched laterDispatched : List Nat}
    {ends : Nat → Prop} {first second third : Connection}
    (left : Advances blocks dispatched ends first second)
    (right : Advances laterBlocks laterDispatched ends second third) :
    Advances (blocks ++ laterBlocks) (dispatched ++ laterDispatched) ends first third where
  frames := right.frames.trans left.frames
  decodes := by rw [right.decodes, left.decodes, List.append_assoc]
  dispatches := by rw [right.dispatches, left.dispatches, List.append_assoc]
  continuationStream := right.continuationStream.trans left.continuationStream
  ended := fun sid ended =>
    (right.ended sid ended).elim (left.ended sid) Or.inr
  pending := fun sid =>
    (right.pending sid).elim (fun same => by rw [same]; exact left.pending sid) Or.inr

/-- A part that adds nothing to the log comes last. -/
theorem Advances.andThen {blocks : List Bytes} {dispatched : List Nat} {ends : Nat → Prop}
    {first second third : Connection} (left : Advances blocks dispatched ends first second)
    (right : Advances [] [] ends second third) : Advances blocks dispatched ends first third := by
  have both := left.trans right
  rw [List.append_nil, List.append_nil] at both
  exact both

theorem Quiet.advances {before after : Connection} (quiet : Quiet before after)
    (ends : Nat → Prop) : Advances [] [] ends before after where
  frames := by rw [quiet.events]
  decodes := by rw [quiet.events, List.append_nil]
  dispatches := by rw [quiet.events, List.append_nil]
  continuationStream := quiet.continuationStream
  ended := fun sid ended => by
    have same : (after.stream sid).endStream = (before.stream sid).endStream :=
      congrArg StreamCore.endStream (quiet.core sid)
    exact Or.inl (same ▸ ended)
  pending := fun sid => Or.inl (congrArg StreamCore.pendingHeaderBlock (quiet.core sid))

section Handlers

variable (connection : Connection) (ends : Nat → Prop)

theorem ended_modifyStream (sid : Nat) (change : StreamState → StreamState)
    (keeps : ∀ state, (change state).endStream = true → state.endStream = true ∨ ends sid)
    (other : Nat) (ended : ((connection.modifyStream sid change).stream other).endStream = true) :
    (connection.stream other).endStream = true ∨ ends other := by
  by_cases same : other = sid
  · subst same
    rw [stream, streams_modifyStream] at ended
    rw [stream]
    cases found : connection.streams other with
    | none => rw [found] at ended; cases ended
    | some state => rw [found] at ended; exact keeps state ended
  · rw [stream_modifyStream_of_ne _ _ _ _ same] at ended
    exact Or.inl ended

/-- A change to a stream that does not end it, or ends one that may end, and does not add to its
header block. -/
theorem advances_modifyStream (sid : Nat) (change : StreamState → StreamState)
    (keeps : ∀ state, ((change state).endStream = true → state.endStream = true ∨ ends sid) ∧
      ((change state).pendingHeaderBlock = state.pendingHeaderBlock ∨
        (change state).pendingHeaderBlock = [])) :
    Advances [] [] ends connection (connection.modifyStream sid change) where
  frames := rfl
  decodes := (List.append_nil _).symm
  dispatches := (List.append_nil _).symm
  continuationStream := rfl
  ended := ended_modifyStream connection ends sid change fun state => (keeps state).1
  pending := fun other => by
    by_cases same : other = sid
    · subst same
      rw [stream, stream, streams_modifyStream]
      cases connection.streams other with
      | none => exact Or.inl rfl
      | some state => exact (keeps state).2
    · rw [stream_modifyStream_of_ne _ _ _ _ same]
      exact Or.inl rfl

/-- An event of the log that is neither a frame nor a block nor a dispatch. -/
theorem advances_record (event : Event) (quiet : framesOf [event] = [] ∧ decodesOf [event] = [] ∧
    dispatchesOf [event] = []) : Advances [] [] ends connection (connection.record event) where
  frames := by rw [framesOf_record, quiet.1, List.append_nil]
  decodes := by rw [decodesOf_record, quiet.2.1]
  dispatches := by rw [dispatchesOf_record, quiet.2.2]
  continuationStream := rfl
  ended := fun _ ended => Or.inl ended
  pending := fun _ => Or.inl rfl

theorem advances_dispatch (sid : Nat) :
    Advances [] [sid] ends connection (connection.record (.dispatch sid)) where
  frames := (framesOf_record connection (.dispatch sid)).trans (List.append_nil _)
  decodes := decodesOf_record connection (.dispatch sid)
  dispatches := dispatchesOf_record connection (.dispatch sid)
  continuationStream := rfl
  ended := fun _ ended => Or.inl ended
  pending := fun _ => Or.inl rfl

theorem advances_callDataCallback (cb : DataCallback) (sid : Nat) (data : Bytes)
    (endStream : Bool) :
    Advances [] [] ends connection (connection.callDataCallback cb sid data endStream) :=
  (advances_record connection ends (.dataCallback sid data endStream) ⟨rfl, rfl, rfl⟩).trans
    ((quiet_commands _ _).advances ends)

theorem advances_pushAssociated (config : Config) (sid : Nat) :
    Advances [] [] ends connection (connection.pushAssociated config sid) := by
  unfold pushAssociated
  split
  · exact (Quiet.refl connection).advances ends
  · split
    · refine Advances.andThen ?_ ((quiet_foldl_doSubmitPush _ sid _).advances ends)
      exact advances_record connection ends (.pushProvider _) ⟨rfl, rfl, rfl⟩
    · exact (Quiet.refl connection).advances ends

theorem advances_answerRequest (config : Config) (sid : Nat) :
    Advances [] [] ends connection (connection.answerRequest config sid) := by
  unfold answerRequest
  split
  · exact (quiet_doSubmitResponse connection sid _).advances ends
  · refine Advances.andThen ?_ (advances_pushAssociated _ ends config sid)
    refine Advances.andThen ?_ ((quiet_doSubmitResponse _ sid _).advances ends)
    exact advances_record connection ends (.requestHandler _) ⟨rfl, rfl, rfl⟩

theorem advances_callStreamingRequestHandler (config : Config) (sid : Nat) :
    Advances [] [] ends connection (connection.callStreamingRequestHandler config sid).2 := by
  unfold callStreamingRequestHandler
  split
  · exact (Quiet.refl connection).advances ends
  · refine Advances.andThen ?_ ((quiet_commands _ _).advances ends)
    exact advances_record connection ends (.streamingRequestHandler sid _) ⟨rfl, rfl, rfl⟩

theorem advances_dispatchRequest (config : Config) (sid : Nat) :
    Advances [] [sid] ends connection (connection.dispatchRequest config sid) := by
  have offered : Advances [] [sid] ends connection
      (((connection.record (.dispatch sid)).modifyStream sid fun state =>
        { state with req := { state.req with bd := state.body }, body := [] }
        ).callStreamingRequestHandler config sid).2 := by
    refine Advances.andThen ?_ (advances_callStreamingRequestHandler _ ends config sid)
    refine Advances.andThen ?_ (advances_modifyStream _ ends sid _ fun _ => ⟨Or.inl, Or.inl rfl⟩)
    exact advances_dispatch connection ends sid
  unfold dispatchRequest
  dsimp only
  split
  · exact offered
  · exact offered.andThen (advances_answerRequest _ ends config sid)

theorem advances_setPromise (ref : PromiseRef) (promise : ResponsePromise) :
    Advances [] [] ends connection (connection.setPromise ref promise) :=
  ⟨rfl, (List.append_nil _).symm, (List.append_nil _).symm, rfl, fun _ => Or.inl,
    fun _ => Or.inl rfl⟩

/-- A promise is marked complete, which a coroutine may wait for. -/
theorem advances_announce (ref : PromiseRef) (waiter : Bool) :
    Advances [] [] ends connection
      (if waiter then
        ({ connection with
          completedPromises := connection.completedPromises ++ [ref] } : Connection).record
          (.resume ref)
      else { connection with completedPromises := connection.completedPromises ++ [ref] }) := by
  have listed : Advances [] [] ends connection
      { connection with completedPromises := connection.completedPromises ++ [ref] } :=
    ⟨rfl, (List.append_nil _).symm, (List.append_nil _).symm, rfl, fun _ => Or.inl,
    fun _ => Or.inl rfl⟩
  split
  · exact listed.trans (advances_record _ ends (.resume ref) ⟨rfl, rfl, rfl⟩)
  · exact listed

theorem advances_completePromise (sid : Nat) :
    Advances [] [] ends connection (connection.completePromise sid) := by
  unfold completePromise
  dsimp only
  split
  · exact advances_modifyStream connection ends sid _ fun _ => ⟨Or.inl, Or.inl rfl⟩
  · refine Advances.andThen ?_ (advances_announce _ ends _ _)
    refine Advances.andThen ?_ (advances_modifyStream _ ends sid _ fun _ => ⟨Or.inl, Or.inl rfl⟩)
    refine Advances.andThen ?_ (advances_setPromise _ ends _ _)
    exact advances_modifyStream connection ends sid _ fun _ => ⟨Or.inl, Or.inl rfl⟩

theorem advances_replenishConnection :
    Advances [] [] ends connection connection.replenishConnection := by
  unfold replenishConnection
  split
  · exact (Quiet.refl connection).advances ends
  · exact ⟨rfl, (List.append_nil _).symm, (List.append_nil _).symm, rfl, fun _ => Or.inl,
    fun _ => Or.inl rfl⟩

theorem advances_replenishStream (sid : Nat) :
    Advances [] [] ends connection (connection.replenishStream sid) := by
  unfold replenishStream
  split
  · exact (Quiet.refl connection).advances ends
  · refine Advances.andThen ?_ (advances_modifyStream _ ends sid _ fun _ => ⟨Or.inl, Or.inl rfl⟩)
    exact (quiet_enqueue connection _).advances ends

theorem advances_updateWindows (sid length : Nat) :
    Advances [] [] ends connection (connection.updateWindows sid length) := by
  unfold updateWindows
  refine Advances.andThen ?_ (advances_replenishStream _ ends sid)
  refine Advances.andThen ?_ (advances_replenishConnection _ ends)
  refine Advances.andThen ?_ (advances_modifyStream _ ends sid _ fun _ => ⟨Or.inl, Or.inl rfl⟩)
  exact ⟨rfl, (List.append_nil _).symm, (List.append_nil _).symm, rfl, fun _ => Or.inl,
    fun _ => Or.inl rfl⟩

theorem advances_goaway (error : ErrorCode) (debug : Bytes) :
    Advances [] [] ends connection (connection.goaway error debug) :=
  ⟨rfl, (List.append_nil _).symm, (List.append_nil _).symm, rfl, fun _ => Or.inl,
    fun _ => Or.inl rfl⟩

end Handlers

/-! ### The handlers of the frames -/

section Frames

variable (config : Config) (connection : Connection)

/-- The stream of a frame, if the frame ends it. -/
def endedBy (f : Frame) (sid : Nat) : Prop :=
  sid = f.hdr.streamId ∧ f.hdr.hasFlag Flag.endStream = true

/-- The dispatches that a stream can get which is ended or not. -/
def MayDispatch (sid : Nat) (endStream : Bool) (dispatched : List Nat) : Prop :=
  dispatched = [] ∨ endStream = true ∧ dispatched = [sid]

theorem advances_deliverData (ends : Nat → Prop) (sid : Nat) (state : StreamState) (data : Bytes)
    (endStream : Bool) :
    Advances [] [] ends connection (connection.deliverData sid state data endStream) := by
  unfold deliverData
  split
  · exact advances_callDataCallback connection ends _ sid data endStream
  · exact advances_modifyStream connection ends sid _ fun _ => ⟨Or.inl, Or.inl rfl⟩

/-- A change to a stream that leaves alone whether a streaming handler has taken it. -/
theorem streamingHandled_modifyStream (sid other : Nat) (change : StreamState → StreamState)
    (keeps : ∀ state, (change state).streamingHandled = state.streamingHandled) :
    ((connection.modifyStream sid change).stream other).streamingHandled =
      (connection.stream other).streamingHandled := by
  by_cases same : other = sid
  · subst same
    rw [stream, stream, streams_modifyStream]
    cases connection.streams other with
    | none => rfl
    | some state => exact keeps state
  · rw [stream_modifyStream_of_ne _ _ _ _ same]

theorem streamingHandled_deliverData (sid : Nat) (state : StreamState) (data : Bytes)
    (endStream : Bool) :
    ((connection.deliverData sid state data endStream).stream sid).streamingHandled =
      (connection.stream sid).streamingHandled := by
  unfold deliverData
  split
  · exact congrArg StreamCore.streamingHandled
      ((quiet_commands (connection.record (.dataCallback sid data endStream)) _).core sid)
  · exact streamingHandled_modifyStream connection sid sid _ fun _ => rfl

theorem streamingHandled_updateWindows (sid length : Nat) :
    ((connection.updateWindows sid length).stream sid).streamingHandled =
      (connection.stream sid).streamingHandled := by
  have connectionKeeps (before : Connection) : (before.replenishConnection.stream sid) =
      before.stream sid := by
    unfold replenishConnection
    split <;> rfl
  have streamKeeps (before : Connection) :
      ((before.replenishStream sid).stream sid).streamingHandled =
        (before.stream sid).streamingHandled := by
    unfold replenishStream
    split
    · rfl
    · exact streamingHandled_modifyStream (before.enqueue _) sid sid _ fun _ => rfl
  unfold updateWindows
  rw [streamKeeps, connectionKeeps]
  exact streamingHandled_modifyStream _ sid sid _ fun _ => rfl

theorem endData_advances (ends : Nat → Prop) (sid : Nat) (ended : ends sid) :
    ∃ dispatched, MayDispatch sid (!(connection.stream sid).streamingHandled) dispatched ∧
      Advances [] dispatched ends connection (connection.endData config sid) := by
  have marked := advances_modifyStream connection ends sid
    (fun state => { state with endStream := true }) fun _ => ⟨fun _ => Or.inr ended, Or.inl rfl⟩
  have handled := streamingHandled_modifyStream connection sid sid
    (fun state => { state with endStream := true }) fun _ => rfl
  unfold endData
  dsimp only
  split
  · split
    · exact ⟨[], Or.inl rfl, marked⟩
    · rename_i notHandled
      rw [handled] at notHandled
      refine ⟨[sid], Or.inr ⟨?_, rfl⟩, marked.trans (advances_dispatchRequest _ ends config sid)⟩
      rw [Bool.eq_false_of_not_eq_true notHandled]
      rfl
  · exact ⟨[], Or.inl rfl, marked.andThen (advances_completePromise _ ends sid)⟩

/-- A DATA frame dispatches its stream at most once, and only if it ends it and no streaming
handler has taken it. -/
theorem handleData_advances (f : Frame) :
    ∃ dispatched, MayDispatch f.hdr.streamId (f.hdr.hasFlag Flag.endStream &&
        (connection.streams f.hdr.streamId).any fun state => !state.streamingHandled) dispatched ∧
      Advances [] dispatched (endedBy f) connection (connection.handleData config f) := by
  unfold handleData
  dsimp only
  split
  · exact ⟨[], Or.inl rfl, advances_goaway connection _ _ _⟩
  · split
    · exact ⟨[], Or.inl rfl, (quiet_enqueue connection _).advances _⟩
    · rename_i state found
      split
      · exact ⟨[], Or.inl rfl, advances_goaway connection _ _ _⟩
      · rename_i data _
        have counted := (advances_deliverData connection (endedBy f) f.hdr.streamId state data
          (f.hdr.hasFlag Flag.endStream)).andThen
            (advances_updateWindows _ (endedBy f) f.hdr.streamId data.length)
        split
        · rename_i endStream
          obtain ⟨dispatched, may, advances⟩ :=
            endData_advances config _ (endedBy f) f.hdr.streamId ⟨rfl, endStream⟩
          rw [streamingHandled_updateWindows, streamingHandled_deliverData,
            stream_of_some connection f.hdr.streamId found] at may
          refine ⟨dispatched, ?_, counted.trans advances⟩
          rw [found, endStream]
          exact may
        · exact ⟨[], Or.inl rfl, counted⟩

theorem callRequestStartHandler_advances (ends : Nat → Prop)
    (handler : Nat → Request → Bool → Bool × List Command) (sid : Nat) (endStream : Bool) :
    Advances [] [] ends connection
      (connection.callRequestStartHandler handler sid endStream).2 := by
  have called : Advances [] [] ends connection
      ((connection.record (.requestStartHandler sid (connection.stream sid).req endStream)).commands
        (handler sid (connection.stream sid).req endStream).2) := by
    refine Advances.andThen ?_ ((quiet_commands _ _).advances ends)
    exact advances_record connection ends _ ⟨rfl, rfl, rfl⟩
  unfold callRequestStartHandler
  dsimp only
  split
  · exact called.andThen (advances_modifyStream _ ends sid _ fun _ => ⟨Or.inl, Or.inl rfl⟩)
  · exact called

/-- The headers of a request dispatch its stream at most once, and only if they end it. -/
theorem applyHeaders_advances (ends : Nat → Prop) (sid : Nat) (headers : Headers)
    (endStream : Bool) (ended : endStream = true → ends sid) :
    ∃ dispatched, MayDispatch sid endStream dispatched ∧
      Advances [] dispatched ends connection
        (connection.applyHeaders config sid headers endStream) := by
  have applied := advances_modifyStream connection ends sid (fun state =>
    { state with
      headersComplete := true
      req := { headers.foldl applyRequestHeader state.req with ver := .http2 } }) fun _ =>
        ⟨Or.inl, Or.inl rfl⟩
  unfold applyHeaders
  dsimp only
  split
  · rename_i isEnd
    have marked := applied.andThen (advances_modifyStream _ ends sid
      (fun state => { state with endStream := true }) fun _ =>
        ⟨fun _ => Or.inr (ended isEnd), Or.inl rfl⟩)
    split
    · exact ⟨[sid], Or.inr ⟨isEnd, rfl⟩, marked.trans (advances_dispatchRequest _ ends config sid)⟩
    · rename_i handler _
      have called := marked.andThen (callRequestStartHandler_advances _ ends handler sid true)
      split
      · exact ⟨[], Or.inl rfl, called⟩
      · exact ⟨[sid], Or.inr ⟨isEnd, rfl⟩,
          called.trans (advances_dispatchRequest _ ends config sid)⟩
  · split
    · exact ⟨[], Or.inl rfl, applied⟩
    · rename_i handler _
      exact ⟨[], Or.inl rfl,
        applied.andThen (callRequestStartHandler_advances _ ends handler sid false)⟩

theorem applyResponseHeaders_advances (ends : Nat → Prop) (sid : Nat) (headers : Headers)
    (endStream : Bool) (ended : endStream = true → ends sid) :
    Advances [] [] ends connection (connection.applyResponseHeaders sid headers endStream) := by
  have applied := advances_modifyStream connection ends sid (fun state =>
    { state with
      headersComplete := true
      resp := { headers.foldl applyResponseHeader state.resp with ver := .http2 } }) fun _ =>
        ⟨Or.inl, Or.inl rfl⟩
  unfold applyResponseHeaders
  dsimp only
  split
  · rename_i isEnd
    refine Advances.andThen ?_ (advances_completePromise _ ends sid)
    exact applied.andThen (advances_modifyStream _ ends sid _ fun _ =>
      ⟨fun _ => Or.inr (ended isEnd), Or.inl rfl⟩)
  · exact applied

theorem decode_advances (ends : Nat → Prop) (block : Bytes) (headers : Headers)
    (decoded : Connection) (run : connection.decode block = .ok (headers, decoded)) :
    Advances [block] [] ends connection decoded ∧ decoded.streams = connection.streams := by
  obtain ⟨⟨found, decoder⟩, _, last⟩ := bind_ok run
  cases last
  have frames := (framesOf_record connection (.decode block)).trans (List.append_nil _)
  exact ⟨⟨frames, decodesOf_record connection (.decode block),
    dispatchesOf_record connection (.decode block), rfl, fun _ => Or.inl,
    fun _ => Or.inl rfl⟩, rfl⟩

/-- A header block is kept until its CONTINUATION frames have come. -/
structure Pends (block : Bytes) (sid : Nat) (ends : Nat → Prop) (before after : Connection) :
    Prop where
  frames : framesOf after.events = framesOf before.events
  decodes : decodesOf after.events = decodesOf before.events
  dispatches : dispatchesOf after.events = dispatchesOf before.events
  continuationStream : after.continuationStream = sid
  pending : ∃ state, after.streams sid = some state ∧ state.pendingHeaderBlock = block
  ended : ∀ other, (after.stream other).endStream = true →
    (before.stream other).endStream = true ∨ ends other
  others : ∀ other, other ≠ sid → (after.stream other).pendingHeaderBlock =
    (before.stream other).pendingHeaderBlock ∨ (after.stream other).pendingHeaderBlock = []

theorem awaitContinuation_pends (ends : Nat → Prop) (sid : Nat) (block : Bytes) (endStream : Bool)
    (ended : endStream = true → ends sid) (present : (connection.streams sid).isSome = true) :
    Pends block sid ends connection (connection.awaitContinuation sid block endStream) where
  frames := rfl
  decodes := rfl
  dispatches := rfl
  continuationStream := rfl
  pending := by
    obtain ⟨state, found⟩ := Option.isSome_iff_exists.mp present
    refine ⟨{ state with pendingHeaderBlock := block, endStream := state.endStream || endStream },
      ?_, rfl⟩
    show (connection.modifyStream sid _).streams sid = _
    rw [streams_modifyStream, found]
    rfl
  ended := ended_modifyStream connection ends sid _ fun state isEnded =>
    (Bool.or_eq_true _ _ ▸ isEnded).imp_right ended
  others := fun other different =>
    Or.inl (congrArg _ (stream_modifyStream_of_ne connection sid _ other different))

theorem openStream_advances (ends : Nat → Prop) (sid : Nat) :
    Advances [] [] ends connection (connection.openStream sid) where
  frames := rfl
  decodes := (List.append_nil _).symm
  dispatches := (List.append_nil _).symm
  continuationStream := rfl
  ended := ((quiet_setStream connection sid
    { connection.stream sid with streamId := sid, state := .opened } rfl).advances ends).ended
  pending := ((quiet_setStream connection sid
    { connection.stream sid with streamId := sid, state := .opened } rfl).advances ends).pending

theorem endStreaming_advances (ends : Nat → Prop) (sid : Nat) (ended : ends sid) :
    Advances [] [] ends connection (connection.endStreaming sid) := by
  unfold endStreaming
  refine Advances.andThen ?_ (advances_modifyStream _ ends sid _ fun _ =>
    ⟨fun _ => Or.inr ended, Or.inl rfl⟩)
  split
  · exact (Quiet.refl connection).advances ends
  · exact advances_callDataCallback connection ends _ sid [] true

/-- What HEADERS can do on a server: end a streaming request, complete a block or keep it. -/
theorem handleRequestHeaders_cases (ends : Nat → Prop) (sid : Nat) (block : Bytes)
    (endHeaders endStream : Bool) (next : Connection) (ended : endStream = true → ends sid)
    (handled : connection.handleRequestHeaders config sid block endHeaders endStream = .ok next) :
    connection.streamingTrailers sid endStream = true ∧ Advances [] [] ends connection next ∨
    connection.streamingTrailers sid endStream = false ∧ endHeaders = true ∧
      (∃ dispatched, MayDispatch sid endStream dispatched ∧
        Advances [block] dispatched ends connection next) ∨
    connection.streamingTrailers sid endStream = false ∧ endHeaders = false ∧
      Pends block sid ends connection next := by
  unfold handleRequestHeaders at handled
  split at handled
  · rename_i trailers
    cases handled
    have isEnd : endStream = true := by
      unfold streamingTrailers at trailers
      split at trailers
      · cases trailers
      · exact (Bool.and_eq_true _ _ ▸ trailers).2
    exact Or.inl ⟨trailers, endStreaming_advances connection ends sid (ended isEnd)⟩
  · rename_i notTrailers
    have opened := openStream_advances connection ends sid
    refine Or.inr ?_
    split at handled
    · rename_i complete
      obtain ⟨⟨headers, decoded⟩, run, last⟩ := bind_ok handled
      cases last
      obtain ⟨block', _⟩ := decode_advances _ ends block headers decoded run
      obtain ⟨dispatched, may, applied⟩ :=
        applyHeaders_advances config decoded ends sid headers endStream ended
      exact Or.inl ⟨Bool.eq_false_of_not_eq_true notTrailers, complete, dispatched, may,
        (opened.trans block').trans applied⟩
    · rename_i incomplete
      cases handled
      have pends := awaitContinuation_pends (connection.openStream sid) ends sid block endStream
        ended (by
          rw [openStream]
          exact congrArg Option.isSome (streams_setStream connection sid _))
      refine Or.inr ⟨Bool.eq_false_of_not_eq_true notTrailers,
        Bool.eq_false_of_not_eq_true incomplete, ?_⟩
      exact { pends with
        ended := fun other isEnded => (pends.ended other isEnded).elim (opened.ended other) Or.inr
        others := fun other different => (pends.others other different).elim
          (fun same => by rw [same]; exact opened.pending other) Or.inr }

/-- What HEADERS can do on a client: nothing on an unknown stream, end a streaming response,
complete a block or keep it. -/
theorem handleResponseHeaders_cases (ends : Nat → Prop) (sid : Nat) (block : Bytes)
    (endHeaders endStream : Bool) (next : Connection) (ended : endStream = true → ends sid)
    (handled : connection.handleResponseHeaders sid block endHeaders endStream = .ok next) :
    connection.streams sid = none ∧ Advances [] [] ends connection next ∨
    (∃ state, connection.streams sid = some state ∧
      (endHeaders = true ∨
        state.headersComplete = true ∧ state.dataCb.isSome = true ∧ endStream = true) ∧
      Advances [block] [] ends connection next) ∨
    (∃ state, connection.streams sid = some state ∧ endHeaders = false ∧
      Pends block sid ends connection next) := by
  have complete (before : Connection) (run : (before.decode block >>= fun decoded =>
      .ok (decoded.2.applyResponseHeaders sid decoded.1 endStream)) = Except.ok next) :
      Advances [block] [] ends before next := by
    obtain ⟨⟨headers, decoded⟩, decodes, last⟩ := bind_ok run
    cases last
    obtain ⟨block', _⟩ := decode_advances before ends block headers decoded decodes
    exact block'.andThen (applyResponseHeaders_advances decoded ends sid headers endStream ended)
  unfold handleResponseHeaders at handled
  split at handled
  · rename_i unknown
    cases handled
    exact Or.inl ⟨unknown, (Quiet.refl connection).advances ends⟩
  · rename_i state found
    refine Or.inr ?_
    split at handled
    · rename_i cb trailers set
      rw [Bool.and_eq_true] at trailers
      have told := advances_callDataCallback connection ends cb sid [] true
      refine Or.inl ⟨state, found, Or.inr ⟨trailers.1, by rw [set]; rfl, trailers.2⟩, ?_⟩
      exact told.trans (complete _ handled)
    · split at handled
      · rename_i isComplete
        exact Or.inl ⟨state, found, Or.inl isComplete, complete connection handled⟩
      · rename_i incomplete
        cases handled
        exact Or.inr ⟨state, found, Bool.eq_false_of_not_eq_true incomplete,
          awaitContinuation_pends connection ends sid block endStream ended (by rw [found]; rfl)⟩

/-- The connection once the header block that a stream waits for has been taken from it. -/
def blockTaken (connection : Connection) (sid : Nat) : Connection :=
  { connection.modifyStream sid fun state => { state with pendingHeaderBlock := [] } with
    continuationStream := 0 }

/-- What a CONTINUATION frame can do on the stream that waits for it: complete the block that is
pending or add to it. -/
theorem handleContinuation_cases (f : Frame) (next : Connection) (state : StreamState)
    (found : connection.streams f.hdr.streamId = some state)
    (continues : connection.continuationStream = f.hdr.streamId)
    (handled : connection.handleContinuation config f = .ok next) :
    f.hdr.hasFlag Flag.endHeaders = true ∧
      (∃ dispatched, MayDispatch f.hdr.streamId state.endStream dispatched ∧
        Advances [state.pendingHeaderBlock ++ f.payload] dispatched
          (fun sid => sid = f.hdr.streamId ∧ state.endStream = true)
          (connection.blockTaken f.hdr.streamId) next) ∨
    f.hdr.hasFlag Flag.endHeaders = false ∧
      Pends (state.pendingHeaderBlock ++ f.payload) f.hdr.streamId (fun _ => False)
        connection next := by
  set sid := f.hdr.streamId with sidEq
  set extended := connection.modifyStream sid fun state =>
    { state with pendingHeaderBlock := state.pendingHeaderBlock ++ f.payload } with extendedEq
  have stream' : extended.streams sid = some
      { state with pendingHeaderBlock := state.pendingHeaderBlock ++ f.payload } := by
    rw [extendedEq, streams_modifyStream, found]
    rfl
  unfold handleContinuation at handled
  rw [← sidEq] at handled
  dsimp only at handled
  rw [found] at handled
  dsimp only at handled
  rw [← extendedEq] at handled
  split at handled
  · rename_i complete
    refine Or.inl ⟨complete, ?_⟩
    obtain ⟨⟨headers, decoded⟩, run, last⟩ := bind_ok handled
    set ends : Nat → Prop := fun other => other = sid ∧ state.endStream = true
    have pending : ({ extended with continuationStream := 0 } : Connection).stream sid =
        { state with pendingHeaderBlock := state.pendingHeaderBlock ++ f.payload } :=
      stream_of_some { extended with continuationStream := 0 } sid stream'
    rw [pending] at run
    obtain ⟨block, sameStreams⟩ := decode_advances _ ends _ headers decoded run
    have sameStream (other : Nat) : (decoded.modifyStream sid fun state =>
        { state with pendingHeaderBlock := [] }).stream other =
          (connection.blockTaken sid).stream other := by
      show _ = (connection.modifyStream sid _).stream other
      by_cases same : other = sid
      · rw [same, stream, stream, streams_modifyStream, streams_modifyStream, sameStreams, found]
        exact congrArg (fun found : Option StreamState =>
          (found.map fun state => { state with pendingHeaderBlock := [] }).getD {}) stream'
      · rw [stream_modifyStream_of_ne _ _ _ _ same, stream_modifyStream_of_ne _ _ _ _ same, stream,
          sameStreams]
        exact stream_modifyStream_of_ne connection sid _ other same
    have cleared : Advances [state.pendingHeaderBlock ++ f.payload] [] ends
        (connection.blockTaken sid) (decoded.modifyStream sid fun state =>
          { state with pendingHeaderBlock := [] }) :=
      { frames := block.frames
        decodes := block.decodes
        dispatches := block.dispatches
        continuationStream := block.continuationStream
        ended := fun other isEnded => Or.inl (by rw [sameStream] at isEnded; exact isEnded)
        pending := fun other => Or.inl (by rw [sameStream]) }
    have flag : ((decoded.modifyStream sid fun state =>
        { state with pendingHeaderBlock := [] }).stream sid).endStream = state.endStream := by
      rw [sameStream, stream]
      show StreamState.endStream (((connection.modifyStream sid _).streams sid).getD {}) = _
      rw [streams_modifyStream, found]
      rfl
    dsimp only at last
    rw [flag] at last
    split at last
    · cases last
      obtain ⟨dispatched, may, applied⟩ := applyHeaders_advances config _ ends sid headers
        state.endStream fun isEnd => ⟨rfl, isEnd⟩
      exact ⟨dispatched, may, cleared.trans applied⟩
    · cases last
      exact ⟨[], Or.inl rfl, cleared.andThen (applyResponseHeaders_advances _ ends sid headers
        state.endStream fun isEnd => ⟨rfl, isEnd⟩)⟩
  · rename_i incomplete
    rw [← Except.ok.inj handled]
    exact Or.inr ⟨Bool.eq_false_of_not_eq_true incomplete, rfl, rfl, rfl, continues,
      ⟨_, stream', rfl⟩, ended_modifyStream connection _ sid _ fun _ => Or.inl,
      fun other different =>
        Or.inl (congrArg _ (stream_modifyStream_of_ne connection sid _ other different))⟩

theorem handleRstStream_advances (ends : Nat → Prop) (f : Frame) :
    Advances [] [] ends connection (connection.handleRstStream f) := by
  have erased (before : Connection) (sid : Nat) :
      Advances [] [] ends before (before.eraseStream sid) := by
    refine ⟨rfl, (List.append_nil _).symm, (List.append_nil _).symm, rfl, fun other ended => ?_,
      fun other => ?_⟩
    · by_cases same : other = sid
      · rw [same, stream_eraseStream] at ended
        cases ended
      · rw [stream, streams_eraseStream_of_ne before sid other same] at ended
        exact Or.inl ended
    · by_cases same : other = sid
      · rw [same, stream_eraseStream]
        exact Or.inr rfl
      · rw [stream, streams_eraseStream_of_ne before sid other same]
        exact Or.inl rfl
  unfold handleRstStream
  dsimp only
  split
  · exact advances_goaway connection ends _ _
  · split
    · exact (Quiet.refl connection).advances ends
    · refine Advances.andThen ?_ (erased _ f.hdr.streamId)
      split
      · exact (Quiet.refl connection).advances ends
      · refine Advances.andThen ?_ (advances_announce _ ends _ _)
        exact advances_setPromise connection ends _ _

theorem applySettings_advances (ends : Nat → Prop) (settings : List SettingEntry) :
    Advances [] [] ends connection (connection.applySettings settings) := by
  induction settings generalizing connection with
  | nil => exact (quiet_enqueue connection _).advances ends
  | cons setting settings inductionHypothesis =>
    have silent (changed : Connection) (events : changed.events = connection.events)
        (continuation : changed.continuationStream = connection.continuationStream)
        (core : ∀ sid, (changed.stream sid).core = (connection.stream sid).core) :
        Advances [] [] ends connection (changed.applySettings settings) := by
      refine Advances.andThen ?_ (inductionHypothesis changed)
      have ended (sid : Nat) : (changed.stream sid).endStream = (connection.stream sid).endStream :=
        congrArg StreamCore.endStream (core sid)
      exact ⟨by rw [events], by rw [events, List.append_nil], by rw [events, List.append_nil],
        continuation, fun sid isEnded => Or.inl (ended sid ▸ isEnded),
        fun sid => Or.inl (congrArg StreamCore.pendingHeaderBlock (core sid))⟩
    unfold applySettings
    split
    · exact silent _ rfl rfl fun _ => rfl
    · split
      · exact advances_goaway connection ends _ _
      · refine silent _ rfl rfl fun sid => ?_
        rw [stream, stream]
        dsimp only
        cases connection.streams sid <;> rfl
    · split
      · exact advances_goaway connection ends _ _
      · exact silent _ rfl rfl fun _ => rfl
    · exact silent _ rfl rfl fun _ => rfl
    · exact inductionHypothesis connection

theorem handleSettings_advances (ends : Nat → Prop) (f : Frame) :
    Advances [] [] ends connection (connection.handleSettings f) := by
  unfold handleSettings
  split
  · exact advances_goaway connection ends _ _
  · split
    · exact (Quiet.refl connection).advances ends
    · split
      · exact advances_goaway connection ends _ _
      · exact applySettings_advances connection ends _

theorem handlePing_advances (ends : Nat → Prop) (f : Frame) :
    Advances [] [] ends connection (connection.handlePing f) := by
  unfold handlePing
  split
  · exact advances_goaway connection ends _ _
  · split
    · exact advances_goaway connection ends _ _
    · split
      · exact (Quiet.refl connection).advances ends
      · exact (quiet_enqueue connection _).advances ends

theorem handleWindowUpdate_advances (ends : Nat → Prop) (f : Frame) :
    Advances [] [] ends connection (connection.handleWindowUpdate f) := by
  have credited (increment : Nat) : Advances [] [] ends connection
      { connection with connSendWindow := connection.connSendWindow + increment } :=
    ⟨rfl, (List.append_nil _).symm, (List.append_nil _).symm, rfl, fun _ => Or.inl,
    fun _ => Or.inl rfl⟩
  unfold handleWindowUpdate
  dsimp only
  split
  · exact advances_goaway connection ends _ _
  · split
    · split
      · exact advances_goaway connection ends _ _
      · exact (quiet_enqueue connection _).advances ends
    · split
      · split
        · exact (credited _).andThen (advances_goaway _ ends _ _)
        · exact credited _
      · split
        · exact (Quiet.refl connection).advances ends
        · split
          · refine Advances.andThen ?_ ((quiet_enqueue _ _).advances ends)
            exact advances_modifyStream connection ends _ _ fun _ => ⟨Or.inl, Or.inl rfl⟩
          · exact advances_modifyStream connection ends _ _ fun _ => ⟨Or.inl, Or.inl rfl⟩

theorem handleGoaway_advances (ends : Nat → Prop) :
    Advances [] [] ends connection connection.handleGoaway :=
  ⟨rfl, (List.append_nil _).symm, (List.append_nil _).symm, rfl, fun _ => Or.inl,
    fun _ => Or.inl rfl⟩

theorem promiseStream_advances (ends : Nat → Prop) (info : PushPromiseInfo) :
    Advances [] [] ends connection (connection.promiseStream info) := by
  unfold promiseStream
  dsimp only
  refine Advances.andThen ?_ (Quiet.advances (quiet_setStream _ _ _ ?_) ends)
  · refine Advances.andThen ?_ (advances_setPromise _ ends _ _)
    exact ⟨rfl, (List.append_nil _).symm, (List.append_nil _).symm, rfl, fun _ => Or.inl,
    fun _ => Or.inl rfl⟩
  · rfl

/-- What PUSH_PROMISE can do: a server goes away, a client decodes what follows the identifier. -/
theorem handlePushPromise_cases (ends : Nat → Prop) (f : Frame) (next : Connection)
    (handled : connection.handlePushPromise config f = .ok next) :
    config.mode = .server ∧ Advances [] [] ends connection next ∨
    config.mode = .client ∧
      Advances [(parsePushPromise f.payload).2] [] ends connection next := by
  unfold handlePushPromise at handled
  split at handled
  · rename_i server
    cases handled
    exact Or.inl ⟨server, advances_goaway connection ends _ _⟩
  · rename_i client
    refine Or.inr ⟨client, ?_⟩
    obtain ⟨⟨headers, decoded⟩, run, last⟩ := bind_ok handled
    cases last
    obtain ⟨block, _⟩ := decode_advances connection ends _ headers decoded run
    have promised := block.andThen (promiseStream_advances decoded ends
      { promisedStreamId := (parsePushPromise f.payload).1
        promisedRequest := { headers.foldl applyPromisedHeader {} with ver := .http2 } })
    show Advances _ _ _ _ (if config.pushHandler = true then _ else _)
    split
    · exact promised.andThen (advances_record _ ends (.pushHandler _) ⟨rfl, rfl, rfl⟩)
    · exact promised

end Frames

end Connection

end AsyncNet.Http
