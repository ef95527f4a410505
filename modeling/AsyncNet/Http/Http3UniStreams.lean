/-
This file is about the unidirectional streams of HTTP/3. With every delivery, all that has come
of such a stream is processed again. So the outcome is that of one delivery of all the bytes
if nothing can be processed before the last delivery: no PUSH_PROMISE of a control stream, no
instruction of a QPACK encoder stream, no byte after the push ID of a push stream. For control
and encoder streams this is exact, but for streams on which the callback throws.
-/

import AsyncNet.Http.Http3Requests
import AsyncNet.Http.QpackStream
import AsyncNet.Library.Replay

namespace AsyncNet.Http.H3

open H2 Library

/-- What a session shows of its unidirectional streams: the decoder, the calls of the push handler
and the promises of pushes that are complete. -/
structure Observation where
  decoder : QpackDecoder
  pushed : List PushPromiseInfo
  completed : List ResponsePromise
  deriving DecidableEq

namespace Session

def pushed (session : Session) : List PushPromiseInfo :=
  session.events.filterMap fun event =>
    match event with
    | .pushHandler info => some info
    | _ => none

def observe (session : Session) : Observation :=
  { decoder := session.decoder, pushed := session.pushed, completed := session.completedPromises }

/-- What can be seen after a run, if no call of it throws. -/
def outcome (run : Except Fault Session) : Option Observation := run.toOption.map observe

/-- Deliveries of a stream, of which the last may end it. -/
def recvAll (session : Session) (streamId : Nat) (pieces : List Bytes) (last : Bytes) (fin : Bool) :
    Except Fault Session := do
  (← session.recvPieces streamId pieces).recvStreamData streamId last fin

/-! ### Simulation -/

section Simulation

variable {State : Type} {act : Bytes → State → Option State}
  {Shows : Bytes → State → Session → Prop} {streamId : Nat} {bytes : Bytes}

/-- A delivery does to a session what a run on the bytes that have come does to its state. -/
def Simulates (act : Bytes → State → Option State) (Shows : Bytes → State → Session → Prop)
    (streamId : Nat) (bytes : Bytes) : Prop :=
  ∀ held state session data fin, Shows held state session → held ++ data <+: bytes →
    match act (held ++ data) state with
    | none => ∃ fault, session.recvStreamData streamId data fin = .error fault
    | some next => ∃ after, session.recvStreamData streamId data fin = .ok after ∧
        Shows (held ++ data) next after

theorem recvPieces_simulates (simulates : Simulates act Shows streamId bytes)
    (pieces : List Bytes) (held : Bytes) (state : State) (session : Session)
    (shows' : Shows held state session) (begins : held ++ pieces.flatten <+: bytes) :
    match replay act held pieces state with
    | none => ∃ fault, session.recvPieces streamId pieces = .error fault
    | some next => ∃ after, session.recvPieces streamId pieces = .ok after ∧
        Shows (held ++ pieces.flatten) next after := by
  induction pieces generalizing held state session with
  | nil =>
    rw [List.flatten_nil, List.append_nil]
    exact ⟨session, rfl, shows'⟩
  | cons piece pieces inductionHypothesis =>
    rw [List.flatten_cons, ← List.append_assoc] at begins ⊢
    have step := simulates held state session piece false shows'
      ((List.prefix_append _ _).trans begins)
    rw [replay, recvPieces, List.foldlM_cons]
    cases acted : act (held ++ piece) state with
    | none =>
      rw [acted] at step
      obtain ⟨fault, failed⟩ := step
      rw [failed]
      exact ⟨fault, rfl⟩
    | some next =>
      rw [acted] at step
      obtain ⟨after, delivered, there⟩ := step
      rw [delivered]
      exact inductionHypothesis (held ++ piece) next after there begins

/-- The outcome of deliveries is that of the runs. -/
theorem outcome_recvAll (simulates : Simulates act Shows streamId bytes)
    {view : State → Observation}
    (seen : ∀ held state session, Shows held state session → session.observe = view state)
    {session : Session} {state : State} (shows' : Shows [] state session) {pieces : List Bytes}
    {last : Bytes} (cut : pieces.flatten ++ last = bytes) (fin : Bool) :
    outcome (session.recvAll streamId pieces last fin) =
      ((replay act [] pieces state).bind (act bytes)).map view := by
  have begins : [] ++ pieces.flatten <+: bytes := ⟨last, cut⟩
  have runs := recvPieces_simulates simulates pieces [] state session shows' begins
  unfold recvAll
  cases replayed : replay act [] pieces state with
  | none =>
    rw [replayed] at runs
    obtain ⟨fault, failed⟩ := runs
    rw [failed]
    rfl
  | some next =>
    rw [replayed] at runs
    obtain ⟨after, delivered, there⟩ := runs
    rw [delivered, Option.bind_some]
    show outcome (after.recvStreamData streamId last fin) = _
    have step := simulates _ next after last fin there (by rw [List.nil_append, cut])
    rw [List.nil_append, cut] at step
    cases acted : act bytes next with
    | none =>
      rw [acted] at step
      obtain ⟨fault, failed⟩ := step
      rw [failed]
      rfl
    | some final =>
      rw [acted] at step
      obtain ⟨final', delivered, ends⟩ := step
      rw [delivered]
      exact congrArg some (seen _ _ _ ends)

end Simulation

/-! ### A delivery -/

/-- A session that has received the beginning of a stream: what it shows is the view of a state. -/
structure Shows {State : Type} (like : Session) (streamId : Nat) (view : State → Observation)
    (held : Bytes) (state : State) (session : Session) : Prop where
  mode : session.mode = like.mode
  pushHandler : session.pushHandler = like.pushHandler
  buffered : session.uniStreamBuf streamId = held
  observed : session.observe = view state

section Delivery

variable {State : Type} {like : Session} {streamId : Nat} {view : State → Observation}
  {held : Bytes} {state : State} {session : Session}

theorem Shows.setStream (shows' : Shows like streamId view held state session) (ss : StreamState) :
    Shows like streamId view held state (session.setStream streamId ss) :=
  ⟨shows'.mode, shows'.pushHandler, shows'.buffered, shows'.observed⟩

/-- The data of a delivery is put behind what has come. -/
def buffer (session : Session) (streamId : Nat) (data : Bytes) : Session :=
  let session := session.setStream streamId { session.stream streamId with streamId }
  { session with
    uniStreamBuf := fun other =>
      if other = streamId then session.uniStreamBuf streamId ++ data
      else session.uniStreamBuf other }

theorem Shows.buffer (shows' : Shows like streamId view held state session) (data : Bytes) :
    Shows like streamId view (held ++ data) state (session.buffer streamId data) := by
  refine ⟨shows'.mode, shows'.pushHandler, ?_, shows'.observed⟩
  show (if streamId = streamId then session.uniStreamBuf streamId ++ data else _) = _
  rw [if_pos rfl, shows'.buffered]

/-- A delivery of a unidirectional stream, by what has come of it. -/
theorem Shows.recvStreamData (shows' : Shows like streamId view held state session)
    (unidirectional : streamId &&& 0x02 ≠ 0) (data : Bytes) (fin : Bool) :
    session.recvStreamData streamId data fin =
      match decodeVarint (held ++ data) with
      | none => .ok (session.buffer streamId data)
      | some (streamType, consumed) =>
          (session.buffer streamId data).processUniStream streamId (StreamType.ofCode streamType)
            ((held ++ data).drop consumed) fin := by
  unfold Session.recvStreamData
  rw [if_pos unidirectional, ← shows'.buffered]
  rfl

/-- A stream without a type does nothing. -/
theorem simulates_untyped (like : Session) (unidirectional : streamId &&& 0x02 ≠ 0)
    {bytes : Bytes} (undecoded : decodeVarint bytes = none) :
    Simulates (fun _ => some) (Shows like streamId fun _ : Unit => like.observe) streamId
      bytes := by
  intro held state session data fin shows' begins
  refine ⟨session.buffer streamId data, ?_, shows'.buffer data⟩
  rw [shows'.recvStreamData unidirectional, decodeVarint_prefix_none begins undecoded]

/-- A process of the bytes that follow the type of a stream. -/
def afterType (consumed : Nat) (act : Bytes → State → Option State) (held : Bytes) (state : State) :
    Option State :=
  if held.length < consumed then some state else act (held.drop consumed) state

/-- What processes the bytes after the type processes the stream. -/
theorem simulates_typed {bytes : Bytes} (unidirectional : streamId &&& 0x02 ≠ 0)
    {streamType consumed : Nat} (decoded : decodeVarint bytes = some (streamType, consumed))
    {act : Bytes → State → Option State}
    (processes : ∀ session held state payload fin, Shows like streamId view held state session →
      match act payload state with
      | none => ∃ fault, session.processUniStream streamId (StreamType.ofCode streamType) payload
          fin = .error fault
      | some next => ∃ after, session.processUniStream streamId (StreamType.ofCode streamType)
          payload fin = .ok after ∧ Shows like streamId view held next after) :
    Simulates (afterType consumed act) (Shows like streamId view) streamId bytes := by
  intro held state session data fin shows' begins
  rw [shows'.recvStreamData unidirectional, decodeVarint_isPrefix begins decoded, afterType]
  by_cases short : (held ++ data).length < consumed
  · rw [if_pos short, if_pos short]
    exact ⟨_, rfl, shows'.buffer data⟩
  · rw [if_neg short, if_neg short]
    exact processes _ _ state _ fin (shows'.buffer data)

theorem idle_afterType {consumed : Nat} {act : Bytes → State → Option State} (held : Bytes) :
    Idle (afterType consumed act) held ↔
      held.length < consumed ∨ Idle act (held.drop consumed) := by
  unfold Idle afterType
  by_cases short : held.length < consumed
  · exact iff_of_true (fun state => if_pos short) (Or.inl short)
  · simp only [short, if_false, false_or]

/-- Less than the type is as nothing after it. -/
theorem idle_afterType_drop {consumed : Nat} {act : Bytes → State → Option State}
    (empty : Idle act []) (held : Bytes) :
    Idle (afterType consumed act) held ↔ Idle act (held.drop consumed) := by
  rw [idle_afterType]
  by_cases short : held.length < consumed
  · rw [List.drop_of_length_le short.le]
    exact iff_of_true (Or.inl short) empty
  · exact or_iff_right short

theorem idle_afterType_nil {consumed : Nat} {act : Bytes → State → Option State}
    (empty : Idle act []) : Idle (afterType consumed act) [] := by
  rw [idle_afterType_drop empty, List.drop_nil]
  exact empty

theorem fails_afterType {consumed : Nat} {act : Bytes → State → Option State} {held : Bytes}
    (typed : consumed ≤ held.length) :
    Fails (afterType consumed act) held ↔ Fails act (held.drop consumed) := by
  unfold Fails afterType
  simp only [if_neg (Nat.not_lt.mpr typed)]

/-- What is counted after the type is counted on the stream. -/
theorem counted_afterType {consumed : Nat} {act : Bytes → State → Option State}
    {count : Bytes → Nat} {measure : State → Nat} {bytes : Bytes}
    (counted : Counted act count measure (bytes.drop consumed)) :
    Counted (afterType consumed act)
      (fun held => if held.length < consumed then 0 else count (held.drop consumed))
      measure bytes := by
  constructor
  · intro held
    by_cases short : held.length < consumed
    · right
      intro state
      refine ⟨state, if_pos short, ?_⟩
      rw [if_pos short]
      rfl
    · rw [fails_afterType (Nat.not_lt.mp short), if_neg short]
      obtain fails | runs := counted.together (held.drop consumed)
      · exact Or.inl fails
      · right
        intro state
        obtain ⟨next, run, added⟩ := runs state
        exact ⟨next, (if_neg short).trans run, added⟩
  · intro held none succeeds
    rw [idle_afterType]
    by_cases short : held.length < consumed
    · exact Or.inl short
    · rw [if_neg short] at none
      rw [fails_afterType (Nat.not_lt.mp short)] at succeeds
      exact Or.inr (counted.idle _ none succeeds)
  · intro held more begins idle
    rw [idle_afterType] at idle ⊢
    by_cases short : held.length < consumed
    · exact Or.inl short
    · have split : (held ++ more).drop consumed = held.drop consumed ++ more :=
        List.drop_append_of_le_length (Nat.not_lt.mp short)
      obtain shorter | idle := idle
      · rw [List.length_append] at shorter
        omega
      · rw [split] at idle
        refine Or.inr (counted.less _ more ?_ idle)
        rw [← split]
        exact begins.drop consumed

end Delivery

section Comparison

variable {State : Type} {act : Bytes → State → Option State} {count : Bytes → Nat}
  {measure : State → Nat} {like session : Session} {streamId : Nat} {view : State → Observation}
  {bytes last : Bytes} {state : State} {pieces : List Bytes}

/-- The outcome is that of one delivery if and only if the runs before the last one do nothing, or
the runs on all of the bytes fail. -/
theorem outcome_eq_iff (simulates : Simulates act (Shows like streamId view) streamId bytes)
    (counted : Counted act count measure bytes) (empty : Idle act [])
    (injective : Function.Injective view) (shows' : Shows like streamId view [] state session)
    (cut : pieces.flatten ++ last = bytes) (fin : Bool) :
    outcome (session.recvAll streamId pieces last fin) =
        outcome (session.recvStreamData streamId bytes fin) ↔
      Idle act pieces.flatten ∨ Fails act bytes := by
  have seen (held : Bytes) (state : State) (session : Session)
      (shows' : Shows like streamId view held state session) : session.observe = view state :=
    shows'.observed
  have single : outcome (session.recvAll streamId [] bytes fin) = (act bytes state).map view :=
    outcome_recvAll simulates seen shows' rfl fin
  rw [outcome_recvAll simulates seen shows' cut fin]
  rw [show outcome (session.recvStreamData streamId bytes fin) = _ from single,
    (Option.map_injective injective).eq_iff]
  exact replay_eq_iff counted empty pieces ⟨last, cut⟩ state

end Comparison

/-! ### The QPACK encoder stream -/

def encoderRun (payload : Bytes) (decoder : QpackDecoder) : Option QpackDecoder :=
  (decoder.processEncoderInstructions payload).toOption

theorem simulates_encoder (like : Session) {streamId : Nat}
    (unidirectional : streamId &&& 0x02 ≠ 0) {bytes : Bytes} {streamType consumed : Nat}
    (decoded : decodeVarint bytes = some (streamType, consumed))
    (type : StreamType.ofCode streamType = some .qpackEncoder) :
    Simulates (afterType consumed encoderRun)
      (Shows like streamId fun decoder => { like.observe with decoder }) streamId bytes := by
  refine simulates_typed unidirectional decoded ?_
  intro session held decoder payload fin shows'
  have same : session.decoder = decoder := congrArg Observation.decoder shows'.observed
  rw [type, encoderRun, processUniStream]
  have kept : (session.setStream streamId
      { session.stream streamId with qpackEncoderStream := true }).decoder = decoder := same
  cases processed : decoder.processEncoderInstructions payload with
  | error fault =>
    refine ⟨fault, ?_⟩
    rw [kept, processed]
    rfl
  | ok next =>
    have pushed : session.pushed = like.pushed := congrArg Observation.pushed shows'.observed
    have completed : session.completedPromises = like.completedPromises :=
      congrArg Observation.completed shows'.observed
    rw [kept, processed]
    refine ⟨_, rfl, shows'.mode, shows'.pushHandler, shows'.buffered, ?_⟩
    show Observation.mk next session.pushed session.completedPromises = _
    rw [pushed, completed]
    rfl

theorem idle_encoderRun (payload : Bytes) :
    Idle encoderRun payload ↔ readInstruction payload = .ok none := by
  by_cases empty : payload = []
  · subst empty
    exact iff_of_true (fun decoder => rfl) rfl
  · unfold Idle encoderRun
    simp only [QpackDecoder.processEncoderInstructions_eq _ empty]
    cases read : readInstruction payload with
    | error fault =>
      refine iff_of_false (fun idle => ?_) fun wrong => by cases wrong
      cases idle {}
    | ok found =>
      cases found with
      | none => exact iff_of_true (fun decoder => rfl) rfl
      | some found =>
        obtain ⟨effect, rest⟩ := found
        refine iff_of_false (fun idle => ?_) fun wrong => by cases wrong
        have same : (QpackDecoder.instructionLoop (payload.length - 1) (effect {})
            rest).toOption = some {} := idle {}
        have counts := readInstruction_count read {}
        obtain ⟨fault, fails⟩ | runs :=
          QpackDecoder.instructionLoop_count (payload.length - 1) rest
        · rw [fails] at same
          cases same
        · obtain ⟨final, run, added⟩ := runs (effect {})
          rw [run] at same
          cases same
          omega

theorem idle_encoderRun_nil : Idle encoderRun [] := (idle_encoderRun []).mpr rfl

theorem counted_encoderRun {payload : Bytes} (short : payload.length < 2 ^ 62) :
    Counted encoderRun (fun payload => instructionCount payload.length payload)
      QpackDecoder.knownReceivedCount payload := by
  constructor
  · intro payload
    obtain ⟨fault, fails⟩ | runs :=
      QpackDecoder.instructionLoop_count payload.length payload
    · left
      intro decoder
      rw [encoderRun, QpackDecoder.processEncoderInstructions, fails decoder]
      rfl
    · right
      intro decoder
      obtain ⟨next, run, added⟩ := runs decoder
      refine ⟨next, ?_, added⟩
      rw [encoderRun, QpackDecoder.processEncoderInstructions, run]
      rfl
  · intro payload none succeeds
    rw [idle_encoderRun]
    by_cases empty : payload = []
    · subst empty
      rfl
    · obtain ⟨passes, length⟩ := Nat.exists_eq_succ_of_ne_zero
        (List.length_pos_of_ne_nil empty).ne'
      rw [length, instructionCount, if_neg empty] at none
      cases read : readInstruction payload with
      | error fault =>
        refine absurd (fun decoder => ?_) succeeds
        rw [encoderRun, QpackDecoder.processEncoderInstructions, length,
          QpackDecoder.instructionLoop, if_neg empty, QpackDecoder.instruction_eq, read]
        rfl
      | ok found =>
        cases found with
        | none => rfl
        | some found =>
          rw [read] at none
          cases none
  · intro input more begins idle
    rw [idle_encoderRun] at idle ⊢
    by_contra read
    exact readInstruction_append more (begins.length_le.trans_lt short) read idle

/-! ### The control stream -/

/-- The frames that are complete in the bytes of a control stream. -/
def completeFrames (payload : Bytes) : List Frame :=
  ((FrameReader.read (fun frames f => .ok (frames ++ [f])) {} payload []).toOption.map
    (·.2)).getD []

theorem fresh_waits : ({} : FrameReader).Waits := ⟨fun began => absurd rfl began, nofun⟩

theorem foldlM_collect (frames before : List Frame) :
    frames.foldlM (fun frames f => (.ok (frames ++ [f]) : Except Fault (List Frame))) before =
      .ok (before ++ frames) := by
  induction frames generalizing before with
  | nil => exact congrArg Except.ok (List.append_nil before).symm
  | cons f frames inductionHypothesis =>
    rw [List.foldlM_cons, List.append_cons before f frames]
    exact inductionHypothesis (before ++ [f])

theorem completeFrames_scan {payload : Bytes} {final : FrameReader} {frames : List Frame}
    (scan : FrameReader.Scan {} payload final frames) : completeFrames payload = frames := by
  unfold completeFrames
  rw [FrameReader.read_scan scan fresh_waits, foldlM_collect, List.nil_append]
  rfl

/-- The frames of a control stream are those that it begins with and more. -/
theorem completeFrames_append (payload more : Bytes) :
    ∃ later, completeFrames (payload ++ more) = completeFrames payload ++ later := by
  obtain ⟨middle, frames, scan⟩ := FrameReader.exists_scan payload {} fresh_waits
  obtain ⟨final, later, rest⟩ := FrameReader.exists_scan more middle (scan.waits fresh_waits)
  refine ⟨later, ?_⟩
  rw [completeFrames_scan (scan.append fresh_waits rest), completeFrames_scan scan]

/-- The calls of the push handler that a frame of the control stream makes. -/
def frameCalls (session : Session) (f : Frame) : Except Fault (List PushPromiseInfo) :=
  match session.mode, f.type with
  | .client, .pushPromise => do
      let (pushId, headerBlock) := parsePushPromise f.payload
      let headers ← session.decoder.decode headerBlock
      let promisedRequest := { headers.foldl applyRequestHeader {} with ver := .http3 }
      return if session.pushHandler then [{ pushId, promisedRequest }] else []
  | _, _ => .ok []

/-- The calls that frames make, one after the other. -/
def controlCalls (session : Session) : List Frame → Except Fault (List PushPromiseInfo)
  | [] => .ok []
  | f :: frames => do
      let calls ← session.frameCalls f
      return calls ++ (← session.controlCalls frames)

def recordCalls (session : Session) (calls : List PushPromiseInfo) : Session :=
  { session with events := session.events ++ calls.map .pushHandler }

theorem recordCalls_nil (session : Session) : session.recordCalls [] = session := by
  unfold recordCalls
  rw [List.map_nil, List.append_nil]

theorem recordCalls_append (session : Session) (calls more : List PushPromiseInfo) :
    session.recordCalls (calls ++ more) = (session.recordCalls calls).recordCalls more := by
  unfold recordCalls
  rw [List.map_append, List.append_assoc]

theorem pushed_recordCalls (session : Session) (calls : List PushPromiseInfo) :
    (session.recordCalls calls).pushed = session.pushed ++ calls := by
  show (session.events ++ calls.map Event.pushHandler).filterMap _ = _
  rw [List.filterMap_append, List.filterMap_map]
  exact congrArg (session.pushed ++ ·) List.filterMap_some

theorem handleControlFrame_eq (session : Session) (f : Frame) :
    session.handleControlFrame f = (session.frameCalls f).map session.recordCalls := by
  have nothing : (Except.ok [] : Except Fault _).map session.recordCalls = .ok session :=
    congrArg Except.ok session.recordCalls_nil
  unfold handleControlFrame handlePushPromise frameCalls
  cases f.type with
  | pushPromise =>
    cases session.mode with
    | server => exact nothing.symm
    | client =>
      obtain ⟨pushId, headerBlock⟩ := parsePushPromise f.payload
      dsimp only
      cases session.decoder.decode headerBlock with
      | error fault => rfl
      | ok headers =>
        by_cases handler : session.pushHandler
        · simp only [handler]
          rfl
        · simp only [handler]
          exact nothing.symm
  | _ => cases session.mode <;> exact nothing.symm

theorem frameCalls_like {like session : Session} (mode : session.mode = like.mode)
    (handler : session.pushHandler = like.pushHandler) (decoder : session.decoder = like.decoder)
    (f : Frame) : session.frameCalls f = like.frameCalls f := by
  unfold frameCalls
  rw [mode, handler, decoder]

theorem foldlM_handleControlFrame {like : Session} (frames : List Frame) (session : Session)
    (mode : session.mode = like.mode) (handler : session.pushHandler = like.pushHandler)
    (decoder : session.decoder = like.decoder) :
    frames.foldlM handleControlFrame session =
      (like.controlCalls frames).map session.recordCalls := by
  induction frames generalizing session with
  | nil => exact congrArg Except.ok session.recordCalls_nil.symm
  | cons f frames inductionHypothesis =>
    rw [List.foldlM_cons, handleControlFrame_eq, controlCalls,
      frameCalls_like mode handler decoder]
    cases like.frameCalls f with
    | error fault => rfl
    | ok calls =>
      show frames.foldlM handleControlFrame (session.recordCalls calls) = _
      rw [inductionHypothesis (session.recordCalls calls) mode handler decoder]
      cases controlCalls like frames with
      | error fault => rfl
      | ok more => exact congrArg Except.ok (session.recordCalls_append calls more).symm

/-- What the bytes of a control stream add to the calls of the push handler. -/
def controlRun (like : Session) (payload : Bytes) (pushed : List PushPromiseInfo) :
    Option (List PushPromiseInfo) :=
  (like.controlCalls (completeFrames payload)).toOption.map (pushed ++ ·)

theorem simulates_control (like : Session) {streamId : Nat}
    (unidirectional : streamId &&& 0x02 ≠ 0) {bytes : Bytes} {streamType consumed : Nat}
    (decoded : decodeVarint bytes = some (streamType, consumed))
    (type : StreamType.ofCode streamType = some .control) :
    Simulates (afterType consumed like.controlRun)
      (Shows like streamId fun pushed => { like.observe with pushed }) streamId bytes := by
  refine simulates_typed unidirectional decoded ?_
  intro session held pushed payload fin shows'
  rw [type, controlRun, processUniStream]
  obtain ⟨final, frames, scan⟩ := FrameReader.exists_scan payload {} fresh_waits
  have decoder : session.decoder = like.decoder :=
    congrArg Observation.decoder shows'.observed
  have before : session.pushed = pushed := congrArg Observation.pushed shows'.observed
  have completed : session.completedPromises = like.completedPromises :=
    congrArg Observation.completed shows'.observed
  dsimp only
  generalize { session.stream streamId with controlStream := true } = ss
  have marked := shows'.setStream ss
  rw [FrameReader.read_scan scan fresh_waits, completeFrames_scan scan,
    foldlM_handleControlFrame frames _ marked.mode marked.pushHandler decoder]
  cases like.controlCalls frames with
  | error fault => exact ⟨fault, rfl⟩
  | ok calls =>
    refine ⟨_, rfl, shows'.mode, shows'.pushHandler, shows'.buffered, ?_⟩
    show Observation.mk session.decoder (session.recordCalls calls).pushed
      session.completedPromises = _
    rw [pushed_recordCalls, decoder, before, completed]
    rfl

theorem controlCalls_append (session : Session) (frames later : List Frame) :
    session.controlCalls (frames ++ later) =
      (session.controlCalls frames).bind fun calls =>
        (session.controlCalls later).map (calls ++ ·) := by
  induction frames with
  | nil =>
    show session.controlCalls later = (session.controlCalls later).map fun calls => calls
    cases session.controlCalls later <;> rfl
  | cons f frames inductionHypothesis =>
    rw [List.cons_append, controlCalls, controlCalls, inductionHypothesis]
    cases session.frameCalls f with
    | error fault => rfl
    | ok first =>
      cases session.controlCalls frames with
      | error fault => rfl
      | ok calls =>
        cases session.controlCalls later with
        | error fault => rfl
        | ok more => exact congrArg Except.ok (List.append_assoc first calls more).symm

theorem idle_controlRun (like : Session) (payload : Bytes) :
    Idle like.controlRun payload ↔ like.controlCalls (completeFrames payload) = .ok [] := by
  unfold Idle controlRun
  cases like.controlCalls (completeFrames payload) with
  | error fault => exact iff_of_false (fun idle => nomatch idle []) nofun
  | ok calls =>
    constructor
    · intro idle
      have none : [] ++ calls = [] := Option.some.inj (idle [])
      exact congrArg Except.ok none
    · intro none pushed
      cases none
      exact congrArg some (List.append_nil pushed)

theorem idle_controlRun_nil (like : Session) : Idle like.controlRun [] :=
  (idle_controlRun like []).mpr rfl

theorem fails_controlRun (like : Session) (payload : Bytes) :
    Fails like.controlRun payload ↔
      ∃ fault, like.controlCalls (completeFrames payload) = .error fault := by
  unfold Fails controlRun
  cases like.controlCalls (completeFrames payload) with
  | error fault => exact iff_of_true (fun _ => rfl) ⟨fault, rfl⟩
  | ok calls => exact iff_of_false (fun fails => nomatch fails []) nofun

theorem counted_controlRun (like : Session) (payload : Bytes) :
    Counted like.controlRun
      (fun payload => ((like.controlRun payload []).map List.length).getD 0) List.length
      payload := by
  constructor
  · intro payload
    unfold Fails controlRun
    cases like.controlCalls (completeFrames payload) with
    | error fault => exact Or.inl fun _ => rfl
    | ok calls =>
      right
      intro pushed
      exact ⟨pushed ++ calls, rfl, List.length_append⟩
  · intro payload none succeeds
    rw [idle_controlRun]
    rw [fails_controlRun] at succeeds
    unfold controlRun at none
    cases run : like.controlCalls (completeFrames payload) with
    | error fault => exact absurd ⟨fault, run⟩ succeeds
    | ok calls =>
      rw [run] at none
      exact congrArg Except.ok (List.length_eq_zero_iff.mp none)
  · intro payload more _ idle
    rw [idle_controlRun] at idle ⊢
    obtain ⟨later, frames⟩ := completeFrames_append payload more
    rw [frames, controlCalls_append] at idle
    cases run : like.controlCalls (completeFrames payload) with
    | error fault =>
      rw [run] at idle
      cases idle
    | ok calls =>
      rw [run] at idle
      cases rest : like.controlCalls later with
      | error fault =>
        rw [rest] at idle
        cases idle
      | ok others =>
        rw [rest] at idle
        have none : calls ++ others = [] := Except.ok.inj idle
        rw [(List.append_eq_nil_iff.mp none).1]

/-- The frames on which the push handler is not reached because the header block is not decoded. -/
def Undecodable (session : Session) (f : Frame) : Prop :=
  f.type = .pushPromise ∧
    ∃ fault, session.decoder.decode (parsePushPromise f.payload).2 = .error fault

theorem frameCalls_promise {session : Session} (client : session.mode = .client) {f : Frame}
    (promise : f.type = .pushPromise) :
    session.frameCalls f = (session.decoder.decode (parsePushPromise f.payload).2).map
      fun headers => if session.pushHandler then
        [{ pushId := (parsePushPromise f.payload).1
           promisedRequest := { headers.foldl applyRequestHeader {} with ver := .http3 } }]
        else [] := by
  unfold frameCalls
  rw [client, promise]
  rfl

theorem frameCalls_other {session : Session} {f : Frame}
    (other : session.mode = .server ∨ f.type ≠ .pushPromise) : session.frameCalls f = .ok [] := by
  unfold frameCalls
  split
  · rename_i client promise
    obtain server | other := other
    · rw [client] at server
      cases server
    · exact absurd promise other
  · rfl

theorem controlCalls_fails {session : Session} (client : session.mode = .client)
    (frames : List Frame) :
    (∃ fault, session.controlCalls frames = .error fault) ↔
      ∃ f ∈ frames, session.Undecodable f := by
  induction frames with
  | nil => exact iff_of_false (fun ⟨_, fails⟩ => nomatch fails) (fun ⟨_, among, _⟩ => nomatch among)
  | cons f frames inductionHypothesis =>
    simp only [List.mem_cons, exists_eq_or_imp]
    rw [← inductionHypothesis, controlCalls]
    by_cases promise : f.type = .pushPromise
    · rw [frameCalls_promise client promise, Undecodable]
      cases session.decoder.decode (parsePushPromise f.payload).2 with
      | error fault => exact iff_of_true ⟨fault, rfl⟩ (Or.inl ⟨promise, fault, rfl⟩)
      | ok headers =>
        have decoded : ¬ (f.type = .pushPromise ∧ ∃ fault, (Except.ok headers : Except Fault _) =
            .error fault) := fun ⟨_, _, fails⟩ => nomatch fails
        rw [or_iff_right decoded]
        cases session.controlCalls frames with
        | error fault => exact iff_of_true ⟨fault, rfl⟩ ⟨fault, rfl⟩
        | ok calls => exact iff_of_false (fun ⟨_, fails⟩ => nomatch fails) nofun
    · have decoded : ¬ session.Undecodable f := fun ⟨other, _⟩ => promise other
      rw [frameCalls_other (Or.inr promise), or_iff_right decoded]
      cases session.controlCalls frames with
      | error fault => exact iff_of_true ⟨fault, rfl⟩ ⟨fault, rfl⟩
      | ok calls => exact iff_of_false (fun ⟨_, fails⟩ => nomatch fails) nofun

theorem controlCalls_unhandled {session : Session}
    (unhandled : session.mode = .server ∨ session.pushHandler = false) (frames : List Frame) :
    session.controlCalls frames = .ok [] ∨ ∃ fault, session.controlCalls frames = .error fault := by
  have first (f : Frame) :
      session.frameCalls f = .ok [] ∨ ∃ fault, session.frameCalls f = .error fault := by
    by_cases other : session.mode = .server ∨ f.type ≠ .pushPromise
    · exact Or.inl (frameCalls_other other)
    · obtain ⟨isClient, promise⟩ := not_or.mp other
      have handler := unhandled.resolve_left isClient
      have client : session.mode = .client := by
        cases mode : session.mode with
        | server => exact absurd mode isClient
        | client => rfl
      rw [frameCalls_promise client (not_not.mp promise), handler]
      cases session.decoder.decode (parsePushPromise f.payload).2 with
      | error fault => exact Or.inr ⟨fault, rfl⟩
      | ok headers => exact Or.inl rfl
  induction frames with
  | nil => exact Or.inl rfl
  | cons f frames inductionHypothesis =>
    rw [controlCalls]
    obtain none | ⟨fault, fails⟩ := first f
    · rw [none]
      obtain none | ⟨fault, fails⟩ := inductionHypothesis
      · rw [none]
        exact Or.inl rfl
      · rw [fails]
        exact Or.inr ⟨fault, rfl⟩
    · rw [fails]
      exact Or.inr ⟨fault, rfl⟩

theorem controlCalls_handled {session : Session} (client : session.mode = .client)
    (handler : session.pushHandler = true) (frames : List Frame) :
    session.controlCalls frames = .ok [] ↔ ∀ f ∈ frames, f.type ≠ .pushPromise := by
  induction frames with
  | nil => exact iff_of_true rfl nofun
  | cons f frames inductionHypothesis =>
    rw [List.forall_mem_cons, ← inductionHypothesis, controlCalls]
    by_cases promise : f.type = .pushPromise
    · rw [frameCalls_promise client promise, handler]
      refine iff_of_false ?_ (fun ⟨other, _⟩ => other promise)
      cases session.decoder.decode (parsePushPromise f.payload).2 with
      | error fault => nofun
      | ok headers => cases session.controlCalls frames <;> nofun
    · rw [frameCalls_other (Or.inr promise)]
      cases session.controlCalls frames with
      | error fault => exact iff_of_false nofun (fun ⟨_, succeeds⟩ => nomatch succeeds)
      | ok calls => exact (and_iff_right promise).symm

/-- The runs on a control stream: a client that has a push handler runs idle as long as there is no
promise, and one without can only fail. -/
theorem idle_or_fails_controlRun (like : Session) {earlier payload : Bytes}
    (begins : earlier <+: payload) :
    Idle like.controlRun earlier ∨ Fails like.controlRun payload ↔
      (like.mode = .client → like.pushHandler = true →
        (∀ f ∈ completeFrames earlier, f.type ≠ .pushPromise) ∨
          ∃ f ∈ completeFrames payload, like.Undecodable f) := by
  rw [idle_controlRun, fails_controlRun]
  by_cases handled : like.mode = .client ∧ like.pushHandler = true
  · obtain ⟨client, handler⟩ := handled
    rw [controlCalls_handled client handler, controlCalls_fails client]
    exact ⟨fun quiet _ _ => quiet, fun quiet => quiet client handler⟩
  · have unhandled : like.mode = .server ∨ like.pushHandler = false := by
      cases mode : like.mode with
      | server => exact Or.inl rfl
      | client => exact Or.inr (Bool.eq_false_of_not_eq_true fun handler =>
          handled ⟨mode, handler⟩)
    refine iff_of_true ?_ (fun client handler => absurd ⟨client, handler⟩ handled)
    obtain ⟨more, rfl⟩ := begins
    obtain ⟨later, frames⟩ := completeFrames_append earlier more
    rw [frames, controlCalls_append]
    obtain none | ⟨fault, fails⟩ := controlCalls_unhandled unhandled (completeFrames earlier)
    · exact Or.inl none
    · rw [fails]
      exact Or.inr ⟨fault, rfl⟩

/-! ### Push streams -/

/-- A client at the beginning of a push stream, of which nothing but the push ID has been read. -/
structure Pristine (like : Session) (streamId : Nat) (held : Bytes) (session : Session) : Prop
    extends Shows like streamId (fun _ : Unit => like.observe) held () session where
  stream : ∃ number pushId,
    session.stream streamId = { streamId := number, sendOffset := pushId }

section Push

variable {like session : Session} {streamId : Nat} {held bytes : Bytes}

/-- The promise of a push stream that has ended. -/
def pushedPromise (ss : StreamState) : ResponsePromise :=
  { isPush := true
    pushInfo := { pushId := ss.sendOffset }
    resp := { ss.resp with bd := ss.respBody }
    complete := true }

/-- What can be seen after data has been read on a push stream, if it is the first. -/
def pushOutcome (like : Session) (streamId : Nat) (payload : Bytes) (fin : Bool) :
    Option Observation :=
  match decodeVarint payload with
  | none => some like.observe
  | some (pushId, n) =>
      (handlePushFrame like.decoder
        { streamId
          sendOffset := pushId
          reader := (({} : FrameReader).feed (payload.drop n)).1 }).toOption.map fun ss =>
        if fin && ss.headersComplete then
          { like.observe with completed := like.completedPromises ++ [pushedPromise ss] }
        else like.observe

theorem Pristine.outcome_handlePushStream (pristine : Pristine like streamId held session)
    (client : like.mode = .client) (payload : Bytes) (fin : Bool) :
    outcome (session.handlePushStream streamId payload fin) =
      pushOutcome like streamId payload fin := by
  obtain ⟨number, pushId, stream⟩ := pristine.stream
  have decoder : session.decoder = like.decoder :=
    congrArg Observation.decoder pristine.observed
  have completed : session.completedPromises = like.completedPromises :=
    congrArg Observation.completed pristine.observed
  unfold handlePushStream feedPushStream pushOutcome
  rw [pristine.mode, client, stream]
  dsimp only
  rw [if_pos ⟨rfl, rfl⟩, decoder]
  cases decodeVarint payload with
  | none => exact congrArg some pristine.observed
  | some found =>
    dsimp only [Option.map_some]
    generalize handlePushFrame like.decoder _ = handled
    cases handled with
    | error fault => rfl
    | ok ss =>
      by_cases ended : (fin && ss.headersComplete) = true
      · show outcome (if (fin && ss.headersComplete) = true then _ else _) =
          some (if (fin && ss.headersComplete) = true then _ else _)
        rw [if_pos ended, if_pos ended, ← completed, ← pristine.observed]
        rfl
      · show outcome (if (fin && ss.headersComplete) = true then _ else _) =
          some (if (fin && ss.headersComplete) = true then _ else _)
        rw [if_neg ended, if_neg ended]
        exact congrArg some pristine.observed

/-- As long as only the push ID has come, nothing is read. -/
theorem Pristine.handlePushStream (pristine : Pristine like streamId held session)
    (client : like.mode = .client) {payload : Bytes}
    (first : ∀ pushId n, decodeVarint payload = some (pushId, n) → payload.length ≤ n)
    (fin : Bool) :
    ∃ after, session.handlePushStream streamId payload fin = .ok after ∧
      Pristine like streamId held after := by
  obtain ⟨number, offset, stream⟩ := pristine.stream
  unfold Session.handlePushStream feedPushStream
  rw [pristine.mode, client, stream]
  dsimp only
  rw [if_pos ⟨rfl, rfl⟩]
  cases decoded : decodeVarint payload with
  | none =>
    refine ⟨_, rfl, pristine.toShows.setStream _, streamId, offset, ?_⟩
    exact stream_setStream _ _ _
  | some found =>
    obtain ⟨pushId, n⟩ := found
    rw [Option.map_some, List.drop_of_length_le (first pushId n decoded)]
    refine ⟨session.setStream streamId { streamId, sendOffset := pushId }, ?_,
      pristine.toShows.setStream _, streamId, pushId, stream_setStream _ _ _⟩
    cases fin <;> rfl

/-- A delivery on a push stream. -/
theorem Pristine.recvStreamData (pristine : Pristine like streamId held session)
    (unidirectional : streamId &&& 0x02 ≠ 0) {streamType consumed : Nat}
    (decoded : decodeVarint bytes = some (streamType, consumed))
    (type : StreamType.ofCode streamType = some .push) {data : Bytes}
    (begins : held ++ data <+: bytes) (fin : Bool) :
    Pristine like streamId (held ++ data) (session.buffer streamId data) ∧
      session.recvStreamData streamId data fin =
        if (held ++ data).length < consumed then .ok (session.buffer streamId data)
        else (session.buffer streamId data).handlePushStream streamId
          ((held ++ data).drop consumed) fin := by
  obtain ⟨number, offset, stream⟩ := pristine.stream
  refine ⟨⟨pristine.toShows.buffer data, streamId, offset, ?_⟩, ?_⟩
  · show (session.setStream streamId { session.stream streamId with streamId }).stream streamId = _
    rw [stream_setStream, stream]
  · rw [pristine.toShows.recvStreamData unidirectional, decodeVarint_isPrefix begins decoded]
    by_cases short : (held ++ data).length < consumed
    · rw [if_pos short, if_pos short]
    · rw [if_neg short, if_neg short]
      show processUniStream _ streamId (StreamType.ofCode streamType) _ fin = _
      rw [type]
      rfl

/-- Deliveries of no more than the push ID. -/
theorem Pristine.recvPieces (client : like.mode = .client)
    (unidirectional : streamId &&& 0x02 ≠ 0) {streamType consumed : Nat}
    (decoded : decodeVarint bytes = some (streamType, consumed))
    (type : StreamType.ofCode streamType = some .push) (pieces : List Bytes) (held : Bytes)
    (session : Session) (pristine : Pristine like streamId held session)
    (begins : held ++ pieces.flatten <+: bytes)
    (first : ∀ pushId n, decodeVarint (bytes.drop consumed) = some (pushId, n) →
      (held ++ pieces.flatten).length ≤ consumed + n) :
    ∃ after, session.recvPieces streamId pieces = .ok after ∧
      Pristine like streamId (held ++ pieces.flatten) after := by
  induction pieces generalizing held session with
  | nil =>
    rw [List.flatten_nil, List.append_nil]
    exact ⟨session, rfl, pristine⟩
  | cons piece pieces inductionHypothesis =>
    rw [List.flatten_cons, ← List.append_assoc] at begins first ⊢
    have start : held ++ piece <+: bytes := (List.prefix_append _ _).trans begins
    obtain ⟨there, step⟩ := pristine.recvStreamData unidirectional decoded type start false
    obtain ⟨after, delivered, remains⟩ : ∃ after,
        session.recvStreamData streamId piece false = .ok after ∧
          Pristine like streamId (held ++ piece) after := by
      rw [step]
      by_cases short : (held ++ piece).length < consumed
      · rw [if_pos short]
        exact ⟨_, rfl, there⟩
      · rw [if_neg short]
        refine there.handlePushStream client (fun pushId n found => ?_) false
        cases whole : decodeVarint (bytes.drop consumed) with
        | none =>
          rw [decodeVarint_prefix_none (start.drop consumed) whole] at found
          cases found
        | some whole' =>
          obtain ⟨wholeId, length⟩ := whole'
          have most := first wholeId length whole
          rw [decodeVarint_isPrefix (start.drop consumed) whole] at found
          split at found
          · cases found
          · cases found
            rw [List.length_append] at most
            rw [List.length_drop]
            omega
    obtain ⟨final, run, ends⟩ := inductionHypothesis (held ++ piece) after remains begins first
    refine ⟨final, ?_, ends⟩
    rw [Session.recvPieces, List.foldlM_cons, delivered]
    exact run

theorem Pristine.outcome_recvAll (client : like.mode = .client)
    (unidirectional : streamId &&& 0x02 ≠ 0) {streamType consumed : Nat}
    (decoded : decodeVarint bytes = some (streamType, consumed))
    (type : StreamType.ofCode streamType = some .push) {session : Session}
    (pristine : Pristine like streamId [] session) {pieces : List Bytes} {last : Bytes}
    (cut : pieces.flatten ++ last = bytes)
    (first : ∀ pushId n, decodeVarint (bytes.drop consumed) = some (pushId, n) →
      pieces.flatten.length ≤ consumed + n) (fin : Bool) :
    outcome (session.recvAll streamId pieces last fin) =
      pushOutcome like streamId (bytes.drop consumed) fin := by
  obtain ⟨middle, run, there⟩ := Pristine.recvPieces client unidirectional decoded type pieces []
    session pristine ⟨last, cut⟩ first
  obtain ⟨buffered, step⟩ := there.recvStreamData unidirectional decoded type
    (by rw [List.nil_append, cut]) fin
  have whole : consumed ≤ bytes.length := by
    have same := decodeVarint_isPrefix (List.prefix_refl bytes) decoded
    by_contra short
    rw [decoded, if_pos (Nat.not_le.mp short)] at same
    cases same
  unfold recvAll
  rw [run]
  show outcome (middle.recvStreamData streamId last fin) = _
  rw [step, List.nil_append, cut, if_neg (Nat.not_lt.mpr whole)]
  exact buffered.outcome_handlePushStream client _ fin

end Push

/-! ### Segmentation -/

/-- Nothing of a stream is processed before its last delivery that could be seen, or the stream
cannot be processed. -/
def Quiet (session : Session) (earlier bytes : Bytes) : Prop :=
  match decodeVarint bytes with
  | none => True
  | some (streamType, consumed) =>
      match StreamType.ofCode streamType with
      | some .control => session.mode = .client → session.pushHandler = true →
          (∀ f ∈ completeFrames (earlier.drop consumed), f.type ≠ .pushPromise) ∨
            ∃ f ∈ completeFrames (bytes.drop consumed), session.Undecodable f
      | some .push => session.mode = .client →
          ∀ pushId n, decodeVarint (bytes.drop consumed) = some (pushId, n) →
            earlier.length ≤ consumed + n
      | some .qpackEncoder =>
          session.decoder.instruction (earlier.drop consumed) = .ok none ∨
            ∃ fault, session.decoder.processEncoderInstructions (bytes.drop consumed) =
              .error fault
      | _ => True

/-- The bytes begin with the type of a push stream. -/
def OnPushStream (bytes : Bytes) : Prop :=
  ∃ streamType consumed, decodeVarint bytes = some (streamType, consumed) ∧
    StreamType.ofCode streamType = some .push

/-- A unidirectional stream of which nothing has come. -/
structure NewStream (session : Session) (streamId : Nat) : Prop where
  unidirectional : streamId &&& 0x02 ≠ 0
  absent : session.streams streamId = none
  buffered : session.uniStreamBuf streamId = []

theorem NewStream.shows {State : Type} {session : Session} {streamId : Nat}
    (fresh : session.NewStream streamId) {view : State → Observation} {state : State}
    (observed : session.observe = view state) :
    Shows session streamId view [] state session :=
  ⟨rfl, rfl, fresh.buffered, observed⟩

theorem decodeVarint_consumed {bytes : Bytes} {value consumed : Nat}
    (decoded : decodeVarint bytes = some (value, consumed)) : consumed ≤ bytes.length := by
  have same := decodeVarint_isPrefix (List.prefix_refl bytes) decoded
  by_contra short
  rw [decoded, if_pos (Nat.not_le.mp short)] at same
  cases same

section Segmentation

variable {session : Session} {streamId : Nat} {bytes last : Bytes} {pieces : List Bytes}

theorem idle_quiet_encoder {consumed : Nat} (typed : consumed ≤ bytes.length) (earlier : Bytes) :
    Idle (afterType consumed encoderRun) earlier ∨ Fails (afterType consumed encoderRun) bytes ↔
      session.decoder.instruction (earlier.drop consumed) = .ok none ∨
        ∃ fault, session.decoder.processEncoderInstructions (bytes.drop consumed) =
          .error fault := by
  have idle : Idle (afterType consumed encoderRun) earlier ↔
      session.decoder.instruction (earlier.drop consumed) = .ok none := by
    rw [idle_afterType_drop idle_encoderRun_nil, idle_encoderRun, QpackDecoder.instruction_eq]
    cases readInstruction (earlier.drop consumed) with
    | error fault => exact iff_of_false (fun wrong => by cases wrong) fun wrong => by cases wrong
    | ok found =>
      cases found with
      | none => exact iff_of_true rfl rfl
      | some found => exact iff_of_false (fun wrong => by cases wrong) fun wrong => by cases wrong
  have fails : Fails (afterType consumed encoderRun) bytes ↔
      ∃ fault, session.decoder.processEncoderInstructions (bytes.drop consumed) =
        .error fault := by
    rw [fails_afterType typed]
    obtain ⟨fault, fails⟩ | runs :=
      QpackDecoder.instructionLoop_count (bytes.drop consumed).length (bytes.drop consumed)
    · refine iff_of_true (fun decoder => ?_) ⟨fault, fails _⟩
      rw [encoderRun, QpackDecoder.processEncoderInstructions, fails]
      rfl
    · obtain ⟨next, run, _⟩ := runs session.decoder
      refine iff_of_false (fun fails => ?_) ?_
      · have failed := fails session.decoder
        rw [encoderRun, QpackDecoder.processEncoderInstructions, run] at failed
        cases failed
      · rintro ⟨fault, fails⟩
        rw [QpackDecoder.processEncoderInstructions, run] at fails
        cases fails
  rw [idle, fails]

/-- A stream whose type is ignored does nothing. -/
theorem simulates_ignored (like : Session) (unidirectional : streamId &&& 0x02 ≠ 0)
    {streamType consumed : Nat} (decoded : decodeVarint bytes = some (streamType, consumed))
    (ignored : ∀ (session : Session) payload fin, session.mode = like.mode → ∃ after,
      session.processUniStream streamId (StreamType.ofCode streamType) payload fin = .ok after ∧
        (after = session ∨ ∃ ss, after = session.setStream streamId ss)) :
    Simulates (fun _ => some) (Shows like streamId fun _ : Unit => like.observe) streamId
      bytes := by
  have same : afterType consumed (fun _ => some) =
      fun (_ : Bytes) (state : Unit) => some state := by
    funext held state
    exact ite_self _
  rw [← same]
  refine simulates_typed unidirectional decoded ?_
  intro session held state payload fin shows'
  obtain ⟨after, processed, rfl | ⟨ss, rfl⟩⟩ := ignored session payload fin shows'.mode
  · exact ⟨_, processed, shows'⟩
  · exact ⟨_, processed, shows'.setStream ss⟩

/-- Deliveries that do nothing have the outcome of one delivery. -/
theorem outcome_eq_of_silent (fresh : session.NewStream streamId)
    (simulates : Simulates (fun _ => some) (Shows session streamId fun _ : Unit => session.observe)
      streamId bytes) (cut : pieces.flatten ++ last = bytes) (fin : Bool) :
    outcome (session.recvAll streamId pieces last fin) =
      outcome (session.recvStreamData streamId bytes fin) := by
  have counted : Counted (fun (_ : Bytes) (state : Unit) => some state) (fun _ => 0) (fun _ => 0)
      bytes :=
    ⟨fun _ => Or.inr fun state => ⟨state, rfl, rfl⟩, fun _ _ _ _ => rfl, fun _ _ _ _ _ => rfl⟩
  have start : Shows session streamId (fun _ : Unit => session.observe) [] () session :=
    fresh.shows rfl
  exact (outcome_eq_iff simulates counted (fun _ => rfl) (fun _ _ _ => rfl) start cut fin).mpr
    (Or.inl fun _ => rfl)

/-- On streams that are not pushed to a client, deliveries have the outcome of one delivery if and
only if they are quiet. -/
theorem outcome_eq_iff_quiet (fresh : session.NewStream streamId) (short : bytes.length < 2 ^ 62)
    (cut : pieces.flatten ++ last = bytes) (fin : Bool)
    (other : OnPushStream bytes → session.mode = .server) :
    outcome (session.recvAll streamId pieces last fin) =
        outcome (session.recvStreamData streamId bytes fin) ↔
      session.Quiet pieces.flatten bytes := by
  have begins : pieces.flatten <+: bytes := ⟨last, cut⟩
  unfold Quiet
  cases decoded : decodeVarint bytes with
  | none =>
    have simulates := simulates_untyped session fresh.unidirectional decoded
    exact iff_of_true (outcome_eq_of_silent fresh simulates cut fin) trivial
  | some found =>
    obtain ⟨streamType, consumed⟩ := found
    have typed := decodeVarint_consumed decoded
    dsimp only
    cases type : StreamType.ofCode streamType with
    | none =>
      have simulates := simulates_ignored session fresh.unidirectional decoded
        fun session payload fin _ => ⟨session, by rw [type]; rfl, Or.inl rfl⟩
      exact iff_of_true (outcome_eq_of_silent fresh simulates cut fin) trivial
    | some kind =>
      cases kind with
      | control =>
        have start : Shows session streamId (fun pushed => { session.observe with pushed }) []
            session.pushed session := fresh.shows rfl
        rw [outcome_eq_iff (simulates_control session fresh.unidirectional decoded type)
          (counted_afterType (counted_controlRun session _))
          (idle_afterType_nil session.idle_controlRun_nil)
          (fun _ _ same => congrArg Observation.pushed same) start cut fin,
          idle_afterType_drop session.idle_controlRun_nil, fails_afterType typed]
        exact idle_or_fails_controlRun session (begins.drop consumed)
      | push =>
        have server := other ⟨streamType, consumed, decoded, type⟩
        have simulates := simulates_ignored session fresh.unidirectional decoded
          fun session payload fin mode => ⟨session, by
            rw [type]
            show session.handlePushStream streamId payload fin = _
            rw [handlePushStream, mode, server], Or.inl rfl⟩
        refine iff_of_true (outcome_eq_of_silent fresh simulates cut fin) fun client => ?_
        rw [server] at client
        cases client
      | qpackEncoder =>
        have start : Shows session streamId (fun decoder => { session.observe with decoder }) []
            session.decoder session := fresh.shows rfl
        have shorter : (bytes.drop consumed).length < 2 ^ 62 := by
          rw [List.length_drop]
          omega
        rw [outcome_eq_iff (simulates_encoder session fresh.unidirectional decoded type)
          (counted_afterType (counted_encoderRun shorter))
          (idle_afterType_nil idle_encoderRun_nil)
          (fun _ _ same => congrArg Observation.decoder same) start cut fin]
        exact idle_quiet_encoder typed _
      | qpackDecoder =>
        have simulates := simulates_ignored session fresh.unidirectional decoded
          fun session payload fin _ => ⟨_, by rw [type]; rfl, Or.inr ⟨_, rfl⟩⟩
        exact iff_of_true (outcome_eq_of_silent fresh simulates cut fin) trivial

/-- Quiet deliveries have the outcome of one delivery. -/
theorem outcome_eq_of_quiet (fresh : session.NewStream streamId) (short : bytes.length < 2 ^ 62)
    (cut : pieces.flatten ++ last = bytes) (fin : Bool)
    (quiet : session.Quiet pieces.flatten bytes) :
    outcome (session.recvAll streamId pieces last fin) =
      outcome (session.recvStreamData streamId bytes fin) := by
  by_cases other : OnPushStream bytes → session.mode = .server
  · exact (outcome_eq_iff_quiet fresh short cut fin other).mpr quiet
  · obtain ⟨⟨streamType, consumed, decoded, type⟩, isClient⟩ := Classical.not_imp.mp other
    have client : session.mode = .client := by
      cases mode : session.mode with
      | server => exact absurd mode isClient
      | client => rfl
    have pristine : Pristine session streamId [] session :=
      { toShows := fresh.shows rfl
        stream := ⟨0, 0, by
          rw [Session.stream, fresh.absent]
          rfl⟩ }
    unfold Quiet at quiet
    rw [decoded] at quiet
    dsimp only at quiet
    rw [type] at quiet
    have single : outcome (session.recvAll streamId [] bytes fin) = _ :=
      pristine.outcome_recvAll client fresh.unidirectional decoded type rfl
        (fun _ _ _ => Nat.zero_le _) fin
    rw [show outcome (session.recvStreamData streamId bytes fin) = _ from single]
    exact pristine.outcome_recvAll client fresh.unidirectional decoded type cut
      (quiet client) fin

end Segmentation

/-- A client with a push handler, at its start. -/
def pushClient : Session := { mode := .client, pushHandler := true }

/-- Two insertions on a QPACK encoder stream: `a: b` and `c: d`. -/
def insertions : Bytes :=
  [0x02, 0x40, 0x01, 0x61, 0x01, 0x62, 0x40, 0x01, 0x63, 0x01, 0x64]

theorem newStream_pushClient : pushClient.NewStream 3 := ⟨by decide, rfl, rfl⟩

end Session

end AsyncNet.Http.H3
