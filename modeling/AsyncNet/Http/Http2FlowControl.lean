/-
This file keeps the books of flow control between two sessions. A session lowers a
receive window by the data it takes and raises it by the credit it grants in a
WINDOW_UPDATE frame, and the peer raises its send window by that credit. So the credit
that a session can hold is bounded by the data it has sent, and a window that is
never lowered on the sending side still does not pass its limit.
-/

import AsyncNet.Http.Http2Messages

namespace AsyncNet.Http

open H2

/-! ### Credit and load -/

namespace H2

/-- The credit that a frame grants a stream, or the connection, which stream 0 stands for. -/
def Frame.credit (scope : Nat) (f : Frame) : Nat :=
  if f.hdr.type = .windowUpdate ∧ f.hdr.streamId = scope then parseWindowUpdate f.payload else 0

/-- The data of a frame that counts for a stream, or for the connection. -/
def Frame.load (scope : Nat) (f : Frame) : Nat :=
  if f.hdr.type = .data ∧ (scope = 0 ∨ scope = f.hdr.streamId) then f.payload.length else 0

/-- What a frame can still cause: DATA up to two window updates, settings an acknowledgement. -/
def Frame.effort (f : Frame) : Nat :=
  if f.hdr.type = .data then 3 else if f.hdr.type = .settings ∧ f.payload ≠ [] then 2 else 1

end H2

def credits (scope : Nat) (frames : List Frame) : Nat := (frames.map (Frame.credit scope)).sum

def loads (scope : Nat) (frames : List Frame) : Nat := (frames.map (Frame.load scope)).sum

def efforts (frames : List Frame) : Nat := (frames.map Frame.effort).sum

@[simp] theorem efforts_cons (f : Frame) (frames : List Frame) :
    efforts (f :: frames) = f.effort + efforts frames := rfl

@[simp] theorem efforts_append (frames more : List Frame) :
    efforts (frames ++ more) = efforts frames + efforts more := by
  rw [efforts, List.map_append, List.sum_append]
  rfl

theorem effort_pos (f : Frame) : 0 < f.effort := by
  unfold Frame.effort
  split_ifs <;> decide

@[simp] theorem credits_nil (scope : Nat) : credits scope [] = 0 := rfl

@[simp] theorem credits_cons (scope : Nat) (f : Frame) (frames : List Frame) :
    credits scope (f :: frames) = f.credit scope + credits scope frames := rfl

@[simp] theorem credits_append (scope : Nat) (frames more : List Frame) :
    credits scope (frames ++ more) = credits scope frames + credits scope more := by
  rw [credits, List.map_append, List.sum_append]
  rfl

@[simp] theorem loads_cons (scope : Nat) (f : Frame) (frames : List Frame) :
    loads scope (f :: frames) = f.load scope + loads scope frames := rfl

@[simp] theorem loads_append (scope : Nat) (frames more : List Frame) :
    loads scope (frames ++ more) = loads scope frames + loads scope more := by
  rw [loads, List.map_append, List.sum_append]
  rfl

theorem credits_of_ne (scope : Nat) (frames : List Frame)
    (others : ∀ f ∈ frames, f.hdr.type ≠ .windowUpdate) : credits scope frames = 0 := by
  induction frames with
  | nil => rfl
  | cons f frames inductionHypothesis =>
    rw [credits_cons, Frame.credit, if_neg fun both => others f List.mem_cons_self both.1,
      inductionHypothesis fun g member => others g (List.mem_cons_of_mem f member)]

theorem loads_of_ne (scope : Nat) (frames : List Frame)
    (others : ∀ f ∈ frames, f.hdr.type ≠ .data) : loads scope frames = 0 := by
  induction frames with
  | nil => rfl
  | cons f frames inductionHypothesis =>
    rw [loads_cons, Frame.load, if_neg fun both => others f List.mem_cons_self both.1,
      inductionHypothesis fun g member => others g (List.mem_cons_of_mem f member)]

theorem parseWindowUpdate_windowUpdateFrame (sid increment : Nat) (small : increment < 2 ^ 31) :
    parseWindowUpdate (windowUpdateFrame sid increment).payload = increment := by
  have written := getUint32_putUint32 [] (increment % 2 ^ 31) (by omega)
  have four : (putUint32 (increment % 2 ^ 31)).length = 4 := rfl
  show parseWindowUpdate (putUint32 (increment % 2 ^ 31)) = increment
  rw [parseWindowUpdate, four, if_neg (lt_irrefl 4), show getUint32 (putUint32 (increment % 2 ^ 31))
    0 = increment % 2 ^ 31 from written, Nat.mod_mod, Nat.mod_eq_of_lt small]

theorem credit_windowUpdateFrame (scope sid increment : Nat) (small : increment < 2 ^ 31) :
    (windowUpdateFrame sid increment).credit scope = if sid = scope then increment else 0 := by
  rw [Frame.credit, parseWindowUpdate_windowUpdateFrame sid increment small]
  show (if FrameType.windowUpdate = .windowUpdate ∧ sid = scope then increment else 0) = _
  simp only [true_and]

/-! ### The load of a message -/

section Sent

variable (scope sid size : Nat)

theorem type_splitInto (type : FrameType) (lastFlags : UInt8) (count : Nat) (rest : Bytes) :
    ∀ f ∈ splitInto type lastFlags sid size count rest, f.hdr.type = type := by
  intro f member
  obtain ⟨flags, piece, -, rfl⟩ := mem_splitInto _ _ _ _ _ _ member
  rfl

theorem type_headerFrames (flags : UInt8) (block : Bytes) :
    ∀ f ∈ headerFrames sid flags size block,
      f.hdr.type = .headers ∨ f.hdr.type = .continuation := by
  intro f member
  obtain ⟨type, flags, piece, kind, -, rfl⟩ := mem_headerFrames _ _ _ _ member
  exact kind

theorem credits_headerFrames (flags : UInt8) (block : Bytes) :
    credits scope (headerFrames sid flags size block) = 0 := by
  refine credits_of_ne scope _ fun f member => ?_
  rcases type_headerFrames sid size flags block f member with type | type <;> rw [type] <;> decide

theorem loads_headerFrames (flags : UInt8) (block : Bytes) :
    loads scope (headerFrames sid flags size block) = 0 := by
  refine loads_of_ne scope _ fun f member => ?_
  rcases type_headerFrames sid size flags block f member with type | type <;> rw [type] <;> decide

theorem credits_bodyFrames (noEndStream : Bool) (body : Bytes) :
    credits scope (bodyFrames sid noEndStream size body) = 0 := by
  refine credits_of_ne scope _ fun f member => ?_
  rw [type_splitInto sid size _ _ _ _ f member]
  decide

theorem loads_splitInto_le (lastFlags : UInt8) (count : Nat) (rest : Bytes) :
    loads scope (splitInto .data lastFlags sid size count rest) ≤ rest.length := by
  induction count generalizing rest with
  | zero => exact Nat.zero_le _
  | succ count inductionHypothesis =>
    unfold splitInto
    split
    · exact Nat.zero_le _
    · have later := inductionHypothesis (rest.drop size)
      have first : (Frame.ofPayload .data (if rest.drop size = [] then lastFlags else 0) sid
          (rest.take size)).load scope ≤ (rest.take size).length := by
        unfold Frame.load
        by_cases counts : scope = 0 ∨ scope = sid
        · rw [if_pos ⟨rfl, counts⟩]
          exact le_rfl
        · rw [if_neg fun both => counts both.2]
          exact Nat.zero_le _
      rw [loads_cons]
      rw [List.length_drop] at later
      rw [List.length_take] at first
      omega

theorem credits_messageFrames (message : Message) (block trailersBlock : Bytes) :
    credits scope (messageFrames sid size message block trailersBlock) = 0 := by
  unfold messageFrames
  rw [credits_append, credits_append, credits_headerFrames, credits_bodyFrames]
  split
  · rw [credits_headerFrames]
  · rfl

theorem loads_messageFrames_le (message : Message) (block trailersBlock : Bytes) :
    loads scope (messageFrames sid size message block trailersBlock) ≤ message.body.length := by
  have body := loads_splitInto_le scope sid size
    (if message.trailers.isSome then 0 else Flag.endStream) message.body.length message.body
  have trailers : loads scope (if message.trailers.isSome then
      headerFrames sid Flag.endStream size trailersBlock else []) = 0 := by
    split
    · exact loads_headerFrames scope sid size _ _
    · rfl
  unfold messageFrames bodyFrames
  rw [loads_append, loads_append, loads_headerFrames, trailers]
  omega

end Sent

/-! ### Windows -/

/-- A stream without its windows. -/
def StreamState.still (state : StreamState) : StreamState :=
  { state with sendWindow := 0, recvWindow := 0 }

namespace Connection

/-- A stream of the map without its windows. -/
def view (connection : Connection) (sid : Nat) : Option StreamState :=
  (connection.streams sid).map StreamState.still

/-- The send window of a stream, or of the connection. -/
def sendWindowOf (connection : Connection) (scope : Nat) : Int :=
  if scope = 0 then connection.connSendWindow else (connection.stream scope).sendWindow

/-- The receive window of a stream, or of the connection. -/
def recvWindowOf (connection : Connection) (scope : Nat) : Int :=
  if scope = 0 then connection.connRecvWindow else (connection.stream scope).recvWindow

/-- Every receive window is at least half full and not over full. -/
def Bounded (connection : Connection) : Prop :=
  ∀ scope, 32767 ≤ connection.recvWindowOf scope ∧ connection.recvWindowOf scope ≤ 65535

/-- From one connection to the other, data was taken on a stream and frames were sent. -/
structure Moves (sid taken : Nat) (sent : List Frame) (before after : Connection) : Prop where
  alive : after.alive = before.alive
  peerMaxFrameSize : after.peerMaxFrameSize = before.peerMaxFrameSize
  peerInitialWindowSize : after.peerInitialWindowSize = before.peerInitialWindowSize
  maxTableSize : after.encoder.maxTableSize = before.encoder.maxTableSize
  nextStreamId : after.nextStreamId = before.nextStreamId
  outputBuf : after.outputBuf = before.outputBuf ++ sent.flatMap Frame.wire
  others : ∀ other, other ≠ sid → after.view other = before.view other
  sendWindow : ∀ scope, after.sendWindowOf scope = before.sendWindowOf scope
  recvWindow : ∀ scope,
    after.recvWindowOf scope + ((if scope = 0 ∨ scope = sid then taken else 0 : Nat) : Int) =
      before.recvWindowOf scope + (credits scope sent : Int)

theorem Moves.refl (sid : Nat) (connection : Connection) :
    Moves sid 0 [] connection connection where
  alive := rfl
  peerMaxFrameSize := rfl
  peerInitialWindowSize := rfl
  maxTableSize := rfl
  nextStreamId := rfl
  outputBuf := (List.append_nil _).symm
  others := fun _ _ => rfl
  sendWindow := fun _ => rfl
  recvWindow := fun scope => by rw [ite_self]; rfl

theorem Moves.trans {sid taken more : Nat} {sent later : List Frame}
    {first second third : Connection} (left : Moves sid taken sent first second)
    (right : Moves sid more later second third) :
    Moves sid (taken + more) (sent ++ later) first third where
  alive := right.alive.trans left.alive
  peerMaxFrameSize := right.peerMaxFrameSize.trans left.peerMaxFrameSize
  peerInitialWindowSize := right.peerInitialWindowSize.trans left.peerInitialWindowSize
  maxTableSize := right.maxTableSize.trans left.maxTableSize
  nextStreamId := right.nextStreamId.trans left.nextStreamId
  outputBuf := by
    rw [right.outputBuf, left.outputBuf, List.flatMap_append, List.append_assoc]
  others := fun other different => (right.others other different).trans
    (left.others other different)
  sendWindow := fun scope => (right.sendWindow scope).trans (left.sendWindow scope)
  recvWindow := fun scope => by
    have leftEq := left.recvWindow scope
    have rightEq := right.recvWindow scope
    rw [credits_append]
    split at leftEq <;> split at rightEq <;> split <;> push_cast at * <;> omega

theorem Moves.before {sid taken : Nat} {sent : List Frame} {first second third : Connection}
    (left : Moves sid 0 [] first second) (right : Moves sid taken sent second third) :
    Moves sid taken sent first third := by
  have both := left.trans right
  rw [Nat.zero_add] at both
  exact both

theorem Moves.andThen {sid taken : Nat} {sent : List Frame} {first second third : Connection}
    (left : Moves sid taken sent first second) (right : Moves sid 0 [] second third) :
    Moves sid taken sent first third := by
  have both := left.trans right
  rw [List.append_nil] at both
  exact both

/-- Without data taken and credit granted, the receive windows stay. -/
theorem Moves.bounded {sid : Nat} {sent : List Frame} {before after : Connection}
    (moves : Moves sid 0 sent before after) (none : ∀ scope, credits scope sent = 0)
    (bounded : Bounded before) : Bounded after := by
  intro scope
  have same := moves.recvWindow scope
  rw [none scope, ite_self] at same
  have holds := bounded scope
  push_cast at same
  omega

/-! ### Changes to a stream -/

section Streams

variable (connection : Connection) (sid : Nat)

theorem view_eq_none : connection.view sid = none ↔ connection.streams sid = none :=
  Option.map_eq_none_iff

theorem view_modifyStream_of_ne (change : StreamState → StreamState) (other : Nat)
    (different : other ≠ sid) :
    (connection.modifyStream sid change).view other = connection.view other := by
  rw [view, streams_modifyStream_of_ne _ _ _ _ different]
  rfl

/-- A change that does not look at the windows can be made to the view. -/
theorem view_modifyStream (change : StreamState → StreamState)
    (still : ∀ state, (change state).still = (change state.still).still) :
    (connection.modifyStream sid change).view sid =
      (connection.view sid).map fun state => (change state).still := by
  rw [view, view, streams_modifyStream, Option.map_map, Option.map_map]
  exact congrArg (fun change => (connection.streams sid).map change) (funext still)

theorem sendWindowOf_modifyStream (change : StreamState → StreamState)
    (keeps : ∀ state, (change state).sendWindow = state.sendWindow) (scope : Nat) :
    (connection.modifyStream sid change).sendWindowOf scope = connection.sendWindowOf scope := by
  unfold sendWindowOf
  split
  · rfl
  · exact field_modifyStream connection sid change StreamState.sendWindow keeps scope

theorem recvWindowOf_modifyStream (change : StreamState → StreamState)
    (keeps : ∀ state, (change state).recvWindow = state.recvWindow) (scope : Nat) :
    (connection.modifyStream sid change).recvWindowOf scope = connection.recvWindowOf scope := by
  unfold recvWindowOf
  split
  · rfl
  · exact field_modifyStream connection sid change StreamState.recvWindow keeps scope

theorem moves_modifyStream (change : StreamState → StreamState)
    (keepsSend : ∀ state, (change state).sendWindow = state.sendWindow)
    (keepsRecv : ∀ state, (change state).recvWindow = state.recvWindow) :
    Moves sid 0 [] connection (connection.modifyStream sid change) :=
  { Moves.refl sid connection with
    others := fun other different => view_modifyStream_of_ne connection sid change other different
    sendWindow := sendWindowOf_modifyStream connection sid change keepsSend
    recvWindow := fun scope => by
      rw [ite_self, recvWindowOf_modifyStream connection sid change keepsRecv]
      rfl }

theorem moves_setStream (state : StreamState)
    (keepsSend : state.sendWindow = (connection.stream sid).sendWindow)
    (keepsRecv : state.recvWindow = (connection.stream sid).recvWindow) :
    Moves sid 0 [] connection (connection.setStream sid state) := by
  have stays (other : Nat) (different : other ≠ sid) :
      (connection.setStream sid state).stream other = connection.stream other := by
    rw [stream, stream, streams_setStream_of_ne _ _ _ _ different]
  refine { Moves.refl sid connection with
    others := fun other different => ?_
    sendWindow := fun scope => ?_
    recvWindow := fun scope => ?_ }
  · rw [view, streams_setStream_of_ne _ _ _ _ different]
    rfl
  · unfold sendWindowOf
    split
    · rfl
    · by_cases same : scope = sid
      · rw [same, stream_setStream, keepsSend]
      · rw [stays scope same]
  · rw [ite_self]
    show (connection.setStream sid state).recvWindowOf scope + 0 =
      connection.recvWindowOf scope + 0
    unfold recvWindowOf
    split
    · rfl
    · by_cases same : scope = sid
      · rw [same, stream_setStream, keepsRecv]
      · rw [stays scope same]

theorem moves_record (event : Event) : Moves sid 0 [] connection (connection.record event) :=
  { Moves.refl sid connection with }

theorem moves_openStream : Moves sid 0 [] connection (connection.openStream sid) :=
  { moves_setStream connection sid { connection.stream sid with streamId := sid, state := .opened }
      rfl rfl with }

theorem moves_awaitContinuation (block : Bytes) (endStream : Bool) :
    Moves sid 0 [] connection (connection.awaitContinuation sid block endStream) :=
  { moves_modifyStream connection sid (fun state =>
      { state with pendingHeaderBlock := block, endStream := state.endStream || endStream })
      (fun _ => rfl) fun _ => rfl with }

end Streams

/-! ### Sending -/

section Sending

variable (connection : Connection) (sid : Nat)

/-- Frames that grant no credit are sent. -/
theorem moves_enqueue (frames : List Frame) (none : ∀ scope, credits scope frames = 0) :
    Moves sid 0 frames connection (connection.enqueue (frames.flatMap Frame.wire)) :=
  { Moves.refl sid connection with
    outputBuf := rfl
    recvWindow := fun scope => by
      rw [ite_self, none scope]
      rfl }

theorem moves_sendHeaders (flags : UInt8) (headers : Headers) :
    Moves sid 0
      (headerFrames sid flags connection.peerMaxFrameSize (connection.encoder.encode headers).1)
      connection (connection.sendHeaders sid flags headers) := by
  set block := (connection.encoder.encode headers).1
  have frames : (connection.buildHeadersFrame sid flags headers).1 =
      (headerFrames sid flags connection.peerMaxFrameSize block).flatMap Frame.wire := by
    unfold buildHeadersFrame headerFrames
    dsimp only
    split
    · exact (List.append_nil _).symm
    · rw [splitFrames_eq]
      rfl
  have sends := moves_enqueue connection sid
    (headerFrames sid flags connection.peerMaxFrameSize block)
    fun scope => credits_headerFrames scope sid _ flags block
  rw [← frames] at sends
  exact { sends with }

theorem moves_sendBody (data : Bytes) (noEndStream : Bool) :
    Moves sid 0 (bodyFrames sid noEndStream connection.peerMaxFrameSize data) connection
      (connection.sendBody sid data noEndStream) := by
  unfold sendBody
  by_cases empty : data = []
  · rw [if_neg (not_not.mpr empty), empty]
    exact Moves.refl sid connection
  · have frames : connection.buildDataFrames sid data noEndStream =
        (bodyFrames sid noEndStream connection.peerMaxFrameSize data).flatMap Frame.wire := by
      unfold buildDataFrames bodyFrames
      rw [if_neg (fun both : data = [] ∧ noEndStream = false => empty both.1), List.append_nil,
        splitFrames_eq]
    rw [if_pos empty, frames]
    exact moves_enqueue connection sid _ fun scope => credits_bodyFrames scope sid _ _ data

end Sending

/-! ### Receiving data -/

section Receiving

variable (connection : Connection) (sid : Nat)

theorem windowIncrement_cases (window : Int) (low : 0 ≤ window) (high : window ≤ 65535) :
    windowIncrement window = none ∧ 32767 ≤ window ∨
      ∃ increment : Nat, windowIncrement window = some increment ∧ window + increment = 65535 ∧
        0 < increment ∧ increment < 2 ^ 31 := by
  unfold windowIncrement
  by_cases due : window < 65535 / 2
  · refine Or.inr ⟨((65535 - window) % 2 ^ 32).toNat, if_pos due, ?_⟩
    omega
  · refine Or.inl ⟨if_neg due, ?_⟩
    omega

theorem moves_replenishConnection (low : 0 ≤ connection.connRecvWindow)
    (high : connection.connRecvWindow ≤ 65535) :
    ∃ frames, (∀ f ∈ frames, IsControl f) ∧ efforts frames ≤ 1 ∧
      Moves sid 0 frames connection connection.replenishConnection ∧
      32767 ≤ connection.replenishConnection.connRecvWindow ∧
      connection.replenishConnection.connRecvWindow ≤ 65535 := by
  unfold replenishConnection
  obtain ⟨none, enough⟩ | ⟨increment, due, full, positive, small⟩ :=
    windowIncrement_cases connection.connRecvWindow low high
  · rw [none]
    exact ⟨[], fun f member => absurd member List.not_mem_nil, Nat.zero_le 1,
      Moves.refl sid connection, enough, high⟩
  · rw [due]
    refine ⟨[windowUpdateFrame 0 increment], ?_, le_rfl, ?_, ?_, ?_⟩
    · intro f member
      rw [List.mem_singleton.mp member]
      exact .windowUpdate (by decide) positive small
    · refine { Moves.refl sid connection with outputBuf := ?_, recvWindow := fun scope => ?_ }
      · exact congrArg (connection.outputBuf ++ ·) (List.append_nil _).symm
      · rw [credits_cons, credits_nil, credit_windowUpdateFrame _ _ _ small, ite_self, Nat.add_zero,
          Nat.cast_zero, add_zero, recvWindowOf, recvWindowOf]
        by_cases whole : scope = 0
        · rw [if_pos whole, if_pos whole, if_pos whole.symm]
        · rw [if_neg whole, if_neg whole, if_neg (Ne.symm whole), Nat.cast_zero, add_zero]
          rfl
    · dsimp only
      omega
    · exact full.le

theorem streams_replenishConnection :
    connection.replenishConnection.streams = connection.streams := by
  unfold replenishConnection
  split <;> rfl

theorem recvWindowOf_replenishConnection (scope : Nat) (other : scope ≠ 0) :
    connection.replenishConnection.recvWindowOf scope = connection.recvWindowOf scope := by
  rw [recvWindowOf, recvWindowOf, if_neg other, if_neg other, stream, stream,
    streams_replenishConnection]

theorem recvWindowOf_replenishStream (scope : Nat) (other : scope ≠ sid) :
    (connection.replenishStream sid).recvWindowOf scope = connection.recvWindowOf scope := by
  unfold replenishStream
  split
  · rfl
  · rw [recvWindowOf, recvWindowOf, stream_modifyStream_of_ne _ _ _ _ other]
    rfl

theorem moves_replenishStream (nonzero : sid ≠ 0) (identifier : sid < 2 ^ 31)
    (present : (connection.streams sid).isSome = true)
    (low : 0 ≤ connection.recvWindowOf sid) (high : connection.recvWindowOf sid ≤ 65535) :
    ∃ frames, (∀ f ∈ frames, IsControl f) ∧ efforts frames ≤ 1 ∧
      Moves sid 0 frames connection (connection.replenishStream sid) ∧
      32767 ≤ (connection.replenishStream sid).recvWindowOf sid ∧
      (connection.replenishStream sid).recvWindowOf sid ≤ 65535 := by
  obtain ⟨state, found⟩ := Option.isSome_iff_exists.mp present
  have window : connection.recvWindowOf sid = (connection.stream sid).recvWindow := if_neg nonzero
  unfold replenishStream
  rw [← window]
  obtain ⟨none, enough⟩ | ⟨increment, due, full, positive, small⟩ :=
    windowIncrement_cases (connection.recvWindowOf sid) low high
  · rw [none]
    exact ⟨[], fun f member => absurd member List.not_mem_nil, Nat.zero_le 1,
      Moves.refl sid connection, enough, high⟩
  · rw [due]
    dsimp only
    set after := (connection.enqueue (buildWindowUpdate sid increment)).modifyStream sid
      fun state => { state with recvWindow := state.recvWindow + increment } with afterEq
    have raised : after.recvWindowOf sid = 65535 := by
      rw [recvWindowOf, if_neg nonzero, stream, afterEq, streams_modifyStream,
        streams_enqueue, found]
      rw [window, stream_of_some connection sid found] at full
      exact full
    refine ⟨[windowUpdateFrame sid increment], ?_, le_rfl, ?_, ?_, ?_⟩
    · intro f member
      rw [List.mem_singleton.mp member]
      exact .windowUpdate identifier positive small
    · refine { Moves.refl sid connection with
        outputBuf := ?_
        others := fun other different => ?_
        sendWindow := fun scope => ?_
        recvWindow := fun scope => ?_ }
      · exact congrArg (connection.outputBuf ++ ·) (List.append_nil _).symm
      · exact view_modifyStream_of_ne (connection.enqueue _) sid _ other different
      · exact sendWindowOf_modifyStream (connection.enqueue _) sid _ (fun _ => by rfl) scope
      · rw [credits_cons, credits_nil, credit_windowUpdateFrame _ _ _ small, ite_self, Nat.add_zero,
          Nat.cast_zero, add_zero]
        by_cases same : scope = sid
        · rw [if_pos same.symm, same, raised, full]
        · rw [if_neg (Ne.symm same), recvWindowOf, recvWindowOf, afterEq,
            stream_modifyStream_of_ne _ _ _ _ same, Nat.cast_zero, add_zero]
          rfl
    · rw [raised]
      decide
    · exact raised.le

/-- The flow control of a DATA frame. -/
theorem moves_updateWindows (taken : Nat) (nonzero : sid ≠ 0) (identifier : sid < 2 ^ 31)
    (present : (connection.streams sid).isSome = true) (bounded : Bounded connection)
    (short : taken ≤ 16384) :
    ∃ frames, (∀ f ∈ frames, IsControl f) ∧ efforts frames ≤ 2 ∧
      Moves sid taken frames connection (connection.updateWindows sid taken) ∧
      Bounded (connection.updateWindows sid taken) := by
  set lowered := ({ connection with
    connRecvWindow := connection.connRecvWindow - taken } : Connection).modifyStream sid
      fun state => { state with recvWindow := state.recvWindow - taken } with loweredEq
  obtain ⟨state, found⟩ := Option.isSome_iff_exists.mp present
  have lookup : ({ connection with
      connRecvWindow := connection.connRecvWindow - taken } : Connection).streams sid =
        some state := found
  have lowers : Moves sid taken [] connection lowered := by
    refine { Moves.refl sid connection with
      others := fun other different => ?_
      sendWindow := fun scope => ?_
      recvWindow := fun scope => ?_ }
    · exact view_modifyStream_of_ne _ sid _ other different
    · exact sendWindowOf_modifyStream _ sid _ (fun _ => by rfl) scope
    · rw [credits_nil, Nat.cast_zero, add_zero, recvWindowOf, recvWindowOf]
      by_cases whole : scope = 0
      · rw [if_pos whole, if_pos whole, if_pos (Or.inl whole)]
        exact Int.sub_add_cancel connection.connRecvWindow taken
      · rw [if_neg whole, if_neg whole]
        by_cases same : scope = sid
        · rw [if_pos (Or.inr same), same, stream_of_some connection sid found, stream, loweredEq,
            streams_modifyStream, lookup]
          exact Int.sub_add_cancel state.recvWindow taken
        · rw [if_neg (fun either => either.elim whole same), loweredEq,
            stream_modifyStream_of_ne _ _ _ _ same, Nat.cast_zero, add_zero]
          rfl
  have window (scope : Nat) : 16383 ≤ lowered.recvWindowOf scope ∧
      lowered.recvWindowOf scope ≤ 65535 := by
    have same := lowers.recvWindow scope
    have holds := bounded scope
    rw [credits_nil] at same
    split at same <;> push_cast at same <;> omega
  have conn : lowered.recvWindowOf 0 = lowered.connRecvWindow := rfl
  obtain ⟨frames, controls, few, first, firstLow, firstHigh⟩ :=
    moves_replenishConnection lowered sid
    (by have := window 0; omega) (by have := window 0; omega)
  have here : (lowered.replenishConnection.streams sid).isSome = true := by
    rw [streams_replenishConnection, loweredEq, isSome_modifyStream]
    exact present
  have untouched := recvWindowOf_replenishConnection lowered sid nonzero
  obtain ⟨more, moreControls, moreFew, second, secondLow, secondHigh⟩ :=
    moves_replenishStream lowered.replenishConnection sid nonzero identifier here
      (by have := window sid; omega) (by have := window sid; omega)
  refine ⟨frames ++ more, fun f member => (List.mem_append.mp member).elim (controls f)
    (moreControls f), ?_, lowers.trans (first.trans second), fun scope => ?_⟩
  · rw [efforts_append]
    exact Nat.add_le_add few moreFew
  show 32767 ≤ (lowered.replenishConnection.replenishStream sid).recvWindowOf scope ∧
    (lowered.replenishConnection.replenishStream sid).recvWindowOf scope ≤ 65535
  by_cases same : scope = sid
  · rw [same]
    exact ⟨secondLow, secondHigh⟩
  · rw [recvWindowOf_replenishStream _ sid scope same]
    by_cases whole : scope = 0
    · rw [whole]
      exact ⟨firstLow, firstHigh⟩
    · have raw := lowers.recvWindow scope
      have holds := bounded scope
      rw [if_neg (fun either => either.elim whole same), credits_nil] at raw
      rw [recvWindowOf_replenishConnection lowered scope whole]
      push_cast at raw
      omega

end Receiving

end Connection

/-! ### Requests and responses as messages -/

def requestMessage (req : Request) : Message where
  headers := Connection.requestHeaders req
  body := req.bd
  trailers := none

def responseMessage (resp : Response) : Message where
  headers := Connection.responseHeaders resp
  body := resp.bd
  trailers :=
    if resp.trailers = [] then none else some (Connection.copiedHeaders [] resp.trailers)

namespace Connection

section Messages

variable (connection : Connection) (sid : Nat)

theorem isSome_trailers (resp : Response) :
    (responseMessage resp).trailers.isSome = decide (resp.trailers ≠ []) := by
  unfold responseMessage
  by_cases none : resp.trailers = []
  · rw [if_pos none, decide_eq_false (not_not.mpr none)]
    rfl
  · rw [if_neg none, decide_eq_true none]
    rfl

theorem bare_responseMessage (resp : Response) :
    (responseMessage resp).bare = true ↔ ¬ (resp.bd ≠ [] ∨ resp.trailers ≠ []) := by
  have none : (responseMessage resp).trailers.isNone = true ↔ resp.trailers = [] := by
    rw [← Option.not_isSome, isSome_trailers]
    simp
  rw [Message.bare, Bool.and_eq_true, none, List.isEmpty_iff, not_or, not_not, not_not]
  rfl

theorem responseFlags_eq (resp : Response) :
    (if resp.bd ≠ [] ∨ resp.trailers ≠ [] then (0 : UInt8) else Flag.endStream) =
      if (responseMessage resp).bare then Flag.endStream else 0 := by
  rw [if_congr (bare_responseMessage resp) rfl rfl, ite_not]

/-- A response is sent as a message. -/
theorem moves_doSubmitResponse (resp : Response) :
    ∃ encoder : HpackEncoder, encoder.maxTableSize = connection.encoder.maxTableSize ∧
      Moves sid 0 (messageFrames sid connection.peerMaxFrameSize (responseMessage resp)
        (connection.encoder.encode (responseHeaders resp)).1
        (encoder.encode (copiedHeaders [] resp.trailers)).1) connection
        (connection.doSubmitResponse sid resp) := by
  unfold doSubmitResponse
  dsimp only
  rw [responseFlags_eq]
  set started := connection.sendHeaders sid _ (responseHeaders resp)
  have first : Moves sid 0 _ connection started :=
    moves_sendHeaders connection sid _ (responseHeaders resp)
  have second := moves_sendBody started sid resp.bd (decide (resp.trailers ≠ []))
  set carried := started.sendBody sid resp.bd (decide (resp.trailers ≠ []))
  have both := first.trans second
  rw [← isSome_trailers, first.peerMaxFrameSize] at both
  refine ⟨carried.encoder, both.maxTableSize, ?_⟩
  have third : Moves sid 0 (if (responseMessage resp).trailers.isSome then
      headerFrames sid Flag.endStream connection.peerMaxFrameSize
        (carried.encoder.encode (copiedHeaders [] resp.trailers)).1 else []) carried
      (carried.sendTrailers sid resp.trailers) := by
    unfold sendTrailers
    rw [isSome_trailers]
    by_cases none : resp.trailers = []
    · rw [if_neg (not_not.mpr none), decide_eq_false (not_not.mpr none)]
      exact Moves.refl sid carried
    · rw [if_pos none, decide_eq_true none, ← both.peerMaxFrameSize]
      exact moves_sendHeaders carried sid _ _
  exact (both.trans third).andThen
    (moves_modifyStream _ sid _ (fun _ => rfl) fun _ => rfl)

theorem bare_requestMessage (req : Request) : (requestMessage req).bare = true ↔ req.bd = [] := by
  rw [Message.bare, Bool.and_eq_true, List.isEmpty_iff]
  exact and_iff_left rfl

/-- A request is sent as a message on the next stream. -/
theorem moves_doSubmitRequest (req : Request) (promise : Option PromiseRef) :
    Moves connection.nextStreamId 0
      (messageFrames connection.nextStreamId connection.peerMaxFrameSize (requestMessage req)
        (connection.encoder.encode (requestHeaders req)).1 [])
      { connection with nextStreamId := connection.nextStreamId + 2 }
      (connection.doSubmitRequest req promise false) := by
  set sid := connection.nextStreamId
  have flags : (if req.bd ≠ [] ∨ false = true then (0 : UInt8) else Flag.endStream) =
      if (requestMessage req).bare then Flag.endStream else 0 := by
    rw [if_congr (bare_requestMessage req) rfl rfl,
      if_congr (or_iff_left Bool.false_ne_true) rfl rfl, ite_not]
  unfold doSubmitRequest
  dsimp only
  rw [flags]
  set advanced : Connection := { connection with nextStreamId := sid + 2 }
  have opens := moves_setStream advanced sid
    { advanced.stream sid with streamId := sid, state := .opened, promise := promise } rfl rfl
  set opened := advanced.setStream sid
    { advanced.stream sid with streamId := sid, state := .opened, promise := promise }
  have first := moves_sendHeaders opened sid
    (if (requestMessage req).bare then Flag.endStream else 0) (requestHeaders req)
  have second := moves_sendBody (opened.sendHeaders sid
    (if (requestMessage req).bare then Flag.endStream else 0) (requestHeaders req)) sid req.bd false
  have all := opens.before (first.trans second)
  have frames : messageFrames sid connection.peerMaxFrameSize (requestMessage req)
      (connection.encoder.encode (requestHeaders req)).1 [] =
        headerFrames sid (if (requestMessage req).bare then Flag.endStream else 0)
          connection.peerMaxFrameSize (connection.encoder.encode (requestHeaders req)).1 ++
        bodyFrames sid false connection.peerMaxFrameSize req.bd := List.append_nil _
  rw [frames]
  exact all

/-- The stream of a request that has been submitted. -/
theorem view_doSubmitRequest (req : Request) (promise : Option PromiseRef)
    (absent : connection.view connection.nextStreamId = none) :
    (connection.doSubmitRequest req promise false).view connection.nextStreamId =
      some { streamId := connection.nextStreamId, state := .opened, promise := promise,
             sendWindow := 0, recvWindow := 0 } := by
  set sid := connection.nextStreamId
  have new : connection.stream sid = {} := by
    rw [stream, (view_eq_none connection sid).mp absent]
    rfl
  have streams : (connection.doSubmitRequest req promise false).streams sid =
      some { connection.stream sid with
        streamId := sid, state := .opened, promise := promise } := by
    unfold doSubmitRequest sendBody
    dsimp only
    split <;> exact if_pos rfl
  rw [view, streams, new]
  rfl

end Messages

end Connection

end AsyncNet.Http
