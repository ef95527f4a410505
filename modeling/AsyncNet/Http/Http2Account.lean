/-
This file keeps the account of a session: the frames that it has enqueued, each with the
limit on the size of a frame that was in force, the windows of flow control, and the
promises. An account is all that what a session sends depends on, and it knows neither
bytes nor handlers. It is changed by deeds: a call of the interface, whoever makes it, a
frame that the session sends on its own account, or the effect of a frame that arrives.
The next file shows that every step of a session is a list of deeds.
-/

import AsyncNet.Http.Http2FlowControl

namespace AsyncNet.Http

open H2

/-! ### Frames that are not part of a message -/

/-- The frames that a session sends on its own account, but for a window update of the
connection. -/
inductive Control where
  | settingsAck
  | ping (payload : Bytes)
  | reset (sid : Nat) (error : ErrorCode)
  | windowUpdate (sid increment : Nat)
  | goaway (lastStreamId : Nat) (error : ErrorCode) (debug : Bytes) (short : debug.length ≤ 64)

def Control.frame : Control → Frame
  | .settingsAck => AsyncNet.Http.settingsAck
  | .ping payload => .ofPayload .ping Flag.ack 0 (payload.take 8)
  | .reset sid error => .ofPayload .rstStream 0 sid (putUint32 error.toNat)
  | .windowUpdate sid increment => windowUpdateFrame sid increment
  | .goaway lastStreamId error debug _ =>
      .ofPayload .goaway 0 0 (putUint32 (lastStreamId % 2 ^ 31) ++ putUint32 error.toNat ++ debug)

def pushPromiseFrame (parent promised : Nat) (block : Bytes) : Frame :=
  .ofPayload .pushPromise Flag.endHeaders parent (putUint32 (promised % 2 ^ 31) ++ block)

/-! ### Accounts -/

/-- The send window of a stream, with the credit received and the data sent since the stream is
there, and whether the session has reset it. -/
structure StreamAccount where
  window : Int := 65535
  credit : Nat := 0
  sent : Nat := 0
  reset : Bool := false

/-- The account of a session. The credit received counts for every stream that a WINDOW_UPDATE
frame has named, and the promises are recorded as they are registered, completed and resumed. -/
structure Account where
  encoder : HpackEncoder := {}
  maxFrameSize : Nat := 16384
  enablePush : Bool := true
  initialWindow : Nat := 65535
  nextStreamId : Nat := 1
  nextPushStreamId : Nat := 2
  sendWindow : Int := 65535
  recvWindow : Int := 65535
  streams : Nat → Option StreamAccount := fun _ => none
  promises : PromiseRef → ResponsePromise := fun _ => {}
  completed : List PromiseRef := []
  nextPushPromise : Nat := 0
  alive : Bool := true
  enqueued : List (Nat × Frame) := []
  credit : Nat → Nat := fun _ => 0
  registered : List PromiseRef := []
  finished : List PromiseRef := []
  appended : List PromiseRef := []
  resumed : List PromiseRef := []

/-- What happens to an account. -/
inductive Deed where
  | call (command : Command)
  | await (ref : PromiseRef)
  | control (control : Control)
  | halt
  | enter (sid : Nat)
  | leave (sid : Nat)
  | credit (sid increment : Nat)
  | charge (length : Nat)
  | grant (increment : Nat)
  | setting (entry : SettingEntry)
  | promise (info : PushPromiseInfo)
  | complete (ref : PromiseRef) (resp : Response)
  | fail (ref : PromiseRef)

namespace Account

/-- The account of a new session. -/
def create (mode : Mode) : Account :=
  { nextStreamId := if mode = .server then 2 else 1
    enqueued := [(16384, settingsFrame)] }

/-- The frames that have been enqueued. -/
def frames (account : Account) : List Frame := account.enqueued.map Prod.snd

/-! ### Sending -/

def enqueue (account : Account) (frames : List Frame) : Account :=
  { account with
    enqueued := account.enqueued ++ frames.map fun f => (account.maxFrameSize, f) }

def modifyStream (account : Account) (sid : Nat) (change : StreamAccount → StreamAccount) :
    Account :=
  { account with
    streams := fun other =>
      if other = sid then (account.streams sid).map change else account.streams other }

/-- A stream that is not there yet starts with the default window. -/
def enter (account : Account) (sid : Nat) : Account :=
  { account with
    streams := fun other =>
      if other = sid then some ((account.streams sid).getD {}) else account.streams other }

def sendHeaders (account : Account) (sid : Nat) (flags : UInt8) (headers : Headers) : Account :=
  let (block, encoder) := account.encoder.encode headers
  { account with encoder }.enqueue (headerFrames sid flags account.maxFrameSize block)

/-- DATA frames are sent. -/
def sendData (account : Account) (sid : Nat) (frames : List Frame) : Account :=
  (account.modifyStream sid fun state =>
    { state with sent := state.sent + loads sid frames }).enqueue
    frames

def sendBody (account : Account) (sid : Nat) (body : Bytes) (noEndStream : Bool) : Account :=
  account.sendData sid (bodyFrames sid noEndStream account.maxFrameSize body)

def sendTrailers (account : Account) (sid : Nat) (trailers : Headers) : Account :=
  if trailers ≠ [] then
    account.sendHeaders sid Flag.endStream (Connection.copiedHeaders [] trailers)
  else account

def submitResponse (account : Account) (sid : Nat) (resp : Response) : Account :=
  let flags := if resp.bd ≠ [] ∨ resp.trailers ≠ [] then 0 else Flag.endStream
  let account := account.sendHeaders sid flags (Connection.responseHeaders resp)
  let account := account.sendBody sid resp.bd (resp.trailers ≠ [])
  account.sendTrailers sid resp.trailers

def submitResponseHeaders (account : Account) (sid : Nat) (resp : Response) : Account :=
  account.sendHeaders sid 0
    (Connection.responseStart resp ++ Connection.copiedHeaders Connection.responseSkips resp.hdrs)

/-- The frames of `do_submit_data`. -/
def dataFrames (sid size : Nat) (data : Bytes) (endStream : Bool) : List Frame :=
  let flags := if endStream then Flag.endStream else 0
  if data = [] then [.ofPayload .data flags sid []]
  else splitInto .data flags sid size data.length data

def submitData (account : Account) (sid : Nat) (data : Bytes) (endStream : Bool) : Account :=
  account.sendData sid (dataFrames sid account.maxFrameSize data endStream)

def submitTrailers (account : Account) (sid : Nat) (trailers : Headers) : Account :=
  account.sendHeaders sid Flag.endStream (Connection.copiedHeaders [] trailers)

def submitRequest (account : Account) (req : Request) (promise : Option PromiseRef)
    (noEndStream : Bool) : Account :=
  let sid := account.nextStreamId
  let account := { account with
    nextStreamId := sid + 2, registered := account.registered ++ promise.toList }
  let flags := if req.bd ≠ [] ∨ noEndStream then 0 else Flag.endStream
  ((account.enter sid).sendHeaders sid flags (Connection.requestHeaders req)).sendBody sid req.bd
    false

def submitPush (account : Account) (parent : Nat) (req : Request) (resp : Response) : Account :=
  if account.enablePush = false then account
  else
    let promised := account.nextPushStreamId
    let (block, encoder) := account.encoder.encode (Connection.requestHeaders req)
    let account := { account with nextPushStreamId := promised + 2, encoder }
    ((account.enqueue [pushPromiseFrame parent promised block]).enter promised).submitResponse
      promised resp

/-- A call of the interface. -/
def call (account : Account) : Command → Account
  | .setDataCallback _ _ => account
  | .clearDataCallback _ => account
  | .submitResponse sid resp => account.submitResponse sid resp
  | .submitResponseHeaders sid resp => account.submitResponseHeaders sid resp
  | .submitData sid data endStream => account.submitData sid data endStream
  | .submitTrailers sid trailers => account.submitTrailers sid trailers
  | .submitRequest req promise noEndStream => account.submitRequest req promise noEndStream
  | .submitPush parent req resp => account.submitPush parent req resp
  | .getPendingOutput => account
  | .takeCompletedPromises => { account with completed := [] }

/-! ### Deeds -/

/-- A frame that the session sends on its own account. -/
def control (account : Account) (control : Control) : Account :=
  let account := account.enqueue [control.frame]
  match control with
  | .reset sid _ => account.modifyStream sid fun state => { state with reset := true }
  | _ => account

/-- A setting of the peer is taken over, if it is valid. -/
def setting (account : Account) (entry : SettingEntry) : Account :=
  match entry.id with
  | .headerTableSize => { account with encoder := account.encoder.setMaxTableSize entry.value }
  | .initialWindowSize =>
      if maxWindowSize < entry.value then account
      else
        let delta := (entry.value : Int) - account.initialWindow
        { account with
          streams := fun sid => (account.streams sid).map fun state =>
            { state with window := state.window + delta }
          initialWindow := entry.value }
  | .maxFrameSize =>
      if entry.value < 16384 ∨ 16777215 < entry.value then account
      else { account with maxFrameSize := entry.value }
  | .enablePush => { account with enablePush := entry.value ≠ 0 }
  | _ => account

/-- A credit for a stream: a stream whose window becomes too large is reset. -/
def creditStream (account : Account) (sid increment : Nat) : Account :=
  match account.streams sid with
  | none => account
  | some state =>
      let account := account.modifyStream sid fun state =>
        { state with window := state.window + increment, credit := state.credit + increment }
      if (maxWindowSize : Int) < state.window + increment then
        account.control (.reset sid .flowControlError)
      else account

/-- A credit for the connection, which stream 0 stands for, or for a stream. -/
def addCredit (account : Account) (sid increment : Nat) : Account :=
  let account := { account with
    credit := fun scope =>
      if scope = sid then account.credit scope + increment else account.credit scope }
  if sid = 0 then { account with sendWindow := account.sendWindow + increment }
  else account.creditStream sid increment

def setPromise (account : Account) (ref : PromiseRef) (promise : ResponsePromise) : Account :=
  { account with
    promises := fun other => if other = ref then promise else account.promises other }

/-- A promise that is settled is handed on, and whoever waits for it is resumed. -/
def settlePromise (account : Account) (ref : PromiseRef) (promise : ResponsePromise) : Account :=
  let waiter := (account.promises ref).waiter
  let account := account.setPromise ref promise
  { account with
    completed := account.completed ++ [ref]
    appended := account.appended ++ [ref]
    resumed := account.resumed ++ if waiter then [ref] else [] }

/-- What a deed does. -/
def act (account : Account) : Deed → Account
  | .call command => account.call command
  | .await ref => account.setPromise ref { account.promises ref with waiter := true }
  | .control control => account.control control
  | .halt => { account with alive := false }
  | .enter sid => account.enter sid
  | .leave sid =>
      { account with
        streams := fun other => if other = sid then none else account.streams other }
  | .credit sid increment => account.addCredit sid increment
  | .charge length => { account with recvWindow := account.recvWindow - length }
  | .grant increment =>
      { account.enqueue [windowUpdateFrame 0 increment] with
        recvWindow := account.recvWindow + increment }
  | .setting entry => account.setting entry
  | .promise info =>
      { account.setPromise (.push account.nextPushPromise) { isPush := true, pushInfo := info } with
        nextPushPromise := account.nextPushPromise + 1 }
  | .complete ref resp =>
      let account := { account with finished := account.finished ++ [ref] }
      account.settlePromise ref { account.promises ref with resp, complete := true }
  | .fail ref =>
      account.settlePromise ref { account.promises ref with error := true, complete := true }

def acts (account : Account) (deeds : List Deed) : Account := deeds.foldl act account

theorem acts_append (account : Account) (deeds more : List Deed) :
    account.acts (deeds ++ more) = (account.acts deeds).acts more := List.foldl_append

/-! ### Streams of an account -/

section Streams

variable (account : Account) (sid : Nat)

@[simp] theorem streams_enqueue (frames : List Frame) :
    (account.enqueue frames).streams = account.streams := rfl

@[simp] theorem streams_modifyStream (change : StreamAccount → StreamAccount) :
    (account.modifyStream sid change).streams sid = (account.streams sid).map change := if_pos rfl

theorem streams_modifyStream_of_ne (change : StreamAccount → StreamAccount) (other : Nat)
    (different : other ≠ sid) :
    (account.modifyStream sid change).streams other = account.streams other := if_neg different

@[simp] theorem streams_enter :
    (account.enter sid).streams sid = some ((account.streams sid).getD {}) := if_pos rfl

theorem streams_enter_of_ne (other : Nat) (different : other ≠ sid) :
    (account.enter sid).streams other = account.streams other := if_neg different

@[simp] theorem frames_enqueue (frames : List Frame) :
    (account.enqueue frames).frames = account.frames ++ frames := by
  rw [Account.frames, enqueue, List.map_append, List.map_map]
  exact congrArg (account.frames ++ ·) (List.map_id frames)

end Streams

/-! ### Requests, credit and pushes -/

/-- The stream of a request is there, before anything is sent on it. -/
def beginRequest (account : Account) (promise : Option PromiseRef) : Account :=
  { account with
    nextStreamId := account.nextStreamId + 2
    registered := account.registered ++ promise.toList }.enter account.nextStreamId

/-- The credit received is recorded. -/
def recordCredit (account : Account) (sid increment : Nat) : Account :=
  { account with
    credit := fun scope =>
      if scope = sid then account.credit scope + increment else account.credit scope }

theorem addCredit_zero (account : Account) (increment : Nat) :
    account.addCredit 0 increment =
      { account.recordCredit 0 increment with sendWindow := account.sendWindow + increment } := by
  unfold addCredit
  rw [if_pos rfl]
  rfl

theorem addCredit_of_ne (account : Account) {sid : Nat} (increment : Nat) (nonzero : sid ≠ 0) :
    account.addCredit sid increment =
      (account.recordCredit sid increment).creditStream sid increment := by
  unfold addCredit
  rw [if_neg nonzero]
  rfl

section Pushes

variable (account : Account) (parent : Nat) (req : Request) (resp : Response)

/-- The promise of a push is sent and its stream is there. -/
def announce : Account :=
  let (block, encoder) := account.encoder.encode (Connection.requestHeaders req)
  { account with
    nextPushStreamId := account.nextPushStreamId + 2, encoder }.enqueue
      [pushPromiseFrame parent account.nextPushStreamId block] |>.enter account.nextPushStreamId

theorem submitPush_of_disabled (disabled : account.enablePush = false) :
    account.submitPush parent req resp = account := if_pos disabled

/-- A push is a promise and a response. -/
theorem submitPush_of_enabled (enabled : account.enablePush = true) :
    account.submitPush parent req resp =
      (account.announce parent req).submitResponse account.nextPushStreamId resp := by
  unfold submitPush
  rw [if_neg (Bool.eq_false_iff.not.mpr (not_not.mpr enabled))]
  rfl

end Pushes

/-! ### What sending leaves alone -/

/-- The later account differs from the earlier one at most in what it has sent, in its streams, and
in the promises that are registered and taken. -/
structure Sends (before after : Account) : Prop where
  maxFrameSize : after.maxFrameSize = before.maxFrameSize
  enablePush : after.enablePush = before.enablePush
  initialWindow : after.initialWindow = before.initialWindow
  sendWindow : after.sendWindow = before.sendWindow
  recvWindow : after.recvWindow = before.recvWindow
  promises : after.promises = before.promises
  nextPushPromise : after.nextPushPromise = before.nextPushPromise
  alive : after.alive = before.alive
  credit : after.credit = before.credit
  finished : after.finished = before.finished
  appended : after.appended = before.appended
  resumed : after.resumed = before.resumed

theorem Sends.refl (account : Account) : Sends account account :=
  ⟨rfl, rfl, rfl, rfl, rfl, rfl, rfl, rfl, rfl, rfl, rfl, rfl⟩

theorem Sends.trans {first second third : Account} (left : Sends first second)
    (right : Sends second third) : Sends first third where
  maxFrameSize := right.maxFrameSize.trans left.maxFrameSize
  enablePush := right.enablePush.trans left.enablePush
  initialWindow := right.initialWindow.trans left.initialWindow
  sendWindow := right.sendWindow.trans left.sendWindow
  recvWindow := right.recvWindow.trans left.recvWindow
  promises := right.promises.trans left.promises
  nextPushPromise := right.nextPushPromise.trans left.nextPushPromise
  alive := right.alive.trans left.alive
  credit := right.credit.trans left.credit
  finished := right.finished.trans left.finished
  appended := right.appended.trans left.appended
  resumed := right.resumed.trans left.resumed

section Sending

variable (account : Account)

theorem sends_sendHeaders (sid : Nat) (flags : UInt8) (headers : Headers) :
    Sends account (account.sendHeaders sid flags headers) := { Sends.refl account with }

theorem sends_sendBody (sid : Nat) (body : Bytes) (noEndStream : Bool) :
    Sends account (account.sendBody sid body noEndStream) := { Sends.refl account with }

theorem sends_sendTrailers (sid : Nat) (trailers : Headers) :
    Sends account (account.sendTrailers sid trailers) := by
  unfold sendTrailers
  split
  · exact sends_sendHeaders account sid _ _
  · exact Sends.refl account

theorem sends_submitResponse (sid : Nat) (resp : Response) :
    Sends account (account.submitResponse sid resp) :=
  ((sends_sendHeaders account sid _ _).trans (sends_sendBody _ sid _ _)).trans
    (sends_sendTrailers _ sid _)

theorem sends_submitRequest (req : Request) (promise : Option PromiseRef) (noEndStream : Bool) :
    Sends account (account.submitRequest req promise noEndStream) := { Sends.refl account with }

theorem sends_submitPush (parent : Nat) (req : Request) (resp : Response) :
    Sends account (account.submitPush parent req resp) := by
  cases enabled : account.enablePush with
  | false =>
    rw [submitPush_of_disabled account parent req resp enabled]
    exact Sends.refl account
  | true =>
    have announces : Sends account (account.announce parent req) := { Sends.refl account with }
    rw [submitPush_of_enabled account parent req resp enabled]
    exact announces.trans (sends_submitResponse _ _ resp)

theorem sends_call (command : Command) : Sends account (account.call command) := by
  cases command with
  | submitResponse sid resp => exact sends_submitResponse account sid resp
  | submitResponseHeaders sid resp => exact sends_sendHeaders account sid _ _
  | submitData sid data endStream => exact { Sends.refl account with }
  | submitTrailers sid trailers => exact sends_sendHeaders account sid _ _
  | submitRequest req promise noEndStream =>
    exact sends_submitRequest account req promise noEndStream
  | submitPush parent req resp => exact sends_submitPush account parent req resp
  | _ => exact { Sends.refl account with }

theorem sends_control (control : Control) : Sends account (account.control control) := by
  cases control with
  | _ => exact { Sends.refl account with }

theorem enqueue_nil : account.enqueue [] = account := by
  unfold enqueue
  rw [List.map_nil, List.append_nil]

/-- What credit for a stream changes: the stream, which may be reset. -/
theorem creditStream_eq (sid increment : Nat) :
    ∃ streams replies, (∀ f ∈ replies, f = (Control.reset sid .flowControlError).frame) ∧
      account.creditStream sid increment = { account.enqueue replies with streams } := by
  unfold creditStream
  cases account.streams sid with
  | none =>
    refine ⟨account.streams, [], nofun, ?_⟩
    rw [enqueue_nil]
  | some state =>
    have raised (change : StreamAccount → StreamAccount) : account.modifyStream sid change =
        { account.enqueue [] with streams := (account.modifyStream sid change).streams } := by
      rewrite [enqueue_nil]
      rfl
    dsimp only
    split
    · exact ⟨_, [_], fun f member => List.mem_singleton.mp member, rfl⟩
    · exact ⟨_, [], nofun, raised _⟩

/-- What credit changes: it is recorded, and it goes to the connection or to a stream. -/
theorem addCredit_eq (sid increment : Nat) :
    ∃ streams replies, (∀ f ∈ replies, f = (Control.reset sid .flowControlError).frame) ∧
      account.addCredit sid increment =
        { (account.recordCredit sid increment).enqueue replies with
          streams,
          sendWindow := account.sendWindow + if sid = 0 then (increment : Int) else 0 } := by
  by_cases zero : sid = 0
  · refine ⟨account.streams, [], nofun, ?_⟩
    rw [zero, addCredit_zero, if_pos rfl, enqueue_nil]
    rfl
  · obtain ⟨streams, replies, are, credited⟩ :=
      creditStream_eq (account.recordCredit sid increment) sid increment
    refine ⟨streams, replies, are, ?_⟩
    rw [addCredit_of_ne account increment zero, credited, if_neg zero, add_zero]
    rfl

/-- What a setting of the peer changes. -/
theorem setting_eq (entry : SettingEntry) :
    ∃ encoder streams initialWindow maxFrameSize enablePush,
      account.setting entry =
        { account with encoder, streams, initialWindow, maxFrameSize, enablePush } := by
  unfold setting
  split
  · exact ⟨_, _, _, _, _, rfl⟩
  · split
    · exact ⟨_, _, _, _, _, rfl⟩
    · exact ⟨_, _, _, _, _, rfl⟩
  · split
    · exact ⟨_, _, _, _, _, rfl⟩
    · exact ⟨_, _, _, _, _, rfl⟩
  · exact ⟨_, _, _, _, _, rfl⟩
  · exact ⟨_, _, _, _, _, rfl⟩

theorem frames_setting (entry : SettingEntry) :
    (account.setting entry).frames = account.frames := by
  obtain ⟨_, _, _, _, _, changed⟩ := setting_eq account entry
  rw [changed]
  rfl

end Sending

end Account

end AsyncNet.Http
