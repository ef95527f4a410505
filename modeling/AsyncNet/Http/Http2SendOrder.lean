/-
This file is about the order of the frames that a session sends on a stream. The frame
with END_STREAM is the last one of the messages on a stream, but for the CONTINUATION
frames that complete it. A response ends its stream, so what is sent is in order as long
as no stream is answered twice. Whether PUSH_PROMISE may be sent on a stream that has
ended is a parameter: a session sends the promises of a request after its response.
-/

import AsyncNet.Http.Http2PlainDeeds
import AsyncNet.Http.Http2History

namespace AsyncNet.Http

open Library H2

/-! ### Streams that end -/

/-- How far what is sent on a stream has come: it has not ended, it ends with a header block that is
not complete yet, or it has ended. -/
inductive SendPhase where
  | opened | ending | ended
  deriving DecidableEq, Repr

namespace SendPhase

/-- The phase that the end of a header block leads to. -/
def afterBlock : SendPhase → SendPhase
  | .opened => .opened
  | .ending => .ended
  | .ended => .ended

/-- What a frame of a type and with these flags makes of its stream. -/
def after (phase : SendPhase) (type : FrameType) (endStream endHeaders : Bool) : SendPhase :=
  match type with
  | .data => if endStream then .ended else phase
  | .headers => if endStream then if endHeaders then .ended else .ending else phase
  | .continuation => if endHeaders then phase.afterBlock else phase
  | _ => phase

section Phases

variable (pushes : Bool) (sid : Nat)

/-- What a frame makes of a stream. -/
def next (phase : SendPhase) (f : Frame) : SendPhase :=
  if f.hdr.streamId = sid then
    phase.after f.hdr.type (f.hdr.hasFlag Flag.endStream) (f.hdr.hasFlag Flag.endHeaders)
  else phase

/-- A frame can be sent: those of a message before its end, and those that complete the header block
it ends with. -/
def Permits (phase : SendPhase) (f : Frame) : Prop :=
  f.hdr.streamId = sid →
    match f.hdr.type with
    | .data => phase = .opened
    | .headers => phase = .opened
    | .continuation => phase ≠ .ended
    | .pushPromise => pushes = true ∨ phase = .opened
    | _ => True

instance (phase : SendPhase) (f : Frame) : Decidable (Permits pushes sid phase f) := by
  unfold Permits
  exact match f.hdr.type with
    | .data => inferInstance
    | .headers => inferInstance
    | .continuation => inferInstance
    | .pushPromise => inferInstance
    | .priority | .rstStream | .settings | .ping | .goaway | .windowUpdate | .unknown _ =>
        inferInstance

/-- Frames can be sent one after another, and take a stream from a phase to another. -/
structure Leads (start : SendPhase) (frames : List Frame) (finish : SendPhase) : Prop where
  permitted : Throughout (next sid) (Permits pushes sid) start frames
  phase : frames.foldl (next sid) start = finish

end Phases

/-- On no stream is a frame of a message sent after the end of the stream. -/
def Orderly (pushes : Bool) (frames : List Frame) : Prop :=
  ∀ sid, Throughout (next sid) (Permits pushes sid) .opened frames

theorem not_orderly {pushes : Bool} {frames : List Frame} (sid : Nat)
    (violated : ¬ Throughout (next sid) (Permits pushes sid) .opened frames) :
    ¬ Orderly pushes frames := fun orderly => violated (orderly sid)

section Leads

variable {pushes : Bool} {sid : Nat}

theorem Leads.nil (phase : SendPhase) : Leads pushes sid phase [] phase := ⟨trivial, rfl⟩

theorem Leads.append {start middle finish : SendPhase} {frames more : List Frame}
    (left : Leads pushes sid start frames middle) (right : Leads pushes sid middle more finish) :
    Leads pushes sid start (frames ++ more) finish := by
  refine ⟨(throughout_append frames more start).mpr ⟨left.permitted, ?_⟩, ?_⟩
  · rw [left.phase]
    exact right.permitted
  · rw [List.foldl_append, left.phase]
    exact right.phase

theorem Leads.cons {start middle finish : SendPhase} {f : Frame} {more : List Frame}
    (first : Leads pushes sid start [f] middle) (right : Leads pushes sid middle more finish) :
    Leads pushes sid start (f :: more) finish := first.append right

/-- Frames that neither need anything of a stream nor change it. -/
theorem leads_of_neutral (phase : SendPhase) (frames : List Frame)
    (neutral : ∀ f ∈ frames, Permits pushes sid phase f ∧ next sid phase f = phase) :
    Leads pushes sid phase frames phase := by
  induction frames with
  | nil => exact Leads.nil phase
  | cons f frames inductionHypothesis =>
    obtain ⟨⟨permits, same⟩, later⟩ := List.forall_mem_cons.mp neutral
    exact Leads.cons ⟨⟨permits, trivial⟩, same⟩ (inductionHypothesis later)

/-- Frames on other streams. -/
theorem leads_other (phase : SendPhase) (frames : List Frame)
    (others : ∀ f ∈ frames, f.hdr.streamId ≠ sid) : Leads pushes sid phase frames phase :=
  leads_of_neutral phase frames fun f member =>
    ⟨fun same => absurd same (others f member), if_neg (others f member)⟩

end Leads

/-- The frames that belong to no message. -/
def Aside (f : Frame) : Prop :=
  f.hdr.type ≠ .data ∧ f.hdr.type ≠ .headers ∧ f.hdr.type ≠ .continuation ∧
    f.hdr.type ≠ .pushPromise

theorem leads_aside {pushes : Bool} {sid : Nat} (phase : SendPhase) (frames : List Frame)
    (asides : ∀ f ∈ frames, Aside f) : Leads pushes sid phase frames phase := by
  refine leads_of_neutral phase frames fun f member => ?_
  obtain ⟨notData, notHeaders, notContinuation, notPromise⟩ := asides f member
  unfold Permits next
  cases type : f.hdr.type with
  | data => exact absurd type notData
  | headers => exact absurd type notHeaders
  | continuation => exact absurd type notContinuation
  | pushPromise => exact absurd type notPromise
  | _ => exact ⟨fun _ => trivial, ite_self phase⟩

/-! ### The frames of a message -/

section Messages

variable (pushes : Bool) (sid size : Nat)

/-- One frame of a message. -/
theorem leads_ofPayload (phase : SendPhase) (type : FrameType) (flags : UInt8) (payload : Bytes)
    (permits : Permits pushes sid phase (.ofPayload type flags sid payload)) :
    Leads pushes sid phase [.ofPayload type flags sid payload]
      (phase.after type (flags &&& Flag.endStream != 0) (flags &&& Flag.endHeaders != 0)) :=
  ⟨⟨permits, trivial⟩, if_pos rfl⟩

theorem leads_continuation (phase : SendPhase) (going : phase ≠ .ended) (payload : Bytes) :
    Leads pushes sid phase [.ofPayload .continuation 0 sid payload] phase :=
  leads_ofPayload pushes sid phase .continuation 0 payload fun _ => going

theorem leads_continuation_last (phase : SendPhase) (going : phase ≠ .ended) (payload : Bytes) :
    Leads pushes sid phase [.ofPayload .continuation Flag.endHeaders sid payload]
      phase.afterBlock :=
  leads_ofPayload pushes sid phase .continuation Flag.endHeaders payload fun _ => going

/-- The frames that something is cut into: all but the last one leave the phase as it is. -/
theorem leads_splitInto {type : FrameType} {lastFlags : UInt8} {start finish : SendPhase}
    (inner : ∀ payload, Leads pushes sid start [.ofPayload type 0 sid payload] start)
    (last : ∀ payload, Leads pushes sid start [.ofPayload type lastFlags sid payload] finish)
    (positive : 0 < size) (count : Nat) (rest : Bytes) (nonempty : rest ≠ [])
    (enough : rest.length ≤ count) :
    Leads pushes sid start (splitInto type lastFlags sid size count rest) finish := by
  induction count generalizing rest with
  | zero => exact absurd (List.length_eq_zero_iff.mp (Nat.le_zero.mp enough)) nonempty
  | succ count inductionHypothesis =>
    unfold splitInto
    rw [if_neg nonempty]
    by_cases done : rest.drop size = []
    · have none : splitInto type lastFlags sid size count [] = [] := by cases count <;> rfl
      rw [done, if_pos rfl, none]
      exact last _
    · rw [if_neg done]
      refine (inner _).cons (inductionHypothesis (rest.drop size) done ?_)
      rw [List.length_drop]
      omega

/-- The header blocks of a message: the last one ends the stream. -/
theorem leads_headerFrames (flags : UInt8) (positive : 0 < size) (block : Bytes)
    (known : flags = 0 ∨ flags = Flag.endStream) :
    Leads pushes sid .opened (headerFrames sid flags size block)
      (if flags = 0 then .opened else .ended) := by
  have whole (payload : Bytes) := leads_ofPayload pushes sid .opened .headers
    (flags ||| Flag.endHeaders)
    payload fun _ => rfl
  have first (payload : Bytes) := leads_ofPayload pushes sid .opened .headers flags payload
    fun _ => rfl
  have others (phase : SendPhase) (going : phase ≠ .ended) (long : ¬ block.length ≤ size) :
      Leads pushes sid phase
        (splitInto .continuation Flag.endHeaders sid size block.length (block.drop size))
        phase.afterBlock := by
    refine leads_splitInto pushes sid size (leads_continuation pushes sid phase going)
      (leads_continuation_last pushes sid phase going) positive _ _ ?_ ?_
    · rw [Ne, List.drop_eq_nil_iff]
      exact long
    · rw [List.length_drop]
      exact Nat.sub_le _ _
  unfold headerFrames
  rcases known with rfl | rfl
  · split
    · exact whole block
    · rename_i long
      exact (first _).cons (others .opened (by decide) long)
  · split
    · exact whole block
    · rename_i long
      exact (first _).cons (others .ending (by decide) long)

/-- A body: it ends the stream unless trailers follow. -/
theorem leads_bodyFrames (noEndStream : Bool) (positive : 0 < size) (body : Bytes)
    (nonempty : body ≠ []) :
    Leads pushes sid .opened (bodyFrames sid noEndStream size body)
      (if noEndStream then .opened else .ended) := by
  have inner (payload : Bytes) :=
    leads_ofPayload pushes sid .opened .data 0 payload fun _ => rfl
  have last (payload : Bytes) :=
    leads_ofPayload pushes sid .opened .data Flag.endStream payload fun _ => rfl
  unfold bodyFrames
  cases noEndStream with
  | false => exact leads_splitInto pushes sid size inner last positive _ body nonempty le_rfl
  | true => exact leads_splitInto pushes sid size inner inner positive _ body nonempty le_rfl

theorem streamId_splitInto (type : FrameType) (lastFlags : UInt8) (count : Nat) (rest : Bytes) :
    ∀ f ∈ splitInto type lastFlags sid size count rest, f.hdr.streamId = sid := by
  intro f member
  obtain ⟨flags, piece, -, rfl⟩ := mem_splitInto _ _ _ _ _ _ member
  rfl

theorem streamId_headerFrames (flags : UInt8) (block : Bytes) :
    ∀ f ∈ headerFrames sid flags size block, f.hdr.streamId = sid := by
  intro f member
  obtain ⟨type, flags, piece, -, -, rfl⟩ := mem_headerFrames _ _ _ _ member
  rfl

end Messages

end SendPhase

/-! ### Responses -/

namespace Account

section Sending

variable (account : Account) (sid : Nat)

theorem frames_sendHeaders (flags : UInt8) (headers : Headers) :
    (account.sendHeaders sid flags headers).frames = account.frames ++
      headerFrames sid flags account.maxFrameSize (account.encoder.encode headers).1 :=
  frames_enqueue { account with encoder := _ } _

theorem frames_sendBody (body : Bytes) (noEndStream : Bool) :
    (account.sendBody sid body noEndStream).frames = account.frames ++
      bodyFrames sid noEndStream account.maxFrameSize body :=
  frames_enqueue (account.modifyStream sid _) _

theorem nextPushStreamId_submitResponse (resp : Response) :
    (account.submitResponse sid resp).nextPushStreamId = account.nextPushStreamId := by
  unfold submitResponse sendTrailers
  dsimp only
  split <;> rfl

/-- Frames are sent on one stream, which they take from a phase to another. -/
def Leads (start finish : SendPhase) (before after : Account) : Prop :=
  ∃ frames, after.frames = before.frames ++ frames ∧
    (∀ pushes, SendPhase.Leads pushes sid start frames finish) ∧
    ∀ f ∈ frames, f.hdr.streamId = sid

variable {sid}

theorem Leads.trans {start middle finish : SendPhase} {first second third : Account}
    (left : Leads sid start middle first second) (right : Leads sid middle finish second third) :
    Leads sid start finish first third := by
  obtain ⟨frames, added, leads, on⟩ := left
  obtain ⟨more, added', leads', on'⟩ := right
  refine ⟨frames ++ more, ?_, fun pushes => (leads pushes).append (leads' pushes),
    List.forall_mem_append.mpr ⟨on, on'⟩⟩
  rw [added', added, List.append_assoc]

theorem Leads.of_eq {before after : Account} (phase : SendPhase)
    (same : after.frames = before.frames) : Leads sid phase phase before after :=
  ⟨[], same.trans (List.append_nil _).symm, fun _ => SendPhase.Leads.nil phase,
    fun _ member => absurd member List.not_mem_nil⟩

variable (sid)

theorem leads_sendHeaders (headers : Headers) (positive : 0 < account.maxFrameSize) :
    Leads sid .opened .opened account (account.sendHeaders sid 0 headers) :=
  ⟨_, frames_sendHeaders account sid 0 headers,
    fun pushes => SendPhase.leads_headerFrames pushes sid _ 0 positive _ (Or.inl rfl),
    SendPhase.streamId_headerFrames sid _ 0 _⟩

theorem leads_sendHeaders_end (headers : Headers) (positive : 0 < account.maxFrameSize) :
    Leads sid .opened .ended account (account.sendHeaders sid Flag.endStream headers) :=
  ⟨_, frames_sendHeaders account sid Flag.endStream headers,
    fun pushes => SendPhase.leads_headerFrames pushes sid _ _ positive _ (Or.inr rfl),
    SendPhase.streamId_headerFrames sid _ _ _⟩

theorem frames_sendBody_nil (noEndStream : Bool) :
    (account.sendBody sid [] noEndStream).frames = account.frames :=
  (frames_sendBody account sid [] noEndStream).trans (List.append_nil _)

/-- A body that is not empty ends the stream, unless trailers follow. -/
theorem leads_sendBody (body : Bytes) (noEndStream : Bool) (positive : 0 < account.maxFrameSize)
    (nonempty : body ≠ []) :
    Leads sid .opened (if noEndStream then .opened else .ended) account
      (account.sendBody sid body noEndStream) :=
  ⟨_, frames_sendBody account sid body noEndStream,
    fun pushes => SendPhase.leads_bodyFrames pushes sid _ noEndStream positive body nonempty,
    SendPhase.streamId_splitInto sid _ _ _ _ _⟩

/-- A response ends its stream. -/
theorem leads_submitResponse (resp : Response) (positive : 0 < account.maxFrameSize) :
    Leads sid .opened .ended account (account.submitResponse sid resp) := by
  have headers := leads_sendHeaders account sid (Connection.responseHeaders resp) positive
  have headersEnd := leads_sendHeaders_end account sid (Connection.responseHeaders resp) positive
  unfold submitResponse sendTrailers
  dsimp only
  by_cases trailers : resp.trailers = []
  · rw [trailers, if_neg (not_not.mpr rfl)]
    by_cases empty : resp.bd = []
    · rw [empty, if_neg (not_or.mpr ⟨not_not.mpr rfl, not_not.mpr rfl⟩)]
      exact headersEnd.trans (Leads.of_eq .ended (frames_sendBody_nil _ sid _))
    · rw [if_pos (Or.inl empty)]
      exact headers.trans (leads_sendBody _ sid resp.bd false positive empty)
  · rw [if_pos (Or.inr trailers), if_pos trailers]
    have body : Leads sid .opened .opened
        (account.sendHeaders sid 0 (Connection.responseHeaders resp))
        ((account.sendHeaders sid 0 (Connection.responseHeaders resp)).sendBody sid resp.bd
          (decide (resp.trailers ≠ []))) := by
      rw [decide_eq_true trailers]
      by_cases empty : resp.bd = []
      · rw [empty]
        exact Leads.of_eq .opened (frames_sendBody_nil _ sid true)
      · exact leads_sendBody _ sid resp.bd true positive empty
    exact (headers.trans body).trans (leads_sendHeaders_end _ sid _ positive)

end Sending

end Account

/-! ### Deeds that send whole messages -/

/-- A call that sends nothing or messages as a whole. -/
def Command.Whole : Command → Prop
  | .submitResponseHeaders _ _ => False
  | .submitData _ _ _ => False
  | .submitTrailers _ _ => False
  | .submitRequest _ _ _ => False
  | _ => True

def Deed.Whole : Deed → Prop
  | .call command => command.Whole
  | _ => True

/-- The streams that are answered. -/
def answersOf (deeds : List Deed) : List Nat :=
  deeds.filterMap fun deed =>
    match deed with
    | .call (.submitResponse sid _) => some sid
    | _ => none

theorem answersOf_append (deeds more : List Deed) :
    answersOf (deeds ++ more) = answersOf deeds ++ answersOf more := List.filterMap_append

namespace Account

def phase (account : Account) (sid : Nat) : SendPhase :=
  account.frames.foldl (SendPhase.next sid) .opened

/-- A stream has been promised. -/
def Promised (account : Account) (sid : Nat) : Prop :=
  sid ≠ 0 ∧ sid % 2 = 0 ∧ sid < account.nextPushStreamId

/-- What has been sent is in order, and no stream has ended but those that were answered or
promised. -/
structure InOrder (account : Account) (answered : List Nat) : Prop where
  orderly : SendPhase.Orderly true account.frames
  opened : ∀ sid, sid ∉ answered → ¬ account.Promised sid → account.phase sid = .opened
  even : account.nextPushStreamId ≠ 0 ∧ account.nextPushStreamId % 2 = 0

section Order

variable {account after : Account} {answered : List Nat}

theorem orderly_append {frames more : List Frame} (orderly : SendPhase.Orderly true frames)
    (leads : ∀ sid, ∃ finish, SendPhase.Leads true sid
      (frames.foldl (SendPhase.next sid) .opened) more finish) :
    SendPhase.Orderly true (frames ++ more) := by
  intro sid
  obtain ⟨finish, leads⟩ := leads sid
  exact (throughout_append frames more SendPhase.opened).mpr ⟨orderly sid, leads.permitted⟩

/-- Frames that change no stream. -/
theorem InOrder.neutral (inOrder : account.InOrder answered) {frames : List Frame}
    (added : after.frames = account.frames ++ frames)
    (neutral : ∀ sid phase, SendPhase.Leads true sid phase frames phase)
    (promises : after.nextPushStreamId = account.nextPushStreamId) : after.InOrder answered := by
  refine ⟨?_, fun sid unanswered unpromised => ?_, promises ▸ inOrder.even⟩
  · rw [added]
    exact orderly_append inOrder.orderly fun sid => ⟨_, neutral sid _⟩
  · unfold Promised at unpromised
    rw [promises] at unpromised
    rw [phase, added, List.foldl_append, (neutral sid _).phase]
    exact inOrder.opened sid unanswered unpromised

theorem InOrder.of_eq (inOrder : account.InOrder answered) (frames : after.frames = account.frames)
    (promises : after.nextPushStreamId = account.nextPushStreamId) : after.InOrder answered :=
  inOrder.neutral (frames.trans (List.append_nil _).symm) (fun _ phase => SendPhase.Leads.nil phase)
    promises

theorem InOrder.aside (inOrder : account.InOrder answered)
    (adds : Adds SendPhase.Aside account after)
    (promises : after.nextPushStreamId = account.nextPushStreamId) : after.InOrder answered := by
  obtain ⟨frames, added, asides⟩ := adds
  exact inOrder.neutral added (fun _ phase => SendPhase.leads_aside phase frames asides) promises

/-- The end of a stream that was open. -/
theorem Leads.ends {sid : Nat} (leads : Leads sid .opened .ended account after)
    (orderly : SendPhase.Orderly true account.frames) (going : account.phase sid = .opened) :
    SendPhase.Orderly true after.frames ∧
      ∀ other ≠ sid, after.phase other = account.phase other := by
  obtain ⟨frames, added, leads, on⟩ := leads
  have others (other : Nat) (different : other ≠ sid) :
      SendPhase.Leads true other (account.phase other) frames (account.phase other) :=
    SendPhase.leads_other _ frames fun f member same => different (same.symm.trans (on f member))
  refine ⟨?_, fun other different => ?_⟩
  · rw [added]
    refine orderly_append orderly fun other => ?_
    by_cases same : other = sid
    · subst same
      refine ⟨.ended, ?_⟩
      rw [phase] at going
      rw [going]
      exact leads true
    · exact ⟨_, others other same⟩
  · rw [phase, added, List.foldl_append]
    exact (others other different).phase

end Order

section Deeds

variable (account : Account) (answered : List Nat)

/-- A stream that is neither answered nor promised can be answered. -/
theorem inOrder_submitResponse (sid : Nat) (resp : Response) (sound : account.Sound)
    (inOrder : account.InOrder answered) (unanswered : sid ∉ answered)
    (unpromised : ¬ account.Promised sid) :
    (account.submitResponse sid resp).InOrder (answered ++ [sid]) := by
  have promises := nextPushStreamId_submitResponse account sid resp
  obtain ⟨orderly, others⟩ := (leads_submitResponse account sid resp sound.positive).ends
    inOrder.orderly (inOrder.opened sid unanswered unpromised)
  refine ⟨orderly, fun other notIn notPromised => ?_, promises ▸ inOrder.even⟩
  obtain ⟨before, notLast⟩ := not_or.mp (List.mem_append.not.mp notIn)
  unfold Promised at notPromised
  rw [promises] at notPromised
  rw [others other (List.mem_singleton.not.mp notLast)]
  exact inOrder.opened other before notPromised

/-- A promise goes out on any stream, and the stream it promises ends with its response. -/
theorem inOrder_submitPush (parent : Nat) (req : Request) (resp : Response) (sound : account.Sound)
    (inOrder : account.InOrder answered)
    (unanswered : ∀ sid ∈ answered, ¬ (account.submitPush parent req resp).Promised sid) :
    (account.submitPush parent req resp).InOrder answered := by
  cases enabled : account.enablePush with
  | false =>
    rw [submitPush_of_disabled account parent req resp enabled]
    exact inOrder
  | true =>
    rw [submitPush_of_enabled account parent req resp enabled] at unanswered ⊢
    set announced := account.announce parent req
    set promised := account.nextPushStreamId
    have promises : (announced.submitResponse promised resp).nextPushStreamId = promised + 2 :=
      nextPushStreamId_submitResponse announced promised resp
    have neutral (sid : Nat) (phase : SendPhase) : SendPhase.Leads true sid phase
        [pushPromiseFrame parent promised
          (account.encoder.encode (Connection.requestHeaders req)).1] phase :=
      SendPhase.leads_of_neutral phase _ (List.forall_mem_singleton.mpr
        ⟨fun _ => Or.inl rfl, ite_self phase⟩)
    have still : { announced with nextPushStreamId := promised }.InOrder answered :=
      inOrder.neutral (frames_enqueue { account with .. } _) neutral rfl
    have going : announced.phase promised = .opened := by
      refine still.opened promised (fun member => unanswered promised member ?_)
        fun isPromised => ?_
      · refine ⟨inOrder.even.1, inOrder.even.2, ?_⟩
        rw [promises]
        exact Nat.lt_add_of_pos_right Nat.two_pos
      · exact lt_irrefl _ isPromised.2.2
    obtain ⟨orderly, others⟩ := (leads_submitResponse announced promised resp sound.positive).ends
      still.orderly going
    refine ⟨orderly, fun sid notIn notPromised => ?_, ?_⟩
    · have different : sid ≠ promised := by
        rintro rfl
        refine notPromised ⟨inOrder.even.1, inOrder.even.2, ?_⟩
        rw [promises]
        exact Nat.lt_add_of_pos_right Nat.two_pos
      rw [others sid different]
      refine still.opened sid notIn fun isPromised => notPromised ?_
      refine ⟨isPromised.1, isPromised.2.1, ?_⟩
      rw [promises]
      exact isPromised.2.2.trans (Nat.lt_add_of_pos_right Nat.two_pos)
    · rw [promises]
      exact ⟨Nat.succ_ne_zero _, (Nat.add_mod_right promised 2).trans inOrder.even.2⟩

theorem aside_control (control : Control) :
    Adds SendPhase.Aside account (account.control control) := by
  have aside : SendPhase.Aside control.frame := by
    cases control <;> exact ⟨nofun, nofun, nofun, nofun⟩
  have adds := adds_enqueue account [control.frame] (List.forall_mem_singleton.mpr aside)
  cases control <;> exact adds

theorem aside_addCredit (sid increment : Nat) :
    Adds SendPhase.Aside account (account.addCredit sid increment) ∧
      (account.addCredit sid increment).nextPushStreamId = account.nextPushStreamId := by
  obtain ⟨_, replies, are, credited⟩ := addCredit_eq account sid increment
  have aside : ∀ f ∈ replies, SendPhase.Aside f := by
    intro f member
    rw [are f member]
    exact ⟨nofun, nofun, nofun, nofun⟩
  rw [credited]
  exact ⟨adds_enqueue (account.recordCredit sid increment) replies aside, rfl⟩

theorem nextPushStreamId_setting (entry : SettingEntry) :
    (account.setting entry).nextPushStreamId = account.nextPushStreamId := by
  obtain ⟨_, _, _, _, _, changed⟩ := setting_eq account entry
  rw [changed]

variable {account answered}

theorem inOrder_call (command : Command) (sound : account.Sound)
    (inOrder : account.InOrder answered) (whole : command.Whole)
    (nodup : (answered ++ answersOf [.call command]).Nodup)
    (apart : ∀ sid ∈ answered ++ answersOf [.call command],
      ¬ (account.call command).Promised sid) :
    (account.call command).InOrder (answered ++ answersOf [.call command]) := by
  have silent {after : Account} (frames : after.frames = account.frames)
      (promises : after.nextPushStreamId = account.nextPushStreamId) :
      after.InOrder (answered ++ []) := by
    rw [List.append_nil]
    exact inOrder.of_eq frames promises
  cases command with
  | submitResponse sid resp =>
    have unpromised := apart sid (List.mem_append_right answered (List.mem_singleton_self sid))
    unfold Promised at unpromised
    rw [show (account.call (.submitResponse sid resp)).nextPushStreamId = account.nextPushStreamId
      from nextPushStreamId_submitResponse account sid resp] at unpromised
    refine inOrder_submitResponse account answered sid resp sound inOrder (fun member => ?_)
      unpromised
    exact (List.nodup_append.mp nodup).2.2 sid member sid (List.mem_singleton_self sid) rfl
  | submitPush parent req resp =>
    have same : answered ++ answersOf [.call (.submitPush parent req resp)] = answered :=
      List.append_nil answered
    rw [same] at apart ⊢
    exact inOrder_submitPush account answered parent req resp sound inOrder apart
  | submitResponseHeaders sid resp => exact absurd whole id
  | submitData sid data endStream => exact absurd whole id
  | submitTrailers sid trailers => exact absurd whole id
  | submitRequest req promise noEndStream => exact absurd whole id
  | setDataCallback sid cb => exact silent rfl rfl
  | clearDataCallback sid => exact silent rfl rfl
  | getPendingOutput => exact silent rfl rfl
  | takeCompletedPromises => exact silent rfl rfl

theorem inOrder_act (deed : Deed) (sound : account.Sound) (inOrder : account.InOrder answered)
    (whole : deed.Whole) (nodup : (answered ++ answersOf [deed]).Nodup)
    (apart : ∀ sid ∈ answered ++ answersOf [deed], ¬ (account.act deed).Promised sid) :
    (account.act deed).InOrder (answered ++ answersOf [deed]) := by
  have silent {after : Account} (frames : after.frames = account.frames)
      (promises : after.nextPushStreamId = account.nextPushStreamId) :
      after.InOrder (answered ++ []) := by
    rw [List.append_nil]
    exact inOrder.of_eq frames promises
  have aside {after : Account} (adds : Adds SendPhase.Aside account after)
      (promises : after.nextPushStreamId = account.nextPushStreamId) :
      after.InOrder (answered ++ []) := by
    rw [List.append_nil]
    exact inOrder.aside adds promises
  cases deed with
  | call command => exact inOrder_call command sound inOrder whole nodup apart
  | control control =>
    refine aside (aside_control account control) ?_
    cases control <;> rfl
  | credit sid increment =>
    obtain ⟨adds, promises⟩ := aside_addCredit account sid increment
    exact aside adds promises
  | grant increment =>
    have grants := adds_enqueue account [windowUpdateFrame 0 increment]
      (List.forall_mem_singleton.mpr
        (show SendPhase.Aside _ from ⟨nofun, nofun, nofun, nofun⟩))
    exact aside grants rfl
  | setting entry =>
    exact silent (frames_setting account entry) (nextPushStreamId_setting account entry)
  | await ref => exact silent rfl rfl
  | halt => exact silent rfl rfl
  | enter sid => exact silent rfl rfl
  | leave sid => exact silent rfl rfl
  | charge length => exact silent rfl rfl
  | promise info => exact silent rfl rfl
  | complete ref resp => exact silent rfl rfl
  | fail ref => exact silent rfl rfl

theorem nextPushStreamId_submitPush (parent : Nat) (req : Request) (resp : Response) :
    (account.submitPush parent req resp).nextPushStreamId =
      if account.enablePush then account.nextPushStreamId + 2 else account.nextPushStreamId := by
  cases enabled : account.enablePush with
  | false => rw [submitPush_of_disabled account parent req resp enabled, if_neg Bool.false_ne_true]
  | true =>
    rw [submitPush_of_enabled account parent req resp enabled, if_pos rfl]
    exact nextPushStreamId_submitResponse (account.announce parent req) _ resp

/-- What has been promised stays so. -/
theorem nextPushStreamId_le_act (deed : Deed) :
    account.nextPushStreamId ≤ (account.act deed).nextPushStreamId := by
  cases deed with
  | call command =>
    cases command with
    | submitResponse sid resp => exact (nextPushStreamId_submitResponse account sid resp).ge
    | submitPush parent req resp =>
      refine le_of_le_of_eq ?_ (nextPushStreamId_submitPush parent req resp).symm
      split
      · exact Nat.le_add_right _ 2
      · exact le_rfl
    | _ => exact le_rfl
  | control control => cases control <;> exact le_rfl
  | credit sid increment => exact (aside_addCredit account sid increment).2.ge
  | setting entry => exact (nextPushStreamId_setting account entry).ge
  | _ => exact le_rfl

theorem inOrder_create (mode : Mode) : (create mode).InOrder [] := by
  have settings : SendPhase.Aside settingsFrame := ⟨nofun, nofun, nofun, nofun⟩
  have start : Account.InOrder {} [] :=
    ⟨fun _ => trivial, fun _ _ _ => rfl, Nat.succ_ne_zero 1, rfl⟩
  exact start.aside ⟨[settingsFrame], rfl, List.forall_mem_singleton.mpr settings⟩ rfl

/-- Whole messages are sent in order as long as no stream is answered twice and none that has been
promised is answered. -/
theorem inOrder_acts (mode : Mode) (deeds : List Deed) (whole : ∀ deed ∈ deeds, deed.Whole)
    (nodup : (answersOf deeds).Nodup)
    (apart : ∀ sid ∈ answersOf deeds, ¬ ((create mode).acts deeds).Promised sid) :
    ((create mode).acts deeds).InOrder (answersOf deeds) := by
  induction deeds using List.reverseRecOn with
  | nil => exact inOrder_create mode
  | append_singleton deeds deed inductionHypothesis =>
    have sound := sound_acts mode deeds
    obtain ⟨wholeBefore, wholeLast⟩ := List.forall_mem_append.mp whole
    rw [answersOf_append] at nodup apart ⊢
    rw [acts_append] at apart ⊢
    refine inOrder_act deed sound (inductionHypothesis wholeBefore ?_ ?_)
      (wholeLast deed (List.mem_singleton_self deed)) nodup apart
    · exact (List.nodup_append.mp nodup).1
    · rintro sid member ⟨nonzero, even, less⟩
      exact apart sid (List.mem_append_left _ member)
        ⟨nonzero, even, less.trans_le (nextPushStreamId_le_act deed)⟩

end Deeds

end Account

end AsyncNet.Http
