/-
This file tells apart the deeds that change the windows of the connection. Only the
frames of two types have such deeds: DATA lowers the receive window, and may be answered
with a window update, and WINDOW_UPDATE brings credit. The deeds of all other frames, and
the calls of the application, are plain. Settings of the peer are taken over for SETTINGS
alone: the plain deeds of the others are ordinary.
-/

import AsyncNet.Http.Http2History

namespace AsyncNet.Http

open Library H2

/-- A deed that brings no credit, grants none and lowers no window. -/
def Deed.Plain : Deed → Prop
  | .control (.windowUpdate _ _) => False
  | .credit _ _ => False
  | .charge _ => False
  | .grant _ => False
  | _ => True

/-- All of the deeds are plain. -/
def Plain (deeds : List Deed) : Prop := ∀ deed ∈ deeds, deed.Plain

theorem plain_nil : Plain [] := fun _ member => absurd member List.not_mem_nil

theorem plain_cons {deed : Deed} {deeds : List Deed} (first : deed.Plain) (later : Plain deeds) :
    Plain (deed :: deeds) := List.forall_mem_cons.mpr ⟨first, later⟩

theorem plain_singleton {deed : Deed} (only : deed.Plain) : Plain [deed] :=
  plain_cons only plain_nil

/-- A plain deed that takes over no setting either. -/
def Deed.Ordinary : Deed → Prop
  | .setting _ => False
  | deed => deed.Plain

/-- All of the deeds are ordinary. -/
def Ordinary (deeds : List Deed) : Prop := ∀ deed ∈ deeds, deed.Ordinary

theorem Ordinary.plain {deeds : List Deed} (ordinary : Ordinary deeds) : Plain deeds := by
  intro deed member
  have is := ordinary deed member
  cases deed with
  | setting entry => exact absurd is id
  | _ => exact is

theorem ordinary_nil : Ordinary [] := fun _ member => absurd member List.not_mem_nil

theorem ordinary_cons {deed : Deed} {deeds : List Deed} (first : deed.Ordinary)
    (later : Ordinary deeds) : Ordinary (deed :: deeds) := List.forall_mem_cons.mpr ⟨first, later⟩

theorem ordinary_singleton {deed : Deed} (only : deed.Ordinary) : Ordinary [deed] :=
  ordinary_cons only ordinary_nil

theorem ordinary_append {deeds more : List Deed} (left : Ordinary deeds) (right : Ordinary more) :
    Ordinary (deeds ++ more) := List.forall_mem_append.mpr ⟨left, right⟩

theorem ordinary_calls (commands : List Command) : Ordinary (commands.map .call) := by
  intro deed member
  obtain ⟨command, _, rfl⟩ := List.mem_map.mp member
  trivial

namespace Connection

/-! ### The deeds of the handlers -/

section Handlers

variable (config : Config) (connection : Connection) (sid : Nat)

theorem ordinary_streamingDeeds : Ordinary (streamingDeeds config connection sid) := by
  unfold streamingDeeds
  cases config.streamingRequestHandler with
  | none => exact ordinary_nil
  | some handler => exact ordinary_calls _

theorem ordinary_pushDeeds : Ordinary (pushDeeds config connection sid) := by
  unfold pushDeeds
  cases config.pushProvider with
  | none => exact ordinary_nil
  | some provider =>
    dsimp only
    split
    · intro deed member
      obtain ⟨push, _, rfl⟩ := List.mem_map.mp member
      trivial
    · exact ordinary_nil

theorem ordinary_answerDeeds : Ordinary (answerDeeds config connection sid) := by
  unfold answerDeeds
  cases config.requestHandler with
  | none => exact ordinary_singleton trivial
  | some handler => exact ordinary_cons trivial (ordinary_pushDeeds config connection sid)

theorem ordinary_dispatchDeeds : Ordinary (dispatchDeeds config connection sid) := by
  unfold dispatchDeeds
  refine ordinary_append (ordinary_streamingDeeds config _ sid) ?_
  dsimp only
  split
  · exact ordinary_nil
  · exact ordinary_answerDeeds config _ sid

theorem ordinary_completeDeeds : Ordinary (completeDeeds connection sid) := by
  unfold completeDeeds
  cases (connection.stream sid).promise with
  | none => exact ordinary_nil
  | some ref => exact ordinary_singleton trivial

theorem ordinary_goawayDeeds (error : ErrorCode) (debug : Bytes) (short : debug.length ≤ 64) :
    Ordinary (goawayDeeds connection error debug short) := ordinary_cons trivial (ordinary_singleton trivial)

theorem ordinary_deliverDeeds (state : StreamState) (data : Bytes) (endStream : Bool) :
    Ordinary (deliverDeeds sid state data endStream) := by
  unfold deliverDeeds
  cases state.dataCb with
  | none => exact ordinary_nil
  | some cb => exact ordinary_calls _

theorem ordinary_endDataDeeds : Ordinary (endDataDeeds config connection sid) := by
  unfold endDataDeeds
  dsimp only
  split
  · split
    · exact ordinary_nil
    · exact ordinary_dispatchDeeds config _ sid
  · exact ordinary_completeDeeds _ sid

theorem ordinary_applyHeadersDeeds (headers : Headers) (endStream : Bool) :
    Ordinary (applyHeadersDeeds config connection sid headers endStream) := by
  unfold applyHeadersDeeds
  dsimp only
  split
  · cases config.requestStartHandler with
    | none => exact ordinary_dispatchDeeds config _ sid
    | some handler =>
      refine ordinary_append (ordinary_calls _) ?_
      split
      · exact ordinary_nil
      · exact ordinary_dispatchDeeds config _ sid
  · cases config.requestStartHandler with
    | none => exact ordinary_nil
    | some handler => exact ordinary_calls _

theorem ordinary_applyResponseDeeds (headers : Headers) (endStream : Bool) :
    Ordinary (applyResponseDeeds connection sid headers endStream) := by
  unfold applyResponseDeeds
  split
  · exact ordinary_completeDeeds _ sid
  · exact ordinary_nil

theorem ordinary_blockDeeds (block : Bytes) (deeds : Connection → Headers → List Deed)
    (ordinary : ∀ decoded headers, Ordinary (deeds decoded headers)) :
    Ordinary (connection.blockDeeds block deeds) := by
  unfold blockDeeds
  split
  · exact ordinary_nil
  · exact ordinary _ _

theorem ordinary_endStreamingDeeds : Ordinary (endStreamingDeeds connection sid) := by
  unfold endStreamingDeeds
  cases (connection.stream sid).dataCb with
  | none => exact ordinary_nil
  | some cb => exact ordinary_calls _

theorem ordinary_handleRequestHeadersDeeds (block : Bytes) (endHeaders endStream : Bool) :
    Ordinary (handleRequestHeadersDeeds config connection sid block endHeaders endStream) := by
  unfold handleRequestHeadersDeeds
  split
  · exact ordinary_endStreamingDeeds connection sid
  · refine ordinary_cons trivial ?_
    split
    · exact ordinary_blockDeeds _ block _ fun decoded headers =>
        ordinary_applyHeadersDeeds config decoded sid headers endStream
    · exact ordinary_nil

theorem ordinary_handleResponseHeadersDeeds (block : Bytes) (endHeaders endStream : Bool) :
    Ordinary (handleResponseHeadersDeeds connection sid block endHeaders endStream) := by
  have applies (connection : Connection) :
      Ordinary (connection.blockDeeds block fun decoded headers =>
        applyResponseDeeds decoded sid headers endStream) :=
    ordinary_blockDeeds connection block _ fun decoded headers =>
      ordinary_applyResponseDeeds decoded sid headers endStream
  unfold handleResponseHeadersDeeds
  split
  · exact ordinary_nil
  · split
    · exact ordinary_append (ordinary_calls _) (applies _)
    · split
      · exact applies connection
      · exact ordinary_nil

theorem ordinary_handleHeadersDeeds (f : Frame) : Ordinary (handleHeadersDeeds config connection f) := by
  unfold handleHeadersDeeds
  dsimp only
  split
  · exact ordinary_goawayDeeds connection _ _ _
  · split
    · exact ordinary_goawayDeeds connection _ _ _
    · split
      · exact ordinary_handleRequestHeadersDeeds config connection _ _ _ _
      · exact ordinary_handleResponseHeadersDeeds connection _ _ _ _

theorem ordinary_handleContinuationDeeds (f : Frame) :
    Ordinary (handleContinuationDeeds config connection f) := by
  unfold handleContinuationDeeds
  dsimp only
  split
  · exact ordinary_goawayDeeds connection _ _ _
  · split
    · refine ordinary_blockDeeds _ _ _ fun decoded headers => ?_
      split
      · exact ordinary_applyHeadersDeeds config _ _ headers _
      · exact ordinary_applyResponseDeeds _ _ headers _
    · exact ordinary_nil

theorem plain_applySettingsDeeds (settings : List SettingEntry) :
    Plain (applySettingsDeeds connection settings) := by
  induction settings with
  | nil => exact plain_singleton trivial
  | cons setting settings inductionHypothesis =>
    unfold applySettingsDeeds
    split
    · split
      · exact (ordinary_goawayDeeds connection _ _ _).plain
      · exact plain_cons trivial inductionHypothesis
    · split
      · exact (ordinary_goawayDeeds connection _ _ _).plain
      · exact plain_cons trivial inductionHypothesis
    · exact plain_cons trivial inductionHypothesis

theorem plain_handleSettingsDeeds (f : Frame) : Plain (handleSettingsDeeds connection f) := by
  unfold handleSettingsDeeds
  split
  · exact (ordinary_goawayDeeds connection _ _ _).plain
  · split
    · exact plain_nil
    · split
      · exact (ordinary_goawayDeeds connection _ _ _).plain
      · exact plain_applySettingsDeeds connection _

theorem ordinary_handlePingDeeds (f : Frame) : Ordinary (handlePingDeeds connection f) := by
  unfold handlePingDeeds
  split
  · exact ordinary_goawayDeeds connection _ _ _
  · split
    · exact ordinary_goawayDeeds connection _ _ _
    · split
      · exact ordinary_nil
      · exact ordinary_singleton trivial

theorem ordinary_handleRstStreamDeeds (f : Frame) : Ordinary (handleRstStreamDeeds connection f) := by
  unfold handleRstStreamDeeds
  dsimp only
  split
  · exact ordinary_goawayDeeds connection _ _ _
  · split
    · exact ordinary_nil
    · rename_i state _
      refine ordinary_append ?_ (ordinary_singleton trivial)
      cases state.promise with
      | none => exact ordinary_nil
      | some ref => exact ordinary_singleton trivial

theorem ordinary_handlePushPromiseDeeds (f : Frame) :
    Ordinary (handlePushPromiseDeeds config connection f) := by
  unfold handlePushPromiseDeeds
  split
  · exact ordinary_goawayDeeds connection _ _ _
  · exact ordinary_blockDeeds connection _ _ fun _ _ => ordinary_cons trivial (ordinary_singleton trivial)

/-! ### The deeds of a frame -/

/-- Only DATA, WINDOW_UPDATE and SETTINGS have deeds that are not ordinary. -/
theorem ordinary_frameDeeds (f : Frame)
    (other : connection.continuationStream = 0 →
      f.hdr.type ≠ .data ∧ f.hdr.type ≠ .windowUpdate ∧ f.hdr.type ≠ .settings) :
    Ordinary (frameDeeds config connection f) := by
  unfold frameDeeds
  dsimp only
  split
  · split
    · exact ordinary_goawayDeeds _ _ _ _
    · exact ordinary_handleContinuationDeeds config _ f
  · rename_i idle
    obtain ⟨notData, notUpdate, notSettings⟩ := other (not_not.mp idle)
    split
    · rename_i data
      exact absurd data notData
    · exact ordinary_handleHeadersDeeds config _ f
    · exact ordinary_handleRstStreamDeeds _ f
    · rename_i settings
      exact absurd settings notSettings
    · exact ordinary_handlePushPromiseDeeds config _ f
    · exact ordinary_handlePingDeeds _ f
    · exact ordinary_singleton trivial
    · rename_i update
      exact absurd update notUpdate
    · exact ordinary_goawayDeeds _ _ _ _
    · exact ordinary_nil

theorem frameDeeds_settings (f : Frame) (idle : connection.continuationStream = 0)
    (settings : f.hdr.type = .settings) :
    frameDeeds config connection f = handleSettingsDeeds (connection.record (.frame f)) f := by
  have waits : ¬ (connection.record (.frame f)).continuationStream ≠ 0 := not_not.mpr idle
  unfold frameDeeds
  dsimp only
  rw [if_neg waits, settings]

/-- Only DATA and WINDOW_UPDATE have deeds that are not plain. -/
theorem plain_frameDeeds (f : Frame)
    (other : connection.continuationStream = 0 →
      f.hdr.type ≠ .data ∧ f.hdr.type ≠ .windowUpdate) :
    Plain (frameDeeds config connection f) := by
  by_cases settings : connection.continuationStream = 0 ∧ f.hdr.type = .settings
  · rw [frameDeeds_settings config connection f settings.1 settings.2]
    exact plain_handleSettingsDeeds _ f
  · refine (ordinary_frameDeeds config connection f fun idle => ?_).plain
    exact ⟨(other idle).1, (other idle).2, fun is => settings ⟨idle, is⟩⟩

theorem frameDeeds_data (f : Frame) (idle : connection.continuationStream = 0)
    (data : f.hdr.type = .data) :
    frameDeeds config connection f = handleDataDeeds config (connection.record (.frame f)) f := by
  have waits : ¬ (connection.record (.frame f)).continuationStream ≠ 0 := not_not.mpr idle
  unfold frameDeeds
  dsimp only
  rw [if_neg waits, data]

theorem frameDeeds_windowUpdate (f : Frame) (idle : connection.continuationStream = 0)
    (update : f.hdr.type = .windowUpdate) :
    frameDeeds config connection f =
      handleWindowUpdateDeeds (connection.record (.frame f)) f := by
  have waits : ¬ (connection.record (.frame f)).continuationStream ≠ 0 := not_not.mpr idle
  unfold frameDeeds
  dsimp only
  rw [if_neg waits, update]

/-- The deeds of DATA for a stream that is there: what the callback does, the windows, and what the
end of the stream brings. -/
theorem handleDataDeeds_known (f : Frame) {state : StreamState} {data : Bytes}
    (nonzero : f.hdr.streamId ≠ 0) (known : connection.streams f.hdr.streamId = some state)
    (stripped : stripPadding f = .ok data) :
    ∃ later, Ordinary later ∧ handleDataDeeds config connection f =
      deliverDeeds f.hdr.streamId state data (f.hdr.hasFlag Flag.endStream) ++
        updateDeeds (connection.deliverData f.hdr.streamId state data
          (f.hdr.hasFlag Flag.endStream)) f.hdr.streamId data.length ++ later := by
  unfold handleDataDeeds
  dsimp only
  rw [if_neg nonzero, known, stripped]
  refine ⟨_, ?_, rfl⟩
  split
  · exact ordinary_endDataDeeds config _ _
  · exact ordinary_nil

theorem handleDataDeeds_zero (f : Frame) (zero : f.hdr.streamId = 0) :
    handleDataDeeds config connection f =
      goawayDeeds connection .protocolError (ascii "DATA on stream 0") (by decide) := by
  unfold handleDataDeeds
  exact if_pos zero

theorem handleDataDeeds_padding (f : Frame) {state : StreamState} {error : ErrorCode}
    (nonzero : f.hdr.streamId ≠ 0) (known : connection.streams f.hdr.streamId = some state)
    (padding : stripPadding f = .error error) :
    handleDataDeeds config connection f = goawayDeeds connection error [] (by decide) := by
  unfold handleDataDeeds
  dsimp only
  rw [if_neg nonzero, known, padding]

/-- The deeds of DATA on stream 0, for a stream that is not there, or with too much padding. -/
theorem ordinary_handleDataDeeds (f : Frame)
    (refused : f.hdr.streamId = 0 ∨ connection.streams f.hdr.streamId = none ∨
      ∃ error, stripPadding f = .error error) :
    Ordinary (handleDataDeeds config connection f) := by
  unfold handleDataDeeds
  dsimp only
  split
  · exact ordinary_goawayDeeds connection _ _ _
  · rename_i nonzero
    cases known : connection.streams f.hdr.streamId with
    | none => exact ordinary_singleton trivial
    | some state =>
      rw [known] at refused
      obtain ⟨error, padding⟩ :=
        (refused.resolve_left nonzero).resolve_left (Option.some_ne_none state)
      dsimp only
      rw [padding]
      exact ordinary_goawayDeeds connection _ _ _

/-- The deeds of a valid WINDOW_UPDATE frame: credit, and nothing else that is not plain. -/
theorem handleWindowUpdateDeeds_valid (f : Frame) (four : f.payload.length = 4)
    (positive : parseWindowUpdate f.payload ≠ 0) :
    ∃ later, Ordinary later ∧ handleWindowUpdateDeeds connection f =
      .credit f.hdr.streamId (parseWindowUpdate f.payload) :: later := by
  unfold handleWindowUpdateDeeds
  dsimp only
  rw [if_neg (not_not.mpr four), if_neg positive]
  refine ⟨_, ?_, rfl⟩
  split
  · split
    · exact ordinary_goawayDeeds connection _ _ _
    · exact ordinary_nil
  · exact ordinary_nil

theorem ordinary_handleWindowUpdateDeeds (f : Frame)
    (invalid : f.payload.length ≠ 4 ∨ parseWindowUpdate f.payload = 0) :
    Ordinary (handleWindowUpdateDeeds connection f) := by
  unfold handleWindowUpdateDeeds
  dsimp only
  split
  · exact ordinary_goawayDeeds connection _ _ _
  · rename_i four
    rw [if_pos (invalid.resolve_left four)]
    split
    · exact ordinary_goawayDeeds connection _ _ _
    · exact ordinary_singleton trivial

end Handlers

end Connection

/-! ### What plain deeds leave alone -/

namespace Account

/-- The frames that are added to an account are of a kind. -/
def Adds (kind : Frame → Prop) (before after : Account) : Prop :=
  ∃ frames, after.frames = before.frames ++ frames ∧ ∀ f ∈ frames, kind f

section Adds

variable {kind : Frame → Prop}

theorem Adds.of_eq {before after : Account} (same : after.frames = before.frames) :
    Adds kind before after :=
  ⟨[], same.trans (List.append_nil _).symm, fun _ member => absurd member List.not_mem_nil⟩

theorem Adds.trans {first second third : Account} (left : Adds kind first second)
    (right : Adds kind second third) : Adds kind first third := by
  obtain ⟨frames, added, are⟩ := left
  obtain ⟨more, added', are'⟩ := right
  refine ⟨frames ++ more, ?_, List.forall_mem_append.mpr ⟨are, are'⟩⟩
  rw [added', added, List.append_assoc]

theorem adds_enqueue (account : Account) (frames : List Frame) (are : ∀ f ∈ frames, kind f) :
    Adds kind account (account.enqueue frames) := ⟨frames, frames_enqueue account frames, are⟩

end Adds

/-- A kind that the frames of messages are of. -/
def OfMessages (kind : Frame → Prop) : Prop :=
  ∀ f : Frame, f.hdr.type = .headers ∨ f.hdr.type = .continuation ∨ f.hdr.type = .data → kind f

section Messages

variable {kind : Frame → Prop} (messages : OfMessages kind) (account : Account)

include messages

theorem adds_sendHeaders (sid : Nat) (flags : UInt8) (headers : Headers) :
    Adds kind account (account.sendHeaders sid flags headers) := by
  have kinds := type_headerFrames sid account.maxFrameSize flags (account.encoder.encode headers).1
  refine adds_enqueue { account with encoder := _ } _ fun f member => messages f ?_
  exact (kinds f member).imp_right Or.inl

theorem adds_sendTrailers (sid : Nat) (trailers : Headers) :
    Adds kind account (account.sendTrailers sid trailers) := by
  unfold sendTrailers
  split
  · exact adds_sendHeaders messages account sid _ _
  · exact Adds.of_eq rfl

theorem adds_sendBody (sid : Nat) (body : Bytes) (noEndStream : Bool) :
    Adds kind account (account.sendBody sid body noEndStream) := by
  refine adds_enqueue (account.modifyStream sid _) _ fun f member => messages f ?_
  exact Or.inr (Or.inr (type_splitInto sid account.maxFrameSize _ _ _ _ f member))

theorem adds_submitResponse (sid : Nat) (resp : Response) :
    Adds kind account (account.submitResponse sid resp) :=
  ((adds_sendHeaders messages account sid _ _).trans (adds_sendBody messages _ sid _ _)).trans
    (adds_sendTrailers messages _ sid _)

theorem adds_submitData (sid : Nat) (data : Bytes) (endStream : Bool) :
    Adds kind account (account.submitData sid data endStream) := by
  refine adds_enqueue (account.modifyStream sid _) _ fun f member => messages f ?_
  unfold dataFrames at member
  dsimp only at member
  split at member
  · rw [List.mem_singleton.mp member]
    exact Or.inr (Or.inr rfl)
  · exact Or.inr (Or.inr (type_splitInto sid account.maxFrameSize _ _ _ _ f member))

/-- What a call sends is part of messages, unless it promises a stream. -/
theorem adds_call (command : Command)
    (noPush : ∀ parent req resp, command ≠ .submitPush parent req resp) :
    Adds kind account (account.call command) := by
  cases command with
  | submitResponse sid resp => exact adds_submitResponse messages account sid resp
  | submitResponseHeaders sid resp => exact adds_sendHeaders messages account sid _ _
  | submitData sid data endStream => exact adds_submitData messages account sid data endStream
  | submitTrailers sid trailers => exact adds_sendHeaders messages account sid _ _
  | submitRequest req promise noEndStream =>
    exact (adds_sendHeaders messages (account.beginRequest promise) _ _ _).trans
      (adds_sendBody messages _ _ _ _)
  | submitPush parent req resp => exact absurd rfl (noPush parent req resp)
  | _ => exact Adds.of_eq rfl

end Messages

/-- A frame that grants nothing. -/
def Ungranting (f : Frame) : Prop := f.hdr.type ≠ .windowUpdate

theorem ungranting_messages : OfMessages Ungranting := by
  intro f types grants
  rw [grants] at types
  exact absurd types (by decide)

section Ungranting

variable (account : Account)

theorem ungranting_submitPush (parent : Nat) (req : Request) (resp : Response) :
    Adds Ungranting account (account.submitPush parent req resp) := by
  cases enabled : account.enablePush with
  | false =>
    rw [submitPush_of_disabled account parent req resp enabled]
    exact Adds.of_eq rfl
  | true =>
    have announces : Adds Ungranting account (account.announce parent req) := by
      refine adds_enqueue { account with .. } _ ?_
      rw [List.forall_mem_singleton]
      exact show FrameType.pushPromise ≠ .windowUpdate by decide
    rw [submitPush_of_enabled account parent req resp enabled]
    exact announces.trans (adds_submitResponse ungranting_messages _ _ resp)

theorem ungranting_call (command : Command) :
    Adds Ungranting account (account.call command) := by
  cases command with
  | submitPush parent req resp => exact ungranting_submitPush account parent req resp
  | _ => exact adds_call ungranting_messages account _ fun _ _ _ => Command.noConfusion

end Ungranting

/-- The windows of the connection, the credit received and the credit granted are the same. -/
structure SameWindows (before after : Account) : Prop where
  sendWindow : after.sendWindow = before.sendWindow
  recvWindow : after.recvWindow = before.recvWindow
  credit : after.credit = before.credit
  granted : ∀ scope, credits scope after.frames = credits scope before.frames

theorem SameWindows.refl (account : Account) : SameWindows account account :=
  ⟨rfl, rfl, rfl, fun _ => rfl⟩

theorem SameWindows.trans {first second third : Account} (left : SameWindows first second)
    (right : SameWindows second third) : SameWindows first third where
  sendWindow := right.sendWindow.trans left.sendWindow
  recvWindow := right.recvWindow.trans left.recvWindow
  credit := right.credit.trans left.credit
  granted := fun scope => (right.granted scope).trans (left.granted scope)

theorem Adds.granted {before after : Account} (adds : Adds Ungranting before after) (scope : Nat) :
    credits scope after.frames = credits scope before.frames := by
  obtain ⟨frames, added, are⟩ := adds
  rw [added, credits_append, credits_of_ne scope frames are]
  rfl

theorem Sends.sameWindows {before after : Account} (sends : Sends before after)
    (adds : Adds Ungranting before after) : SameWindows before after :=
  ⟨sends.sendWindow, sends.recvWindow, sends.credit, adds.granted⟩

section Windows

variable (account : Account)

theorem sameWindows_control (control : Control) (plain : (Deed.control control).Plain) :
    SameWindows account (account.control control) := by
  refine (sends_control account control).sameWindows ?_
  cases control with
  | windowUpdate sid increment => exact absurd plain id
  | _ =>
    refine adds_enqueue account _ ?_
    rw [List.forall_mem_singleton]
    exact nofun

theorem sameWindows_setting (entry : SettingEntry) :
    SameWindows account (account.setting entry) := by
  obtain ⟨_, _, _, _, _, changed⟩ := setting_eq account entry
  rw [changed]
  exact { SameWindows.refl account with }

/-- Credit leaves the receive window and what has been granted alone. -/
theorem addCredit_receives (sid increment : Nat) :
    (account.addCredit sid increment).recvWindow = account.recvWindow ∧
      ∀ scope, credits scope (account.addCredit sid increment).frames =
        credits scope account.frames := by
  obtain ⟨_, replies, are, credited⟩ := addCredit_eq account sid increment
  have resets : ∀ f ∈ replies, Ungranting f := by
    intro f member
    rw [are f member]
    exact nofun
  rw [credited]
  exact ⟨rfl, (adds_enqueue (account.recordCredit sid increment) replies resets).granted⟩

/-- Plain deeds leave the windows of the connection alone. -/
theorem sameWindows_act (deed : Deed) (plain : deed.Plain) :
    SameWindows account (account.act deed) := by
  cases deed with
  | call command => exact (sends_call account command).sameWindows (ungranting_call account command)
  | control control => exact sameWindows_control account control plain
  | credit sid increment => exact absurd plain id
  | charge length => exact absurd plain id
  | grant increment => exact absurd plain id
  | setting entry => exact sameWindows_setting account entry
  | _ => exact { SameWindows.refl account with }

theorem sameWindows_acts (deeds : List Deed) (plain : Plain deeds) :
    SameWindows account (account.acts deeds) := by
  induction deeds generalizing account with
  | nil => exact SameWindows.refl account
  | cons deed deeds inductionHypothesis =>
    obtain ⟨first, later⟩ := List.forall_mem_cons.mp plain
    exact (sameWindows_act account deed first).trans (inductionHypothesis _ later)

end Windows

end Account

end AsyncNet.Http
