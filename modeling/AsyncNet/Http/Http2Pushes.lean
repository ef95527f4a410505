/-
This file follows the promises of streams through the runs of a session. A promise is
made by a call, whoever makes it: the next even identifier is taken, PUSH_PROMISE is
enqueued and the response right behind it. Whether promises are made at all is up to the
settings of the peer that have been taken over.

A session takes over the settings that it receives, in their order, until it gives up
the connection. From then on it ignores the peer, but its owner can still make promises.
-/

import AsyncNet.Http.Http2ResponseFrames
import AsyncNet.Http.Http2Serving

namespace AsyncNet.Http

open Library H2

/-! ### Promises among the frames -/

/-- The stream that a frame promises. -/
def H2.Frame.promised (f : Frame) : Option Nat :=
  if f.hdr.type = .pushPromise then some (getUint32 f.payload 0 % 2 ^ 31) else none

/-- The streams that have been promised, in the order of the promises. -/
def promisedIds (frames : List Frame) : List Nat := frames.filterMap Frame.promised

/-- Right behind every promise stands a complete response on the stream that is promised. -/
def Answered (frames : List Frame) : Prop :=
  ∀ before f after id, frames = before ++ f :: after → f.promised = some id →
    ∃ resp response later, after = response ++ later ∧ CompleteResponse id resp response

theorem promisedIds_append (frames more : List Frame) :
    promisedIds (frames ++ more) = promisedIds frames ++ promisedIds more := List.filterMap_append

/-- A frame that promises nothing. -/
def Unpromising (f : Frame) : Prop := f.hdr.type ≠ .pushPromise

theorem Unpromising.promised {f : Frame} (unpromising : Unpromising f) : f.promised = none :=
  if_neg unpromising

theorem promisedIds_of_unpromising (frames : List Frame) (are : ∀ f ∈ frames, Unpromising f) :
    promisedIds frames = [] :=
  List.filterMap_eq_nil_iff.mpr fun f member => (are f member).promised

theorem unpromising_messages : Account.OfMessages Unpromising := by
  intro f types promises
  rw [promises] at types
  exact absurd types (by decide)

theorem promised_pushPromiseFrame (parent promised : Nat) (block : Bytes) :
    (pushPromiseFrame parent promised block).promised = some (promised % 2 ^ 31) := by
  have read := getUint32_append [] block (promised % 2 ^ 31) (by omega)
  have type : (pushPromiseFrame parent promised block).hdr.type = .pushPromise := rfl
  have payload : (pushPromiseFrame parent promised block).payload =
      putUint32 (promised % 2 ^ 31) ++ block := rfl
  rw [Frame.promised, if_pos type, payload]
  rw [List.nil_append, List.length_nil] at read
  rw [read, Nat.mod_mod]

section Answered

variable {frames more : List Frame}

/-- What follows does not come between a promise and its response. -/
theorem Answered.append (answered : Answered frames) (are : ∀ f ∈ more, Unpromising f) :
    Answered (frames ++ more) := by
  intro before f after id split promises
  have absent : f ∉ more := by
    intro member
    rw [(are f member).promised] at promises
    exact absurd promises (Option.some_ne_none id).symm
  rcases List.append_eq_append_iff.mp split with ⟨middle, -, rest⟩ | ⟨middle, front, rest⟩
  · refine absurd ?_ absent
    rw [rest]
    exact List.mem_append_right _ List.mem_cons_self
  · cases middle with
    | nil =>
      refine absurd ?_ absent
      rw [List.nil_append] at rest
      rw [← rest]
      exact List.mem_cons_self
    | cons g middle =>
      obtain ⟨rfl, rfl⟩ := List.cons.inj rest
      obtain ⟨resp, response, later, rfl, complete⟩ := answered before f middle id front promises
      exact ⟨resp, response, later ++ more, List.append_assoc _ _ _, complete⟩

/-- A promise is added together with its response. -/
theorem Answered.push (answered : Answered frames) {f : Frame} {id : Nat} {resp : Response}
    (promises : f.promised = some id) (are : ∀ f ∈ more, Unpromising f)
    (complete : CompleteResponse id resp more) : Answered (frames ++ f :: more) := by
  intro before g after id' split promises'
  rcases List.append_eq_append_iff.mp split with ⟨middle, -, rest⟩ | ⟨middle, front, rest⟩
  · cases middle with
    | nil =>
      obtain ⟨rfl, rfl⟩ := List.cons.inj rest
      rw [promises] at promises'
      rw [← Option.some.inj promises']
      exact ⟨resp, more, [], (List.append_nil more).symm, complete⟩
    | cons h middle =>
      obtain ⟨-, rest⟩ := List.cons.inj rest
      have unpromising : g.promised = none := by
        refine (are g ?_).promised
        rw [rest]
        exact List.mem_append_right _ List.mem_cons_self
      rw [unpromising] at promises'
      exact absurd promises' (Option.some_ne_none id').symm
  · cases middle with
    | nil =>
      obtain ⟨rfl, rfl⟩ := List.cons.inj rest
      rw [promises] at promises'
      rw [← Option.some.inj promises']
      exact ⟨resp, after, [], (List.append_nil after).symm, complete⟩
    | cons h middle =>
      obtain ⟨rfl, rfl⟩ := List.cons.inj rest
      obtain ⟨resp', response, later, rfl, complete'⟩ :=
        answered before g middle id' front promises'
      exact ⟨resp', response, later ++ f :: more, List.append_assoc _ _ _, complete'⟩

end Answered

/-! ### Promises of an account -/

namespace Account

section Deeds

variable (account : Account)

/-- A response is added as its frames. -/
theorem frames_submitResponse (sid : Nat) (resp : Response) (sound : account.Sound) :
    ∃ response, (account.submitResponse sid resp).frames = account.frames ++ response ∧
      CompleteResponse sid resp response ∧ ∀ f ∈ response, Unpromising f := by
  set started := account.sendHeaders sid
    (if resp.bd ≠ [] ∨ resp.trailers ≠ [] then 0 else Flag.endStream)
    (Connection.responseHeaders resp) with startedEq
  set carried := started.sendBody sid resp.bd (decide (resp.trailers ≠ [])) with carriedEq
  have last : (carried.sendTrailers sid resp.trailers).frames = carried.frames ++
      if (responseMessage resp).trailers.isSome then
        headerFrames sid Flag.endStream account.maxFrameSize
          (carried.encoder.encode (Connection.copiedHeaders [] resp.trailers)).1 else [] := by
    rw [Connection.isSome_trailers, sendTrailers]
    by_cases none : resp.trailers = []
    · rw [if_neg (not_not.mpr none), decide_eq_false (not_not.mpr none)]
      exact (List.append_nil _).symm
    · rw [if_pos none, decide_eq_true none]
      exact frames_sendHeaders carried sid _ _
  have whole : (account.submitResponse sid resp).frames = account.frames ++
      messageFrames sid account.maxFrameSize (responseMessage resp)
        (account.encoder.encode (Connection.responseHeaders resp)).1
        (carried.encoder.encode (Connection.copiedHeaders [] resp.trailers)).1 := by
    show (carried.sendTrailers sid resp.trailers).frames = _
    rw [last, carriedEq, frames_sendBody, startedEq, frames_sendHeaders,
      Connection.responseFlags_eq, ← Connection.isSome_trailers, messageFrames]
    simp only [List.append_assoc]
    rfl
  obtain ⟨added, adds, are⟩ := adds_submitResponse unpromising_messages account sid resp
  rw [whole] at adds
  obtain ⟨opening, data, closing, parts, shape⟩ :=
    responseShape_messageFrames sid account.maxFrameSize sound.positive resp
      (account.encoder.encode (Connection.responseHeaders resp)).1
      (carried.encoder.encode (Connection.copiedHeaders [] resp.trailers)).1
  refine ⟨_, whole, ⟨opening, data, closing, _, _, parts, shape⟩, ?_⟩
  rw [List.append_cancel_left adds]
  exact are

/-- The deed adds no promise. -/
def MakesNone (deed : Deed) : Prop :=
  Adds Unpromising account (account.act deed) ∧
    (account.act deed).nextPushStreamId = account.nextPushStreamId

/-- The deed promises the next stream, and adds the response behind the promise. -/
def MakesOne (deed : Deed) : Prop :=
  ∃ parent resp block response,
    (account.act deed).frames = account.frames ++
      pushPromiseFrame parent account.nextPushStreamId block :: response ∧
    CompleteResponse account.nextPushStreamId resp response ∧
    (∀ f ∈ response, Unpromising f) ∧
    (account.act deed).nextPushStreamId = account.nextPushStreamId + 2

theorem makesOne_submitPush (parent : Nat) (req : Request) (resp : Response)
    (sound : account.Sound) (enabled : account.enablePush = true) :
    account.MakesOne (.call (.submitPush parent req resp)) := by
  obtain ⟨response, added, complete, are⟩ :=
    frames_submitResponse (account.announce parent req) account.nextPushStreamId resp sound
  have promises := nextPushStreamId_submitResponse (account.announce parent req)
    account.nextPushStreamId resp
  have announced : (account.announce parent req).frames = account.frames ++
      [pushPromiseFrame parent account.nextPushStreamId
        (account.encoder.encode (Connection.requestHeaders req)).1] :=
    frames_enqueue { account with .. } _
  refine ⟨parent, resp, (account.encoder.encode (Connection.requestHeaders req)).1, response, ?_,
    complete, are, ?_⟩
  · show (account.submitPush parent req resp).frames = _
    rw [submitPush_of_enabled account parent req resp enabled, added, announced,
      List.append_assoc]
    rfl
  · show (account.submitPush parent req resp).nextPushStreamId = _
    rw [submitPush_of_enabled account parent req resp enabled, promises]
    rfl

/-- A call makes a promise only if the peer allows it. -/
theorem call_promises (command : Command) (sound : account.Sound) :
    account.MakesNone (.call command) ∨
      account.enablePush = true ∧ account.MakesOne (.call command) := by
  cases command with
  | submitPush parent req resp =>
    cases enabled : account.enablePush with
    | false =>
      have same := submitPush_of_disabled account parent req resp enabled
      refine Or.inl ⟨Adds.of_eq ?_, ?_⟩
      · exact congrArg frames same
      · exact congrArg nextPushStreamId same
    | true => exact Or.inr ⟨rfl, makesOne_submitPush account parent req resp sound enabled⟩
  | submitResponse sid resp =>
    exact Or.inl ⟨adds_call unpromising_messages account _ fun _ _ _ => Command.noConfusion,
      nextPushStreamId_submitResponse account sid resp⟩
  | _ =>
    exact Or.inl
      ⟨adds_call unpromising_messages account _ fun _ _ _ => Command.noConfusion, rfl⟩

/-- A deed that is no call makes no promise. -/
theorem makesNone_own (deed : Deed) (own : deed.Own) : account.MakesNone deed := by
  have aside {after : Account} (adds : Adds SendPhase.Aside account after) :
      Adds Unpromising account after := by
    obtain ⟨added, frames, are⟩ := adds
    exact ⟨added, frames, fun f member => (are f member).2.2.2⟩
  cases deed with
  | call command => exact absurd own id
  | control control =>
    refine ⟨aside (aside_control account control), ?_⟩
    cases control <;> rfl
  | credit sid increment =>
    obtain ⟨adds, promises⟩ := aside_addCredit account sid increment
    exact ⟨aside adds, promises⟩
  | grant increment =>
    refine ⟨adds_enqueue account [windowUpdateFrame 0 increment]
      (List.forall_mem_singleton.mpr ?_), rfl⟩
    exact show FrameType.windowUpdate ≠ .pushPromise by decide
  | setting entry =>
    exact ⟨Adds.of_eq (frames_setting account entry), nextPushStreamId_setting account entry⟩
  | _ => exact ⟨Adds.of_eq rfl, rfl⟩

/-- A deed makes a promise only if the peer allows it, and then one. -/
theorem act_promises (deed : Deed) (sound : account.Sound) :
    account.MakesNone deed ∨ account.enablePush = true ∧ account.MakesOne deed := by
  cases deed with
  | call command => exact call_promises account command sound
  | _ => exact Or.inl (makesNone_own account _ trivial)

end Deeds

/-- The streams are promised in the order of the even numbers, and every promise is followed by a
response. -/
structure Disciplined (account : Account) : Prop where
  ids : promisedIds account.frames =
    (List.range (promisedIds account.frames).length).map fun index => (2 * index + 2) % 2 ^ 31
  next : account.nextPushStreamId = 2 * (promisedIds account.frames).length + 2
  answered : Answered account.frames

section Disciplined

variable {account : Account} {deed : Deed}

theorem MakesNone.promisedIds_eq (none : account.MakesNone deed) :
    promisedIds (account.act deed).frames = promisedIds account.frames := by
  obtain ⟨⟨added, frames, are⟩, -⟩ := none
  rw [frames, promisedIds_append, promisedIds_of_unpromising added are, List.append_nil]

theorem MakesOne.promisedIds_eq (one : account.MakesOne deed) :
    promisedIds (account.act deed).frames =
      promisedIds account.frames ++ [account.nextPushStreamId % 2 ^ 31] := by
  obtain ⟨parent, resp, block, response, frames, -, are, -⟩ := one
  have first := promised_pushPromiseFrame parent account.nextPushStreamId block
  have later := promisedIds_of_unpromising response are
  rw [frames, promisedIds_append]
  exact congrArg _ ((List.filterMap_cons_some first).trans (congrArg _ later))

theorem Disciplined.makesNone (disciplined : account.Disciplined)
    (none : account.MakesNone deed) : (account.act deed).Disciplined := by
  have same := none.promisedIds_eq
  obtain ⟨⟨added, frames, are⟩, next⟩ := none
  refine ⟨?_, ?_, ?_⟩
  · rw [same]
    exact disciplined.ids
  · rw [same, next]
    exact disciplined.next
  · rw [frames]
    exact disciplined.answered.append are

theorem Disciplined.makesOne (disciplined : account.Disciplined)
    (one : account.MakesOne deed) (few : (promisedIds account.frames).length < 2 ^ 29) :
    (account.act deed).Disciplined := by
  have more := one.promisedIds_eq
  obtain ⟨parent, resp, block, response, frames, complete, are, next⟩ := one
  have count : (promisedIds (account.act deed).frames).length =
      (promisedIds account.frames).length + 1 := by
    rw [more, List.length_append, List.length_singleton]
  have small : account.nextPushStreamId % 2 ^ 31 = account.nextPushStreamId := by
    refine Nat.mod_eq_of_lt ?_
    have := disciplined.next
    omega
  have promises := promised_pushPromiseFrame parent account.nextPushStreamId block
  rw [small] at promises
  refine ⟨?_, ?_, ?_⟩
  · rw [count, List.range_succ, List.map_append, more, ← disciplined.ids, disciplined.next]
    rfl
  · rw [count, next, disciplined.next]
    omega
  · rw [frames]
    exact disciplined.answered.push promises are complete

theorem Disciplined.even (disciplined : account.Disciplined) :
    ∀ id ∈ promisedIds account.frames, id % 2 = 0 := by
  intro id member
  rw [disciplined.ids] at member
  obtain ⟨index, -, rfl⟩ := List.mem_map.mp member
  omega

theorem Disciplined.increasing (disciplined : account.Disciplined)
    (few : (promisedIds account.frames).length < 2 ^ 29) :
    (promisedIds account.frames).Pairwise (· < ·) := by
  rw [disciplined.ids]
  refine List.pairwise_map.mpr (List.pairwise_lt_range.imp_of_mem fun first second less => ?_)
  have small := List.mem_range.mp second
  omega

theorem length_promisedIds_le (sound : account.Sound) :
    (promisedIds account.frames).length ≤ (promisedIds (account.act deed).frames).length := by
  rcases act_promises account deed sound with none | ⟨-, one⟩
  · exact le_of_eq (congrArg List.length none.promisedIds_eq.symm)
  · rw [one.promisedIds_eq, List.length_append]
    exact Nat.le_add_right _ _

end Disciplined

theorem disciplined_create (mode : Mode) : (create mode).Disciplined := by
  have nothing : Answered [] := fun before f after id split => by
    exact absurd split.symm (List.append_ne_nil_of_right_ne_nil before (List.cons_ne_nil f after))
  have settings : ∀ f ∈ [settingsFrame], Unpromising f :=
    List.forall_mem_singleton.mpr (show FrameType.settings ≠ .pushPromise by decide)
  have ids : promisedIds (create mode).frames = [] := promisedIds_of_unpromising _ settings
  refine ⟨?_, ?_, nothing.append settings⟩
  · rw [ids]
    rfl
  · rw [ids]
    rfl

/-- As long as there are fewer than 2^29 promises they are made in order and kept. -/
theorem disciplined_acts (mode : Mode) (deeds : List Deed)
    (few : (promisedIds ((create mode).acts deeds).frames).length < 2 ^ 29) :
    ((create mode).acts deeds).Disciplined := by
  induction deeds using List.reverseRecOn with
  | nil => exact disciplined_create mode
  | append_singleton deeds deed inductionHypothesis =>
    have sound := sound_acts mode deeds
    rw [acts_append] at few ⊢
    have fewer := (length_promisedIds_le sound).trans_lt few
    have before := inductionHypothesis fewer
    rcases act_promises _ deed sound with none | ⟨-, one⟩
    · exact before.makesNone none
    · exact before.makesOne one fewer

end Account

/-! ### Settings -/

/-- The settings of a SETTINGS frame that is well formed and no acknowledgement. -/
def H2.Frame.settings (f : Frame) : List SettingEntry :=
  if f.hdr.type = .settings ∧ f.hdr.streamId = 0 ∧ f.hdr.hasFlag Flag.ack = false ∧
      f.payload.length % settingsParamSize = 0 then parseSettings f.payload
    else []

/-- A setting that a session does not give up the connection for. -/
def H2.SettingEntry.valid (entry : SettingEntry) : Bool :=
  match entry.id with
  | .initialWindowSize => entry.value ≤ maxWindowSize
  | .maxFrameSize => 16384 ≤ entry.value && entry.value ≤ 16777215
  | _ => true

/-- The value of the last ENABLE_PUSH setting. -/
def lastEnablePush (settings : List SettingEntry) : Option Nat :=
  (settings.filter fun entry => entry.id = .enablePush).getLast?.map SettingEntry.value

/-- Whether the peer allows promises, after some settings. -/
def pushAllowed (before : Bool) (settings : List SettingEntry) : Bool :=
  settings.foldl (fun allowed entry =>
    if entry.id = .enablePush then decide (entry.value ≠ 0) else allowed) before

theorem pushAllowed_iff (settings : List SettingEntry) :
    pushAllowed true settings = true ↔ lastEnablePush settings ≠ some 0 := by
  induction settings using List.reverseRecOn with
  | nil => exact iff_of_true rfl nofun
  | append_singleton settings entry inductionHypothesis =>
    unfold pushAllowed lastEnablePush at inductionHypothesis ⊢
    rw [List.foldl_append, List.filter_append, List.foldl_cons, List.foldl_nil,
      List.filter_singleton]
    by_cases is : entry.id = .enablePush
    · rw [if_pos is, decide_eq_true is, cond_true, List.getLast?_append_of_ne_nil _
        (List.cons_ne_nil entry [])]
      simp only [decide_eq_true_eq, ne_eq, List.getLast?_singleton, Option.map_some,
        Option.some.injEq]
    · rw [if_neg is, decide_eq_false is, cond_false, List.append_nil]
      exact inductionHypothesis

/-- The settings that are taken over. -/
def settingsOf (deeds : List Deed) : List SettingEntry :=
  deeds.filterMap fun deed => match deed with | .setting entry => some entry | _ => none

theorem settingsOf_append (deeds more : List Deed) :
    settingsOf (deeds ++ more) = settingsOf deeds ++ settingsOf more := List.filterMap_append

theorem Ordinary.settingsOf {deeds : List Deed} (ordinary : Ordinary deeds) :
    settingsOf deeds = [] := by
  refine List.filterMap_eq_nil_iff.mpr fun deed member => ?_
  have is := ordinary deed member
  cases deed with
  | setting entry => exact absurd is id
  | _ => rfl

namespace Account

/-- Only the settings that are taken over decide whether the peer allows promises. -/
theorem enablePush_act (account : Account) (deed : Deed) :
    (account.act deed).enablePush = pushAllowed account.enablePush (settingsOf [deed]) := by
  cases deed with
  | call command => exact (sends_call account command).enablePush
  | control control => exact (sends_control account control).enablePush
  | credit sid increment =>
    obtain ⟨_, _, -, credited⟩ := addCredit_eq account sid increment
    rw [act, credited]
    rfl
  | setting entry =>
    obtain ⟨id, value⟩ := entry
    show (account.setting ⟨id, value⟩).enablePush = _
    cases id with
    | initialWindowSize =>
      unfold setting
      dsimp only
      split <;> rfl
    | maxFrameSize =>
      unfold setting
      dsimp only
      split <;> rfl
    | _ => rfl
  | _ => rfl

theorem enablePush_acts (account : Account) (deeds : List Deed) :
    (account.acts deeds).enablePush = pushAllowed account.enablePush (settingsOf deeds) := by
  induction deeds using List.reverseRecOn with
  | nil => rfl
  | append_singleton deeds deed inductionHypothesis =>
    rw [acts_append, settingsOf_append]
    show ((account.acts deeds).act deed).enablePush = _
    rw [enablePush_act, inductionHypothesis, pushAllowed, pushAllowed, pushAllowed,
      List.foldl_append]

/-- Deeds that take over no setting make no promise while the peer allows none. -/
theorem promisedIds_acts_of_disabled (account : Account) (deeds : List Deed)
    (sound : account.Sound) (unset : settingsOf deeds = []) (disabled : account.enablePush = false) :
    promisedIds (account.acts deeds).frames = promisedIds account.frames := by
  induction deeds generalizing account with
  | nil => rfl
  | cons deed deeds inductionHypothesis =>
    have both : settingsOf [deed] ++ settingsOf deeds = [] :=
      (settingsOf_append [deed] deeds).symm.trans unset
    obtain ⟨first, later⟩ := List.append_eq_nil_iff.mp both
    have still : (account.act deed).enablePush = false := by
      rw [enablePush_act, first]
      exact disabled
    have rest := inductionHypothesis _ (sound_act account deed sound) later still
    rcases act_promises account deed sound with none | ⟨enabled, -⟩
    · exact rest.trans none.promisedIds_eq
    · rw [disabled] at enabled
      exact absurd enabled Bool.false_ne_true

/-- Neither do the deeds of the session's own. -/
theorem promisedIds_acts_of_own (account : Account) (deeds : List Deed) (own : Own deeds) :
    promisedIds (account.acts deeds).frames = promisedIds account.frames := by
  induction deeds generalizing account with
  | nil => rfl
  | cons deed deeds inductionHypothesis =>
    obtain ⟨first, later⟩ := List.forall_mem_cons.mp own
    exact (inductionHypothesis (account.act deed) later).trans
      (makesNone_own account deed first).promisedIds_eq

end Account

namespace Connection

section Frames

variable (config : Config) (connection : Connection) (f : Frame)

/-- The settings in front of the first one that is invalid are taken over. -/
theorem settingsOf_applySettingsDeeds (settings : List SettingEntry) :
    settingsOf (applySettingsDeeds connection settings) = settings.takeWhile SettingEntry.valid := by
  induction settings with
  | nil => rfl
  | cons setting settings inductionHypothesis =>
    have taken (valid : setting.valid = true) :
        settingsOf (.setting setting :: applySettingsDeeds connection settings) =
          (setting :: settings).takeWhile SettingEntry.valid := by
      rw [List.takeWhile_cons_of_pos valid, ← inductionHypothesis]
      rfl
    have refused (invalid : setting.valid = false) :
        [] = (setting :: settings).takeWhile SettingEntry.valid := by
      rw [List.takeWhile_cons_of_neg (by rw [invalid]; exact Bool.false_ne_true)]
    obtain ⟨id, value⟩ := setting
    unfold applySettingsDeeds
    split
    · rename_i is
      cases is
      split
      · rename_i large
        exact refused (decide_eq_false (not_le.mpr large))
      · rename_i fits
        exact taken (decide_eq_true (not_lt.mp fits))
    · rename_i is
      cases is
      split
      · rename_i wrong
        refine refused ?_
        simp only [SettingEntry.valid, Bool.and_eq_false_iff, decide_eq_false_iff_not, not_le]
        exact wrong
      · rename_i fits
        refine taken ?_
        simp only [SettingEntry.valid, Bool.and_eq_true, decide_eq_true_eq]
        exact ⟨not_lt.mp fun low => fits (Or.inl low), not_lt.mp fun high => fits (Or.inr high)⟩
    · rename_i notWindow notSize
      refine taken ?_
      unfold SettingEntry.valid
      split
      · rename_i is
        exact absurd is notWindow
      · rename_i is
        exact absurd is notSize
      · rfl

theorem settingsOf_handleSettingsDeeds (type : f.hdr.type = .settings) :
    settingsOf (handleSettingsDeeds connection f) = f.settings.takeWhile SettingEntry.valid := by
  unfold handleSettingsDeeds Frame.settings
  by_cases stream : f.hdr.streamId = 0
  · rw [if_neg (not_not.mpr stream)]
    cases ack : f.hdr.hasFlag Flag.ack with
    | true => rw [if_pos rfl, if_neg fun all => absurd all.2.2.1 (by decide)]; rfl
    | false =>
      rw [if_neg Bool.false_ne_true]
      by_cases size : f.payload.length % settingsParamSize = 0
      · rw [if_neg (not_not.mpr size), if_pos ⟨type, stream, rfl, size⟩,
          settingsOf_applySettingsDeeds]
      · rw [if_pos size, if_neg fun all => size all.2.2.2]
        rfl
  · rw [if_pos stream, if_neg fun all => stream all.2.1]
    rfl

theorem settingsOf_updateDeeds (sid length : Nat) :
    settingsOf (updateDeeds connection sid length) = [] := by
  unfold updateDeeds
  cases windowIncrement _ with
  | none => cases windowIncrement _ <;> rfl
  | some granted => cases windowIncrement _ <;> rfl

theorem settingsOf_handleDataDeeds : settingsOf (handleDataDeeds config connection f) = [] := by
  by_cases refused : f.hdr.streamId = 0 ∨ connection.streams f.hdr.streamId = none ∨
      ∃ error, stripPadding f = .error error
  · exact (ordinary_handleDataDeeds config connection f refused).settingsOf
  · obtain ⟨nonzero, rest⟩ := not_or.mp refused
    obtain ⟨there, padding⟩ := not_or.mp rest
    obtain ⟨state, known⟩ := Option.ne_none_iff_exists'.mp there
    cases stripped : stripPadding f with
    | error error => exact absurd ⟨error, stripped⟩ padding
    | ok data =>
      obtain ⟨later, ordinary, are⟩ :=
        handleDataDeeds_known config connection f nonzero known stripped
      rw [are, settingsOf_append, settingsOf_append, ordinary.settingsOf, settingsOf_updateDeeds,
        (ordinary_deliverDeeds _ state data _).settingsOf]
      rfl

theorem settingsOf_handleWindowUpdateDeeds :
    settingsOf (handleWindowUpdateDeeds connection f) = [] := by
  by_cases invalid : f.payload.length ≠ 4 ∨ parseWindowUpdate f.payload = 0
  · exact (ordinary_handleWindowUpdateDeeds connection f invalid).settingsOf
  · obtain ⟨four, positive⟩ := not_or.mp invalid
    obtain ⟨later, ordinary, are⟩ :=
      handleWindowUpdateDeeds_valid connection f (not_not.mp four) positive
    rw [are]
    exact ordinary.settingsOf

theorem settings_of_type (other : f.hdr.type ≠ .settings) : f.settings = [] :=
  if_neg fun all => other all.1

/-- A frame has its settings taken over if no header block is incomplete, up to an invalid one. -/
theorem settingsOf_frameDeeds :
    settingsOf (frameDeeds config connection f) =
      if connection.continuationStream = 0 then f.settings.takeWhile SettingEntry.valid
        else [] := by
  split
  · rename_i idle
    by_cases settings : f.hdr.type = .settings
    · rw [frameDeeds_settings config connection f idle settings,
        settingsOf_handleSettingsDeeds _ f settings]
    rw [settings_of_type f settings, List.takeWhile_nil]
    by_cases data : f.hdr.type = .data
    · rw [frameDeeds_data config connection f idle data, settingsOf_handleDataDeeds]
    by_cases update : f.hdr.type = .windowUpdate
    · rw [frameDeeds_windowUpdate config connection f idle update,
        settingsOf_handleWindowUpdateDeeds]
    exact (ordinary_frameDeeds config connection f fun _ => ⟨data, update, settings⟩).settingsOf
  · rename_i waiting
    exact (ordinary_frameDeeds config connection f fun idle => absurd idle waiting).settingsOf

end Frames

end Connection

/-! ### Runs -/

namespace Session

/-- The settings that a session takes over in an action. -/
def takes (session : Session) : Action → List SettingEntry
  | .receive f =>
      if session.connection.alive ∧ session.connection.continuationStream = 0 then
        f.settings.takeWhile SettingEntry.valid
      else []
  | .op _ => []

/-- The settings that a session takes over in a run. -/
def takenSettings : Session → List Action → List SettingEntry
  | _, [] => []
  | session, action :: actions =>
      session.takes action ++
        match session.act action with
        | .error _ => []
        | .ok next => next.takenSettings actions

/-- The settings that are received in a run. -/
def receivedSettings (actions : List Action) : List SettingEntry :=
  actions.flatMap fun action =>
    match action with
    | .receive f => f.settings
    | .op _ => []

/-- The next action of a run makes a promise. -/
def Promises (mode : Mode) (front : List Action) (action : Action) : Prop :=
  promisedIds (account mode (front ++ [action])).frames ≠ promisedIds (account mode front).frames

theorem settingsOf_deeds (session : Session) (action : Action) :
    settingsOf (session.deeds action) = session.takes action := by
  cases action with
  | receive f =>
    rw [deeds, takes]
    cases session.connection.alive with
    | false => rfl
    | true =>
      rw [if_pos rfl, Connection.settingsOf_frameDeeds]
      simp only [true_and]
  | op op => cases op <;> rfl

theorem settingsOf_history (session : Session) (actions : List Action) :
    settingsOf (session.history actions) = session.takenSettings actions := by
  induction actions generalizing session with
  | nil => rfl
  | cons action actions inductionHypothesis =>
    unfold history takenSettings
    rw [settingsOf_append, settingsOf_deeds]
    cases session.act action with
    | error fault => rfl
    | ok next => rw [inductionHypothesis next]

theorem history_append (front more : List Action) (session middle : Session)
    (run : front.foldlM act session = .ok middle) :
    session.history (front ++ more) = session.history front ++ middle.history more := by
  induction front generalizing session with
  | nil =>
    cases run
    rfl
  | cons action front inductionHypothesis =>
    rw [List.foldlM_cons] at run
    obtain ⟨next, first, later⟩ := bind_ok run
    rw [List.cons_append, history, history, first, List.append_assoc]
    exact congrArg _ (inductionHypothesis next later)

theorem account_append (mode : Mode) (front : List Action) (action : Action) (middle : Session)
    (run : front.foldlM act (create mode) = .ok middle) :
    account mode (front ++ [action]) = (account mode front).acts (middle.deeds action) := by
  have last : middle.history [action] = middle.deeds action := by
    unfold history
    cases middle.act action with
    | error fault => exact List.append_nil _
    | ok next => exact List.append_nil _
  rw [account, history_append front [action] _ middle run, last, Account.acts_append]
  rfl

/-- An action that makes a promise is taken while the peer allows it. -/
theorem enablePush_of_promises (session : Session) (action : Action) (account : Account)
    (sound : account.Sound)
    (promises : promisedIds (account.acts (session.deeds action)).frames ≠
      promisedIds account.frames) : account.enablePush = true := by
  by_contra wrong
  have disabled := Bool.eq_false_of_not_eq_true wrong
  by_cases unset : session.takes action = []
  · refine promises (account.promisedIds_acts_of_disabled _ sound ?_ disabled)
    rw [settingsOf_deeds]
    exact unset
  · -- An action that takes over settings is a SETTINGS frame, which no application hears of.
    cases action with
    | op op => exact unset rfl
    | receive f =>
      rw [takes] at unset
      obtain ⟨alive, idle⟩ := of_not_not fun no => unset (if_neg no)
      have type : f.hdr.type = .settings := by
        by_contra other
        rw [if_pos ⟨alive, idle⟩, Connection.settings_of_type f other] at unset
        exact unset rfl
      rw [deeds, if_pos alive, Connection.frameDeeds_settings _ _ f idle type] at promises
      exact promises (account.promisedIds_acts_of_own _ (Connection.own_handleSettingsDeeds f))

theorem alive_op (session : Session) (op : Op) :
    (session.op op).connection.alive = session.connection.alive := by
  cases op with
  | call command => exact (Connection.quiet_command session.connection command).alive
  | _ => rfl

end Session

namespace Connection

/-- A session that survives settings has taken over all of them. -/
theorem takeWhile_valid_of_alive (connection : Connection) (settings : List SettingEntry)
    (alive : (connection.applySettings settings).alive = true) :
    settings.takeWhile SettingEntry.valid = settings := by
  induction settings generalizing connection with
  | nil => rfl
  | cons setting settings inductionHypothesis =>
    have goes (next : Connection) (valid : setting.valid = true)
        (alive : (next.applySettings settings).alive = true) :
        (setting :: settings).takeWhile SettingEntry.valid = setting :: settings := by
      rw [List.takeWhile_cons_of_pos valid, inductionHypothesis next alive]
    obtain ⟨id, value⟩ := setting
    cases id with
    | initialWindowSize =>
      unfold applySettings at alive
      dsimp only at alive
      split at alive
      · exact absurd alive Bool.false_ne_true
      · rename_i fits
        exact goes _ (decide_eq_true (not_lt.mp fits)) alive
    | maxFrameSize =>
      unfold applySettings at alive
      dsimp only at alive
      split at alive
      · exact absurd alive Bool.false_ne_true
      · rename_i fits
        refine goes _ ?_ alive
        simp only [SettingEntry.valid, Bool.and_eq_true, decide_eq_true_eq]
        exact ⟨not_lt.mp fun low => fits (Or.inl low), not_lt.mp fun high => fits (Or.inr high)⟩
    | headerTableSize => exact goes _ rfl alive
    | enablePush => exact goes _ rfl alive
    | maxConcurrentStreams => exact goes _ rfl alive
    | maxHeaderListSize => exact goes _ rfl alive
    | unknown id => exact goes _ rfl alive

/-- A session that survives a frame has taken over the settings in it. -/
theorem settings_of_alive (config : Config) (connection next : Connection) (f : Frame)
    (processed : connection.processFrame config f = .ok next) (alive : next.alive = true) :
    (if connection.continuationStream = 0 then f.settings.takeWhile SettingEntry.valid else []) =
      f.settings := by
  have waits : (connection.record (.frame f)).continuationStream =
      connection.continuationStream := rfl
  by_cases type : f.hdr.type = .settings
  · unfold processFrame at processed
    dsimp only at processed
    rw [waits] at processed
    by_cases idle : connection.continuationStream = 0
    · rw [if_neg (not_not.mpr idle), type] at processed
      rw [if_pos idle, Frame.settings]
      split
      · rename_i all
        rw [← Except.ok.inj processed, handleSettings, if_neg (not_not.mpr all.2.1),
          if_neg (by rw [all.2.2.1]; exact Bool.false_ne_true),
          if_neg (not_not.mpr all.2.2.2)] at alive
        exact takeWhile_valid_of_alive _ _ alive
      · rfl
    · rw [if_pos idle, if_pos (Or.inl (by rw [type]; decide))] at processed
      rw [← Except.ok.inj processed] at alive
      exact absurd alive Bool.false_ne_true
  · rw [settings_of_type f type]
    exact ite_self []

end Connection

namespace Session

/-- As long as it is alive, a session takes over the settings that it receives. -/
theorem takes_of_alive (session next : Session) (action : Action)
    (acted : session.act action = .ok next) (alive : next.connection.alive = true) :
    session.connection.alive = true ∧ session.takes action = receivedSettings [action] := by
  cases action with
  | op op =>
    cases acted
    rw [alive_op] at alive
    exact ⟨alive, rfl⟩
  | receive f =>
    rw [act] at acted
    cases going : session.connection.alive with
    | false =>
      rw [if_neg (by rw [going]; exact Bool.false_ne_true)] at acted
      cases acted
      rw [going] at alive
      exact absurd alive Bool.false_ne_true
    | true =>
      rw [if_pos going] at acted
      obtain ⟨connection, processed, rfl⟩ := map_ok acted
      have all := Connection.settings_of_alive session.config session.connection connection f
        processed alive
      refine ⟨rfl, ?_⟩
      rw [takes, going]
      simp only [true_and]
      rw [all]
      exact (List.append_nil _).symm

theorem taken_of_alive (actions : List Action) (session final : Session)
    (run : actions.foldlM act session = .ok final) (alive : final.connection.alive = true) :
    session.connection.alive = true ∧ session.takenSettings actions = receivedSettings actions := by
  induction actions generalizing session with
  | nil =>
    cases run
    exact ⟨alive, rfl⟩
  | cons action actions inductionHypothesis =>
    rw [List.foldlM_cons] at run
    obtain ⟨next, first, later⟩ := bind_ok run
    obtain ⟨nextAlive, rest⟩ := inductionHypothesis next later
    obtain ⟨going, now⟩ := takes_of_alive session next action first nextAlive
    refine ⟨going, ?_⟩
    unfold takenSettings
    rw [first, now]
    dsimp only
    rw [rest]
    exact List.flatMap_append.symm

/-- In every run of a server with fewer than 2^29 promises the streams that are promised are even
and in strictly increasing order, right behind every promise stands a complete response, and no
promise is made while the last ENABLE_PUSH setting that has been taken over is 0. As long as the
session is alive that is the last one it has received. -/
theorem pushDiscipline (actions : List Action) (final : Session)
    (run : actions.foldlM act (create .server) = .ok final)
    (few : (promisedIds (account .server actions).frames).length < 2 ^ 29) :
    Refines (account .server actions) final.connection ∧
      (∀ id ∈ promisedIds (account .server actions).frames, id % 2 = 0) ∧
      (promisedIds (account .server actions).frames).Pairwise (· < ·) ∧
      (promisedIds (account .server actions).frames).Nodup ∧
      Answered (account .server actions).frames ∧
      ∀ front action middle, front ++ [action] <+: actions →
        front.foldlM act (create .server) = .ok middle → Promises .server front action →
        lastEnablePush ((create .server).takenSettings front) ≠ some 0 ∧
          (middle.connection.alive = true → lastEnablePush (receivedSettings front) ≠ some 0) := by
  have disciplined : (account .server actions).Disciplined :=
    Account.disciplined_acts .server _ few
  have increasing := disciplined.increasing few
  refine ⟨refines_account .server actions final run, disciplined.even, increasing,
    increasing.imp Nat.ne_of_lt, disciplined.answered, ?_⟩
  · intro front action middle isPrefix ran promises
    rw [Promises, account_append .server front action middle ran] at promises
    have enabled := enablePush_of_promises middle action (account .server front)
      (Account.sound_acts .server _) promises
    rw [account, Account.enablePush_acts, settingsOf_history] at enabled
    have last := (pushAllowed_iff _).mp enabled
    refine ⟨last, fun alive => ?_⟩
    rw [← (taken_of_alive front _ middle ran alive).2]
    exact last

/-- Two promises that the owner makes, with settings of the peer between them. -/
def promising : List Action :=
  [.op (.call (.submitPush 1 { path := ascii "/a" } {})), .receive settingsFrame,
    .op (.call (.submitPush 1 { path := ascii "/b" } { bd := ascii "b" }))]

theorem pushDiscipline_promising :
    promisedIds (account .server promising).frames = [2, 4] ∧
      Answered (account .server promising).frames ∧
      (promisedIds (account .server promising).frames).Pairwise (· < ·) := by
  have ids : promisedIds (account .server promising).frames = [2, 4] := by decide +kernel
  obtain ⟨-, -, increasing, -, answered, -⟩ :=
    pushDiscipline promising _ rfl (by rw [ids]; decide)
  exact ⟨ids, answered, increasing⟩

/-- Settings that forbid promises behind a window that is too large. -/
def refusedSettings : Frame :=
  .ofPayload .settings 0 0
    ([⟨.initialWindowSize, 2 ^ 31⟩, ⟨.enablePush, 0⟩].flatMap putSetting)

/-- A session that has given up the connection has not heard that promises are forbidden. -/
theorem promises_after_refusedSettings :
    ∃ final, [.receive refusedSettings, .op (.call (.submitPush 1 {} {}))].foldlM act
        (create .server) = .ok final ∧
      promisedIds (account .server
        [.receive refusedSettings, .op (.call (.submitPush 1 {} {}))]).frames = [2] ∧
      Promises .server [.receive refusedSettings] (.op (.call (.submitPush 1 {} {}))) ∧
      lastEnablePush (receivedSettings [.receive refusedSettings]) = some 0 := by
  refine ⟨_, rfl, by decide +kernel, ?_, by decide +kernel⟩
  unfold Promises
  decide +kernel

end Session

end AsyncNet.Http
