/-
This file is about the windows that a session has to keep to when it sends data. A
session does not look at its send windows before it sends: it stays within what the peer
allows if and only if every body it is given does, and its window for the connection
only ever grows.
-/

import AsyncNet.Http.Http2History
import AsyncNet.Http.HpackLongString

namespace AsyncNet.Http

open Library H2

/-! ### The data of frames -/

section Data

variable (scope sid size : Nat)

/-- The data of a body counts for its stream and for the connection. -/
def weight (length : Nat) : Nat := if scope = 0 ∨ scope = sid then length else 0

theorem load_data (flags : UInt8) (payload : Bytes) :
    (Frame.ofPayload .data flags sid payload).load scope = weight scope sid payload.length := by
  unfold Frame.load weight
  exact if_congr (and_iff_right rfl) rfl rfl

theorem loads_splitInto (positive : 0 < size) (lastFlags : UInt8) (count : Nat) (rest : Bytes)
    (enough : rest.length ≤ count) :
    loads scope (splitInto .data lastFlags sid size count rest) = weight scope sid rest.length := by
  induction count generalizing rest with
  | zero =>
    rw [List.length_eq_zero_iff.mp (Nat.le_zero.mp enough)]
    exact (ite_self 0).symm
  | succ count inductionHypothesis =>
    unfold splitInto
    split
    · rename_i empty
      rw [empty]
      exact (ite_self 0).symm
    · rename_i nonempty
      have some := List.length_pos_iff.mpr nonempty
      have fewer : (rest.drop size).length ≤ count := by
        rw [List.length_drop]
        omega
      rw [loads_cons, load_data, inductionHypothesis (rest.drop size) fewer]
      unfold weight
      split
      · rw [List.length_take, List.length_drop]
        omega
      · rfl

theorem loads_bodyFrames (positive : 0 < size) (noEndStream : Bool) (body : Bytes) :
    loads scope (bodyFrames sid noEndStream size body) = weight scope sid body.length :=
  loads_splitInto scope sid size positive _ _ body le_rfl

theorem loads_dataFrames (positive : 0 < size) (data : Bytes) (endStream : Bool) :
    loads scope (Account.dataFrames sid size data endStream) = weight scope sid data.length := by
  unfold Account.dataFrames
  dsimp only
  split
  · rename_i empty
    rw [empty, loads_cons, load_data]
    rfl
  · exact loads_splitInto scope sid size positive _ _ data le_rfl

theorem Control.load_frame (control : Control) : control.frame.load scope = 0 := by
  cases control <;> rfl

end Data

/-! ### What a session sends -/

namespace Account

/-- The stream and the length of the body that a call sends. -/
def body (account : Account) : Command → Nat × Nat
  | .submitResponse sid resp => (sid, resp.bd.length)
  | .submitData sid data _ => (sid, data.length)
  | .submitRequest req _ _ => (account.nextStreamId, req.bd.length)
  | .submitPush _ _ resp =>
      if account.enablePush then (account.nextPushStreamId, resp.bd.length) else (0, 0)
  | _ => (0, 0)

/-- The data that a deed sends. -/
def burden (account : Account) (scope : Nat) : Deed → Nat
  | .call command => weight scope (account.body command).1 (account.body command).2
  | _ => 0

section Loads

variable (account : Account) (scope : Nat)

theorem loads_sendHeaders (sid : Nat) (flags : UInt8) (headers : Headers) :
    loads scope (account.sendHeaders sid flags headers).frames = loads scope account.frames := by
  unfold sendHeaders
  dsimp only
  rw [frames_enqueue, loads_append, loads_headerFrames]
  rfl

theorem loads_sendTrailers (sid : Nat) (trailers : Headers) :
    loads scope (account.sendTrailers sid trailers).frames = loads scope account.frames := by
  unfold sendTrailers
  split
  · exact loads_sendHeaders account scope sid _ _
  · rfl

theorem loads_sendData (sid : Nat) (frames : List Frame) :
    loads scope (account.sendData sid frames).frames =
      loads scope account.frames + loads scope frames := by
  unfold sendData
  rw [frames_enqueue, loads_append]
  rfl

theorem loads_sendBody (sound : account.Sound) (sid : Nat) (body : Bytes) (noEndStream : Bool) :
    loads scope (account.sendBody sid body noEndStream).frames =
      loads scope account.frames + weight scope sid body.length := by
  unfold sendBody
  rw [loads_sendData, loads_bodyFrames scope sid account.maxFrameSize sound.positive]

theorem loads_submitResponse (sound : account.Sound) (sid : Nat) (resp : Response) :
    loads scope (account.submitResponse sid resp).frames =
      loads scope account.frames + weight scope sid resp.bd.length := by
  have started := (sends_sendHeaders account sid
    (if resp.bd ≠ [] ∨ resp.trailers ≠ [] then 0 else Flag.endStream)
    (Connection.responseHeaders resp)).sound sound
  unfold submitResponse
  rw [loads_sendTrailers, loads_sendBody _ _ started, loads_sendHeaders]

theorem loads_call (sound : account.Sound) (command : Command) :
    loads scope (account.call command).frames =
      loads scope account.frames + account.burden scope (.call command) := by
  have nothing : loads scope account.frames + weight scope 0 0 = loads scope account.frames :=
    congrArg _ (ite_self 0)
  cases command with
  | submitResponse sid resp => exact loads_submitResponse account scope sound sid resp
  | submitResponseHeaders sid resp =>
    exact (loads_sendHeaders account scope sid _ _).trans nothing.symm
  | submitData sid data endStream =>
    refine (loads_sendData account scope sid _).trans (congrArg _ ?_)
    exact loads_dataFrames scope sid account.maxFrameSize sound.positive data endStream
  | submitTrailers sid trailers =>
    exact (loads_sendHeaders account scope sid _ _).trans nothing.symm
  | submitRequest req promise noEndStream =>
    refine (loads_sendBody _ scope ?_ _ _ _).trans ?_
    · exact (sends_sendHeaders (account.beginRequest promise) _ _ _).sound sound
    · rw [loads_sendHeaders]
      rfl
  | submitPush parent req resp =>
    show loads scope (account.submitPush parent req resp).frames =
      _ + weight scope (account.body (.submitPush parent req resp)).1 _
    unfold body
    cases enabled : account.enablePush with
    | false =>
      rw [submitPush_of_disabled account parent req resp enabled]
      exact nothing.symm
    | true =>
      have announced : loads scope (account.announce parent req).frames =
          loads scope account.frames := by
        show loads scope (enqueue _ _).frames = _
        rw [frames_enqueue, loads_append]
        rfl
      have sends : Sends account (account.announce parent req) := { Sends.refl account with }
      rw [submitPush_of_enabled account parent req resp enabled,
        loads_submitResponse _ _ (sends.sound sound), announced]
      rfl
  | _ => exact nothing.symm

theorem loads_control (control : Control) :
    loads scope (account.control control).frames = loads scope account.frames := by
  have sent : loads scope (account.enqueue [control.frame]).frames =
    loads scope account.frames := by
    rw [frames_enqueue, loads_append, loads_cons, Control.load_frame]
    rfl
  cases control with
  | _ => exact sent

theorem loads_addCredit (sid increment : Nat) :
    loads scope (account.addCredit sid increment).frames = loads scope account.frames := by
  obtain ⟨_, replies, are, credited⟩ := addCredit_eq account sid increment
  have nothing : loads scope replies = 0 := by
    refine loads_of_ne scope replies fun f member => ?_
    rw [are f member]
    exact nofun
  rw [credited]
  show loads scope ((account.recordCredit sid increment).enqueue replies).frames = _
  rw [frames_enqueue, loads_append, nothing]
  rfl

/-- Only calls send data. -/
theorem loads_act (sound : account.Sound) (deed : Deed) :
    loads scope (account.act deed).frames =
      loads scope account.frames + account.burden scope deed := by
  cases deed with
  | call command => exact loads_call account scope sound command
  | control control => exact loads_control account scope control
  | credit sid increment => exact loads_addCredit account scope sid increment
  | grant increment =>
    show loads scope (account.enqueue [windowUpdateFrame 0 increment]).frames = _
    rw [frames_enqueue, loads_append]
    rfl
  | setting entry =>
    show loads scope (account.setting entry).frames = _
    rw [frames_setting]
    rfl
  | _ => rfl

theorem loads_acts_le (sound : account.Sound) (deeds : List Deed) :
    loads scope account.frames ≤ loads scope (account.acts deeds).frames := by
  induction deeds generalizing account with
  | nil => exact le_rfl
  | cons deed deeds inductionHypothesis =>
    have first := loads_act account scope sound deed
    exact (Nat.le.intro first.symm).trans
      (inductionHypothesis (account.act deed) (account.sound_act deed sound))

end Loads

/-! ### What the peer allows -/

/-- The data that the peer allows a stream, or the connection: the initial window and the credit
that has been received. -/
def allowance (account : Account) (scope : Nat) : Nat :=
  (if scope = 0 then 65535 else account.initialWindow) + account.credit scope

/-- Every stream and the connection are within what the peer allows. -/
def Within (account : Account) : Prop :=
  ∀ scope, loads scope account.frames ≤ account.allowance scope

/-- There is room for the body that a call sends, and an initial window leaves room for what has
been sent. -/
def HasRoom (account : Account) : Deed → Prop
  | .call command =>
      ∀ scope, scope = 0 ∨ scope = (account.body command).1 →
        loads scope account.frames + (account.body command).2 ≤ account.allowance scope
  | .setting entry =>
      entry.id = .initialWindowSize → entry.value ≤ maxWindowSize →
        ∀ sid ≠ 0, loads sid account.frames ≤ entry.value + account.credit sid
  | _ => True

theorem Sends.allowance {before after : Account} (sends : Sends before after) (scope : Nat) :
    after.allowance scope = before.allowance scope := by
  rw [Account.allowance, sends.initialWindow, sends.credit]
  rfl

section Rooms

variable (account : Account)

theorem allowance_addCredit (sid increment scope : Nat) :
    account.allowance scope ≤ (account.addCredit sid increment).allowance scope := by
  obtain ⟨_, _, -, credited⟩ := addCredit_eq account sid increment
  rw [credited]
  refine Nat.add_le_add_left ?_ _
  show account.credit scope ≤ if scope = sid then account.credit scope + increment else _
  split
  · exact Nat.le_add_right _ _
  · exact le_rfl

theorem within_call (sound : account.Sound) (within : account.Within) (command : Command) :
    (account.call command).Within ↔ account.HasRoom (.call command) := by
  refine forall_congr' fun scope => ?_
  rw [loads_call account scope sound, (sends_call account command).allowance, burden, weight]
  by_cases counts : scope = 0 ∨ scope = (account.body command).1
  · rw [if_pos counts]
    exact ⟨fun fits _ => fits, fun fits => fits counts⟩
  · rw [if_neg counts]
    exact iff_of_true (within scope) fun impossible => absurd impossible counts

theorem within_setting (within : account.Within) (entry : SettingEntry) :
    (account.setting entry).Within ↔ account.HasRoom (.setting entry) := by
  have frames := account.frames_setting entry
  have other (different : entry.id ≠ .initialWindowSize)
      (same : ∀ scope, (account.setting entry).allowance scope = account.allowance scope) :
      (account.setting entry).Within ↔ account.HasRoom (.setting entry) := by
    refine iff_of_true (fun scope => ?_) fun impossible => absurd impossible different
    rw [frames, same]
    exact within scope
  obtain ⟨id, value⟩ := entry
  cases id with
  | initialWindowSize =>
    by_cases valid : value ≤ maxWindowSize
    · have taken (scope : Nat) : (account.setting ⟨.initialWindowSize, value⟩).allowance scope =
          (if scope = 0 then 65535 else value) + account.credit scope := by
        unfold setting
        dsimp only
        rw [if_neg (not_lt.mpr valid)]
        rfl
      constructor
      · intro fits _ _ sid nonzero
        have room := fits sid
        rw [frames, taken, if_neg nonzero] at room
        exact room
      · intro room scope
        have before := within scope
        unfold allowance at before
        rw [frames, taken]
        by_cases zero : scope = 0
        · rw [if_pos zero] at before ⊢
          exact before
        · rw [if_neg zero]
          exact room rfl valid scope zero
    · have ignored : account.setting ⟨.initialWindowSize, value⟩ = account :=
        if_pos (not_le.mp valid)
      rw [ignored]
      exact iff_of_true within fun _ impossible => absurd impossible valid
  | maxFrameSize =>
    refine other nofun fun scope => ?_
    unfold setting
    dsimp only
    split <;> rfl
  | _ => exact other nofun fun _ => rfl

/-- A deed stays within what the peer allows if and only if there is room for it. -/
theorem within_act (deed : Deed) (sound : account.Sound) (within : account.Within) :
    (account.act deed).Within ↔ account.HasRoom deed := by
  cases deed with
  | call command => exact within_call account sound within command
  | setting entry => exact within_setting account within entry
  | credit sid increment =>
    refine iff_of_true (fun scope => ?_) trivial
    rw [loads_act account scope sound]
    exact (within scope).trans (allowance_addCredit account sid increment scope)
  | control control =>
    refine iff_of_true (fun scope => ?_) trivial
    rw [loads_act account scope sound]
    exact (within scope).trans_eq ((sends_control account control).allowance scope).symm
  | grant increment =>
    refine iff_of_true (fun scope => ?_) trivial
    rw [loads_act account scope sound]
    exact within scope
  | _ => exact iff_of_true within trivial

end Rooms

theorem within_create (mode : Mode) : (create mode).Within := fun _ => Nat.zero_le _

end Account

/-! ### Runs -/

namespace Session

/-- At every moment of a run the data that has been sent is within what the peer allows if and only
if there was room for every body and in every new initial window. -/
theorem within_iff (mode : Mode) (actions : List Action) (final : Session)
    (run : actions.foldlM act (create mode) = .ok final) :
    Refines (account mode actions) final.connection ∧
      ((∀ front, front <+: (create mode).history actions →
          ((Account.create mode).acts front).Within) ↔
        Throughout Account.act Account.HasRoom (Account.create mode)
          ((create mode).history actions)) :=
  ⟨refines_account mode actions final run,
    forall_prefix_iff_throughout (fun account deed => account.sound_act deed)
      (fun account deed => account.within_act deed) _ _ (Account.sound_create mode)
      (Account.within_create mode)⟩

/-- A request with a short body after a small initial window, and credit for it. -/
theorem within_short_body :
    ∃ final, [.receive (.ofPayload .settings 0 0 (putSetting ⟨.initialWindowSize, 100⟩)),
        .op (.call (.submitRequest { bd := ascii "hello" } none false)),
        .receive (windowUpdateFrame 1 10)].foldlM act (create .client) = .ok final ∧
      ∀ front, front <+: (create .client).history
          [.receive (.ofPayload .settings 0 0 (putSetting ⟨.initialWindowSize, 100⟩)),
            .op (.call (.submitRequest { bd := ascii "hello" } none false)),
            .receive (windowUpdateFrame 1 10)] →
        ((Account.create .client).acts front).Within := by
  refine ⟨_, rfl, (within_iff .client _ _ rfl).2.mpr ⟨?_, trivial, ?_, trivial, trivial⟩⟩
  · rintro - - sid -
    exact Nat.zero_le _
  · rintro scope (rfl | rfl)
    · decide
    · decide

/-- A body of 65536 bytes is sent at once, without any credit. -/
theorem not_within_long_body :
    ∃ final, [Action.op (.call (.submitRequest { bd := letters 65536 } none false))].foldlM act
        (create .client) = .ok final ∧
      Refines (account .client [.op (.call (.submitRequest { bd := letters 65536 } none false))])
        final.connection ∧
      ¬ (account .client [.op (.call (.submitRequest { bd := letters 65536 } none false))]
        ).Within := by
  refine ⟨_, rfl, refines_account .client _ _ rfl, fun within => ?_⟩
  have room := (Account.within_call (Account.create .client) (Account.sound_create .client)
    (Account.within_create .client) (.submitRequest { bd := letters 65536 } none false)).mp within 0
    (Or.inl rfl)
  have length : ((Account.create .client).body
      (.submitRequest { bd := letters 65536 } none false)).2 = 65536 := length_letters 65536
  rw [length] at room
  exact absurd room (show ¬ 0 + 65536 ≤ 65535 + 0 by decide)

end Session

end AsyncNet.Http
