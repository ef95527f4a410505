/-
This file is about the send windows of the streams. A stream starts with the default
window, whatever initial window the peer has announced, and its window is not lowered by
the data that is sent: it is the window that the peer reckons with if and only if every
stream is created under the default, no data is sent on one, and no initial window raises
a stream beyond the limit.
-/

import AsyncNet.Http.Http2SendWindows

namespace AsyncNet.Http

open Library H2

/-! ### Balanced streams -/

/-- The window of a stream is the initial window with the credit received, less the data sent, and
it is within the limit unless the stream has been reset. -/
def StreamAccount.Balanced (initial : Nat) (state : StreamAccount) : Prop :=
  state.window = initial + state.credit - state.sent ∧
    (state.reset = false → state.window ≤ maxWindowSize)

/-- Every stream is balanced. -/
def AllBalanced (initial : Nat) (streams : Nat → Option StreamAccount) : Prop :=
  ∀ sid state, streams sid = some state → state.Balanced initial

/-- A change to one stream keeps the balance if and only if that stream is balanced after it. -/
theorem allBalanced_update {initial : Nat} {streams : Nat → Option StreamAccount}
    (balanced : AllBalanced initial streams) (sid : Nat) (new : Option StreamAccount) :
    AllBalanced initial (fun other => if other = sid then new else streams other) ↔
      ∀ state, new = some state → state.Balanced initial := by
  constructor
  · intro all state is
    exact all sid state ((if_pos rfl).trans is)
  · intro one other state is
    dsimp only at is
    split at is
    · exact one state is
    · exact balanced other state is

namespace StreamAccount

section Changes

variable {initial : Nat} {state : StreamAccount}

theorem balanced_new : ({} : StreamAccount).Balanced initial ↔ initial = 65535 := by
  unfold Balanced
  constructor
  · rintro ⟨window, _⟩
    push_cast at window
    omega
  · rintro rfl
    exact ⟨by decide, fun _ => by decide⟩

/-- Data that is sent is not taken off the window. -/
theorem balanced_sent (balanced : state.Balanced initial) (length : Nat) :
    { state with sent := state.sent + length }.Balanced initial ↔ length = 0 := by
  obtain ⟨window, limit⟩ := balanced
  constructor
  · rintro ⟨window', _⟩
    push_cast at window'
    omega
  · rintro rfl
    exact ⟨window, limit⟩

theorem balanced_new_sent (length : Nat) :
    ({ sent := length } : StreamAccount).Balanced initial ↔ initial = 65535 + length := by
  constructor
  · rintro ⟨window, _⟩
    push_cast at window
    omega
  · rintro rfl
    refine ⟨?_, fun _ => (by decide : (65535 : Int) ≤ maxWindowSize)⟩
    push_cast
    omega

theorem balanced_reset (balanced : state.Balanced initial) :
    { state with reset := true }.Balanced initial := ⟨balanced.1, nofun⟩

/-- A new initial window moves the window along. -/
theorem balanced_setting (balanced : state.Balanced initial) (value : Nat) :
    { state with window := state.window + ((value : Int) - initial) }.Balanced value ↔
      (state.reset = false → value + state.credit ≤ maxWindowSize + state.sent) := by
  obtain ⟨window, limit⟩ := balanced
  have moved : state.window + ((value : Int) - initial) = value + state.credit - state.sent := by
    omega
  refine (and_iff_right moved).trans (imp_congr_right fun _ => ?_)
  dsimp only
  rw [moved]
  omega

end Changes

end StreamAccount

namespace Account

/-! ### Calls -/

/-- Whether a call creates the stream that it sends on. -/
def opens (account : Account) : Command → Bool
  | .submitRequest _ _ _ => true
  | .submitPush _ _ _ => account.enablePush
  | _ => false

/-- The stream that a call sends on, before the data is counted. -/
def opened (account : Account) (command : Command) : Option StreamAccount :=
  let state := account.streams (account.body command).1
  if account.opens command then some (state.getD {}) else state

section Calls

variable (account : Account)

theorem streams_sendTrailers (sid : Nat) (trailers : Headers) :
    (account.sendTrailers sid trailers).streams = account.streams := by
  unfold sendTrailers
  split <;> rfl

theorem streams_sendData (sid : Nat) (frames : List Frame) (length : Nat)
    (load : loads sid frames = length) :
    (account.sendData sid frames).streams = fun other =>
      if other = sid then
        (account.streams sid).map fun state => { state with sent := state.sent + length }
      else account.streams other := by
  unfold sendData
  rw [load]
  rfl

theorem weight_self (sid length : Nat) : weight sid sid length = length := if_pos (Or.inr rfl)

theorem streams_sendBody (sound : account.Sound) (sid : Nat) (body : Bytes) (noEndStream : Bool) :
    (account.sendBody sid body noEndStream).streams = fun other =>
      if other = sid then
        (account.streams sid).map fun state => { state with sent := state.sent + body.length }
      else account.streams other := by
  refine streams_sendData account sid _ _ ?_
  rw [loads_bodyFrames sid sid _ sound.positive, weight_self]

theorem streams_submitResponse (sound : account.Sound) (sid : Nat) (resp : Response) :
    (account.submitResponse sid resp).streams = fun other =>
      if other = sid then
        (account.streams sid).map fun state => { state with sent := state.sent + resp.bd.length }
      else account.streams other := by
  unfold submitResponse
  rw [streams_sendTrailers, streams_sendBody _ ((sends_sendHeaders account sid _ _).sound sound)]
  rfl

theorem streams_call (sound : account.Sound) (command : Command) :
    (account.call command).streams = fun other =>
      if other = (account.body command).1 then
        (account.opened command).map fun state =>
          { state with sent := state.sent + (account.body command).2 }
      else account.streams other := by
  have nothing : account.streams = fun other =>
      if other = 0 then (account.streams 0).map fun state => { state with sent := state.sent + 0 }
      else account.streams other := by
    funext other
    split
    · rename_i zero
      rw [zero]
      exact Option.map_id'.symm
    · rfl
  have entered (before : Account) (sid length : Nat)
      (there : before.streams = (account.enter sid).streams) :
      (fun other =>
        if other = sid then
          (before.streams sid).map fun state => { state with sent := state.sent + length }
        else before.streams other) = fun other =>
      if other = sid then
        (some ((account.streams sid).getD {})).map fun state =>
          { state with sent := state.sent + length }
      else account.streams other := by
    funext other
    rw [there]
    by_cases same : other = sid
    · rw [if_pos same, if_pos same, streams_enter]
    · rw [if_neg same, if_neg same, streams_enter_of_ne account sid other same]
  cases command with
  | submitResponse sid resp => exact streams_submitResponse account sound sid resp
  | submitData sid data endStream =>
    refine streams_sendData account sid _ _ ?_
    rw [loads_dataFrames sid sid _ sound.positive, weight_self]
    rfl
  | submitRequest req promise noEndStream =>
    refine (streams_sendBody _ ?_ _ _ _).trans ?_
    · exact (sends_sendHeaders (account.beginRequest promise) _ _ _).sound sound
    · exact entered (account.beginRequest promise) _ _ rfl
  | submitPush parent req resp =>
    show (account.submitPush parent req resp).streams = _
    unfold opened opens body
    cases enabled : account.enablePush with
    | false =>
      rw [submitPush_of_disabled account parent req resp enabled]
      exact nothing
    | true =>
      have sends : Sends account (account.announce parent req) := { Sends.refl account with }
      rw [submitPush_of_enabled account parent req resp enabled,
        streams_submitResponse _ (sends.sound sound)]
      exact entered (account.announce parent req) _ _ rfl
  | _ => exact nothing

/-- The data of a call keeps the balance: there is none on a stream that is there, and a stream that
is created has the window of its initial window and its data. -/
def CallBalances (account : Account) (command : Command) : Prop :=
  match account.streams (account.body command).1 with
  | some _ => (account.body command).2 = 0
  | none =>
      account.opens command = true → account.initialWindow = 65535 + (account.body command).2

theorem allBalanced_call (sound : account.Sound)
    (balanced : AllBalanced account.initialWindow account.streams) (command : Command) :
    AllBalanced account.initialWindow (account.call command).streams ↔
      account.CallBalances command := by
  rw [streams_call account sound, allBalanced_update balanced]
  unfold CallBalances opened
  dsimp only
  cases found : account.streams (account.body command).1 with
  | none =>
    cases account.opens command with
    | false => exact iff_of_true nofun nofun
    | true =>
      refine Iff.trans ?_ (forall_prop_of_true rfl).symm
      refine Iff.trans ?_ (StreamAccount.balanced_new_sent (account.body command).2)
      show (∀ state, some ({ sent := 0 + (account.body command).2 } : StreamAccount) = some state →
        state.Balanced account.initialWindow) ↔ _
      rw [Nat.zero_add]
      exact ⟨fun all => all _ rfl, fun one state same => Option.some.inj same ▸ one⟩
  | some state =>
    have before := balanced _ state found
    have same : (if account.opens command = true then some ((some state).getD {}) else some state) =
        some state := ite_self _
    rw [same]
    refine Iff.trans ?_ (StreamAccount.balanced_sent before (account.body command).2)
    exact ⟨fun all => all _ rfl, fun one state same => Option.some.inj same ▸ one⟩

end Calls

/-! ### Deeds -/

/-- The streams of an account that is alive are balanced. -/
def Balanced (account : Account) : Prop :=
  account.alive = true → AllBalanced account.initialWindow account.streams

/-- A new initial window leaves every stream within the limit. -/
def SettingBalances (account : Account) (entry : SettingEntry) : Prop :=
  entry.id = .initialWindowSize → entry.value ≤ maxWindowSize →
    ∀ sid state, account.streams sid = some state → state.reset = false →
      entry.value + state.credit ≤ maxWindowSize + state.sent

/-- A deed keeps the balance. -/
def KeepsBalance (account : Account) (deed : Deed) : Prop :=
  account.alive = true →
    match deed with
    | .call command => account.CallBalances command
    | .enter sid => account.streams sid = none → account.initialWindow = 65535
    | .setting entry => account.SettingBalances entry
    | _ => True

section Deeds

variable (account : Account)

theorem allBalanced_enter (balanced : AllBalanced account.initialWindow account.streams)
    (sid : Nat) :
    AllBalanced account.initialWindow (account.enter sid).streams ↔
      (account.streams sid = none → account.initialWindow = 65535) := by
  refine (allBalanced_update balanced sid _).trans ?_
  cases found : account.streams sid with
  | none =>
    refine Iff.trans ?_ (forall_prop_of_true rfl).symm
    refine Iff.trans ?_ StreamAccount.balanced_new
    exact ⟨fun all => all _ rfl, fun one state same => Option.some.inj same ▸ one⟩
  | some state =>
    refine iff_of_true (fun other same => ?_) nofun
    exact Option.some.inj same ▸ balanced sid state found

theorem allBalanced_control (balanced : AllBalanced account.initialWindow account.streams)
    (control : Control) :
    AllBalanced account.initialWindow (account.control control).streams := by
  cases control with
  | reset sid error =>
    refine (allBalanced_update balanced sid _).mpr fun state is => ?_
    obtain ⟨before, found, rfl⟩ := Option.map_eq_some_iff.mp is
    exact StreamAccount.balanced_reset (balanced sid before found)
  | _ => exact balanced

theorem allBalanced_creditStream (balanced : AllBalanced account.initialWindow account.streams)
    (sid increment : Nat) :
    AllBalanced account.initialWindow (account.creditStream sid increment).streams := by
  unfold creditStream
  cases found : account.streams sid with
  | none => exact balanced
  | some state =>
    obtain ⟨window, limit⟩ := balanced sid state found
    have equal : state.window + increment =
        account.initialWindow + (state.credit + increment : Nat) - state.sent := by
      push_cast
      omega
    dsimp only
    split
    · have reset : ((account.modifyStream sid fun state =>
          { state with
            window := state.window + increment, credit := state.credit + increment }).control
          (.reset sid .flowControlError)).streams = fun other =>
            if other = sid then
              some { state with
                window := state.window + increment
                credit := state.credit + increment
                reset := true }
            else account.streams other := by
        funext other
        by_cases same : other = sid
        · rw [if_pos same, same]
          refine (streams_modifyStream _ sid _).trans ?_
          rw [streams_enqueue, streams_modifyStream, found]
          rfl
        · rw [if_neg same]
          refine (streams_modifyStream_of_ne _ sid _ other same).trans ?_
          exact streams_modifyStream_of_ne _ sid _ other same
      rw [reset]
      refine (allBalanced_update balanced sid _).mpr fun after is => ?_
      cases is
      exact ⟨equal, nofun⟩
    · rename_i below
      refine (allBalanced_update balanced sid _).mpr fun after is => ?_
      obtain ⟨before, same, rfl⟩ := Option.map_eq_some_iff.mp is
      cases found.symm.trans same
      exact ⟨equal, fun _ => not_lt.mp below⟩

theorem allBalanced_addCredit (balanced : AllBalanced account.initialWindow account.streams)
    (sid increment : Nat) :
    AllBalanced (account.addCredit sid increment).initialWindow
      (account.addCredit sid increment).streams := by
  have initial : (account.addCredit sid increment).initialWindow = account.initialWindow := by
    obtain ⟨_, _, -, credited⟩ := addCredit_eq account sid increment
    rewrite [credited]
    rfl
  rw [initial]
  by_cases zero : sid = 0
  · rw [zero, addCredit_zero]
    exact balanced
  · rw [addCredit_of_ne account increment zero]
    exact allBalanced_creditStream (account.recordCredit sid increment) balanced sid increment

theorem allBalanced_setting (balanced : AllBalanced account.initialWindow account.streams)
    (entry : SettingEntry) :
    AllBalanced (account.setting entry).initialWindow (account.setting entry).streams ↔
      account.SettingBalances entry := by
  obtain ⟨id, value⟩ := entry
  cases id with
  | initialWindowSize =>
    refine Iff.trans ?_ (forall_prop_of_true rfl).symm
    by_cases valid : value ≤ maxWindowSize
    · refine Iff.trans ?_ (forall_prop_of_true valid).symm
      have taken : account.setting ⟨.initialWindowSize, value⟩ = { account with
          streams := fun sid => (account.streams sid).map fun state =>
            { state with window := state.window + ((value : Int) - account.initialWindow) }
          initialWindow := value } := if_neg (not_lt.mpr valid)
      rw [taken]
      refine forall_congr' fun sid => ?_
      constructor
      · intro all state found
        have moved := all { state with
          window := state.window + ((value : Int) - account.initialWindow) }
          (Option.map_eq_some_iff.mpr ⟨state, found, rfl⟩)
        exact (StreamAccount.balanced_setting (balanced sid state found) value).mp moved
      · intro all after is
        obtain ⟨state, found, rfl⟩ := Option.map_eq_some_iff.mp is
        exact (StreamAccount.balanced_setting (balanced sid state found) value).mpr
          (all state found)
    · have ignored : account.setting ⟨.initialWindowSize, value⟩ = account :=
        if_pos (not_le.mp valid)
      rw [ignored]
      exact iff_of_true balanced fun impossible => absurd impossible valid
  | maxFrameSize =>
    refine iff_of_true ?_ nofun
    unfold setting
    dsimp only
    split
    · exact balanced
    · exact balanced
  | _ => exact iff_of_true balanced nofun

/-- A deed keeps the streams balanced if and only if it keeps the balance. -/
theorem balanced_act (deed : Deed) (sound : account.Sound) (balanced : account.Balanced) :
    (account.act deed).Balanced ↔ account.KeepsBalance deed := by
  cases alive : account.alive with
  | false =>
    refine iff_of_true (fun still => ?_) fun still => ?_
    · rw [(alive_act account deed).mpr (Or.inl alive)] at still
      exact absurd still Bool.false_ne_true
    · exact absurd (alive.symm.trans still) Bool.false_ne_true
  | true =>
    have all := balanced alive
    have keeps (after : Account) (same : after.alive = account.alive) (condition : Prop)
        (exactly : AllBalanced after.initialWindow after.streams ↔ condition) :
        after.Balanced ↔ (account.alive = true → condition) := by
      unfold Balanced
      rw [same]
      exact imp_congr_right fun _ => exactly
    cases deed with
    | call command =>
      have sends := sends_call account command
      refine keeps (account.call command) sends.alive _ ?_
      rw [sends.initialWindow]
      exact allBalanced_call account sound all command
    | control control =>
      have sends := sends_control account control
      refine keeps (account.control control) sends.alive _ (iff_of_true ?_ trivial)
      rw [sends.initialWindow]
      exact allBalanced_control account all control
    | halt => exact iff_of_true nofun fun _ => trivial
    | enter sid => exact keeps (account.enter sid) rfl _ (allBalanced_enter account all sid)
    | leave sid =>
      exact keeps (account.act (.leave sid)) rfl _
        (iff_of_true ((allBalanced_update all sid none).mpr nofun) trivial)
    | credit sid increment =>
      exact keeps (account.addCredit sid increment) (alive_addCredit account sid increment) _
        (iff_of_true (allBalanced_addCredit account all sid increment) trivial)
    | setting entry =>
      exact keeps (account.setting entry) (alive_setting account entry) _
        (allBalanced_setting account all entry)
    | await ref => exact keeps (account.act (.await ref)) rfl _ (iff_of_true all trivial)
    | charge length => exact keeps (account.act (.charge length)) rfl _ (iff_of_true all trivial)
    | grant increment =>
      exact keeps (account.act (.grant increment)) rfl _ (iff_of_true all trivial)
    | promise info => exact keeps (account.act (.promise info)) rfl _ (iff_of_true all trivial)
    | complete ref resp =>
      exact keeps (account.act (.complete ref resp)) rfl _ (iff_of_true all trivial)
    | fail ref => exact keeps (account.act (.fail ref)) rfl _ (iff_of_true all trivial)

end Deeds

theorem balanced_create (mode : Mode) : (create mode).Balanced := nofun

end Account

/-! ### Runs -/

namespace Session

/-- The streams of a session are balanced at every moment that it is alive if and only if every deed
keeps the balance. -/
theorem balanced_iff (mode : Mode) (actions : List Action) (final : Session)
    (run : actions.foldlM act (create mode) = .ok final) :
    Refines (account mode actions) final.connection ∧
      ((∀ front, front <+: (create mode).history actions →
          ((Account.create mode).acts front).Balanced) ↔
        Throughout Account.act Account.KeepsBalance (Account.create mode)
          ((create mode).history actions)) :=
  ⟨refines_account mode actions final run,
    forall_prefix_iff_throughout (fun account deed => account.sound_act deed)
      (fun account deed => account.balanced_act deed) _ _ (Account.sound_create mode)
      (Account.balanced_create mode)⟩

/-- The frame that announces an initial window. -/
def initialWindowFrame (value : Nat) : Frame :=
  .ofPayload .settings 0 0 (putSetting ⟨.initialWindowSize, value⟩)

/-- A request before a new initial window, and credit for it. -/
theorem balanced_request :
    ∃ final, [.op (.call (.submitRequest {} none true)), .receive (initialWindowFrame 100000),
        .receive (windowUpdateFrame 1 5)].foldlM act (create .client) = .ok final ∧
      ∀ front, front <+: (create .client).history
          [.op (.call (.submitRequest {} none true)), .receive (initialWindowFrame 100000),
            .receive (windowUpdateFrame 1 5)] →
        ((Account.create .client).acts front).Balanced := by
  refine ⟨_, rfl, (balanced_iff .client _ _ rfl).2.mpr
    ⟨fun _ _ => rfl, fun _ _ _ sid state found _ => ?_, fun _ => trivial, fun _ => trivial,
      trivial⟩⟩
  by_cases first : sid = 1
  · subst first
    cases found
    decide
  · have absent : (((Account.create .client).call (.submitRequest {} none true)).streams sid) =
        none := by
      rw [Account.streams_call _ (Account.sound_create .client)]
      exact if_neg first
    cases absent.symm.trans found

/-- A stream that is created after a new initial window has another window than one that is created
before. -/
theorem not_balanced_later_request :
    ∃ later earlier,
      [.receive (initialWindowFrame 100000), .op (.call (.submitRequest {} none true))].foldlM act
        (create .client) = .ok later ∧
      [.op (.call (.submitRequest {} none true)), .receive (initialWindowFrame 100000)].foldlM act
        (create .client) = .ok earlier ∧
      (later.connection.streams 1).map StreamState.sendWindow = some 65535 ∧
      (earlier.connection.streams 1).map StreamState.sendWindow = some 100000 ∧
      later.connection.peerInitialWindowSize = 100000 ∧ later.connection.alive = true ∧
      ¬ (account .client [.receive (initialWindowFrame 100000),
        .op (.call (.submitRequest {} none true))]).Balanced := by
  refine ⟨_, _, rfl, rfl, rfl, rfl, rfl, rfl, fun balanced => ?_⟩
  exact absurd (balanced rfl 1 _ rfl).1 (by decide)

end Session

end AsyncNet.Http
