/-
This file puts the deeds of a run together. The history of a run is the list of the
deeds of its steps, and the account that has seen it is the account of the session that
the run comes to. The limit on the size of a frame is always a valid one.
-/

import AsyncNet.Http.Http2FrameDeeds

namespace AsyncNet.Http

open Library H2

/-! ### What every account keeps -/

namespace Account

/-- The limit on the size of a frame is valid. -/
def Sound (account : Account) : Prop :=
  16384 ≤ account.maxFrameSize ∧ account.maxFrameSize ≤ 16777215

theorem Sound.positive {account : Account} (sound : account.Sound) : 0 < account.maxFrameSize :=
  (show 0 < 16384 by decide).trans_le sound.1

theorem Sends.sound {before after : Account} (sends : Sends before after) (sound : before.Sound) :
    after.Sound := by
  rw [Sound, sends.maxFrameSize]
  exact sound

theorem sound_act (account : Account) (deed : Deed) (sound : account.Sound) :
    (account.act deed).Sound := by
  cases deed with
  | call command => exact (sends_call account command).sound sound
  | control control => exact (sends_control account control).sound sound
  | credit sid increment =>
    obtain ⟨_, _, -, credited⟩ := addCredit_eq account sid increment
    rw [act, credited]
    exact sound
  | setting entry =>
    obtain ⟨id, value⟩ := entry
    cases id with
    | initialWindowSize =>
      unfold act setting
      dsimp only
      split
      · exact sound
      · exact sound
    | maxFrameSize =>
      unfold act setting
      dsimp only
      split
      · exact sound
      · rename_i valid
        obtain ⟨low, high⟩ := not_or.mp valid
        exact ⟨not_lt.mp low, not_lt.mp high⟩
    | _ => exact sound
  | _ => exact sound

theorem alive_setting (account : Account) (entry : SettingEntry) :
    (account.setting entry).alive = account.alive := by
  obtain ⟨_, _, _, _, _, changed⟩ := setting_eq account entry
  rw [changed]

theorem alive_addCredit (account : Account) (sid increment : Nat) :
    (account.addCredit sid increment).alive = account.alive := by
  obtain ⟨_, _, -, credited⟩ := addCredit_eq account sid increment
  rewrite [credited]
  rfl

/-- Only one deed ends a session, and none brings it back. -/
theorem alive_act (account : Account) (deed : Deed) :
    (account.act deed).alive = false ↔ account.alive = false ∨ deed = .halt := by
  have same {after : Account} (same : after.alive = account.alive) (going : deed ≠ .halt) :
      after.alive = false ↔ account.alive = false ∨ deed = .halt := by
    rw [same]
    exact (or_iff_left going).symm
  cases deed with
  | call command => exact same (sends_call account command).alive nofun
  | control control => exact same (sends_control account control).alive nofun
  | credit sid increment => exact same (alive_addCredit account sid increment) nofun
  | setting entry => exact same (alive_setting account entry) nofun
  | halt => exact iff_of_true rfl (Or.inr rfl)
  | await ref => exact same rfl nofun
  | enter sid => exact same rfl nofun
  | leave sid => exact same rfl nofun
  | charge length => exact same rfl nofun
  | grant increment => exact same rfl nofun
  | promise info => exact same rfl nofun
  | complete ref resp => exact same rfl nofun
  | fail ref => exact same rfl nofun

theorem sound_create (mode : Mode) : (create mode).Sound :=
  ⟨le_rfl, show 16384 ≤ 16777215 by decide⟩

theorem sound_acts (mode : Mode) (deeds : List Deed) : ((create mode).acts deeds).Sound :=
  foldl_invariant (fun account deed => sound_act account deed) deeds _ (sound_create mode)

end Account

/-! ### Histories -/

namespace Session

/-- The deeds of an action. -/
def deeds (session : Session) : Action → List Deed
  | .receive f =>
      if session.connection.alive then session.connection.frameDeeds session.config f else []
  | .op (.call command) => [.call command]
  | .op (.await ref) => [.await ref]
  | .op _ => []

/-- The deeds of a run. -/
def history : Session → List Action → List Deed
  | _, [] => []
  | session, action :: actions =>
      session.deeds action ++
        match session.act action with
        | .error _ => []
        | .ok next => next.history actions

theorem refines_create (mode : Mode) :
    Refines (Account.create mode) (create mode).connection where
  encoder := rfl
  maxFrameSize := rfl
  enablePush := rfl
  initialWindow := rfl
  nextStreamId := rfl
  nextPushStreamId := rfl
  sendWindow := rfl
  recvWindow := rfl
  streams := fun _ => rfl
  promises := rfl
  completed := rfl
  nextPushPromise := rfl
  alive := rfl
  resumed := rfl
  output := rfl

theorem does_act (session next : Session) (action : Action)
    (acted : session.act action = .ok next) :
    Does (session.deeds action) session.connection next.connection := by
  cases action with
  | receive f =>
    rw [act] at acted
    rw [deeds]
    split at acted
    · rename_i alive
      rw [if_pos alive]
      obtain ⟨connection, run, rfl⟩ := map_ok acted
      exact Connection.does_processFrame session.config session.connection f run
    · rename_i dead
      cases acted
      rw [if_neg dead]
      exact Does.refl _
  | op op =>
    cases acted
    cases op with
    | call command => exact Connection.does_command session.connection command
    | await ref =>
      intro account refines
      have promises : (session.connection.setPromise ref
          { session.connection.promises ref with waiter := true }).promises =
          (account.setPromise ref { account.promises ref with waiter := true }).promises := by
        unfold Connection.setPromise Account.setPromise
        rw [refines.promises]
      exact { refines with promises := promises }
    | _ => exact Does.refl _

/-- The account of a session that a run comes to has seen the history of the run. -/
theorem refines_history (actions : List Action) (session final : Session) (account : Account)
    (refines : Refines account session.connection)
    (run : actions.foldlM act session = .ok final) :
    Refines (account.acts (session.history actions)) final.connection := by
  induction actions generalizing session account with
  | nil =>
    cases run
    exact refines
  | cons action actions inductionHypothesis =>
    rw [List.foldlM_cons] at run
    obtain ⟨next, first, later⟩ := bind_ok run
    have done := does_act session next action first account refines
    unfold history
    rw [first, Account.acts_append]
    exact inductionHypothesis next _ done later

/-- The account of a run of a new session. -/
def account (mode : Mode) (actions : List Action) : Account :=
  (Account.create mode).acts ((create mode).history actions)

theorem refines_account (mode : Mode) (actions : List Action) (final : Session)
    (run : actions.foldlM act (create mode) = .ok final) :
    Refines (account mode actions) final.connection :=
  refines_history actions (create mode) final _ (refines_create mode) run

end Session

end AsyncNet.Http
