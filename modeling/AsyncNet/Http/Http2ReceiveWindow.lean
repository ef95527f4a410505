/-
This file is about the receive window of the connection. It is lowered by the data of
every frame for a stream that is there, and raised by the updates that are sent. A frame
with padding counts for less than its length, and one for a stream that is not there for
nothing, and neither is ever made up for: the window is the one the peer reckons with if
and only if no such frame has arrived.
-/

import AsyncNet.Http.Http2ConnectionWindows
import AsyncNet.Http.Http2Steps

namespace AsyncNet.Http

open Library H2

/-! ### Window updates -/

/-- The receive window of the connection, without the credit that has been granted. -/
def Account.allowed (account : Account) : Int := account.recvWindow - credits 0 account.frames

theorem Account.SameWindows.allowed {before after : Account} (same : SameWindows before after) :
    after.allowed = before.allowed := by
  rw [Account.allowed, same.recvWindow, same.granted]
  rfl

namespace Connection

/-- An increment brings a window that is too small back to the default. -/
theorem windowIncrement_eq (window : Int) (low : window < 65535 / 2)
    (bound : -(2 ^ 30) ≤ window) :
    windowIncrement window = some (65535 - window).toNat := by
  rw [windowIncrement, if_pos low, Int.emod_eq_of_lt (by omega) (by omega)]

theorem credit_windowUpdateFrame_stream (sid increment : Nat) (nonzero : sid ≠ 0) :
    (windowUpdateFrame sid increment).credit 0 = 0 := if_neg fun both => nonzero both.2

section Updates

variable (account : Account)

/-- An update of the connection's window, when it is due. -/
theorem allowed_grant (bound : -(2 ^ 30) ≤ account.recvWindow) :
    let granted := account.acts ((windowIncrement account.recvWindow).map Deed.grant).toList
    granted.allowed = account.allowed ∧ 65535 / 2 ≤ granted.recvWindow := by
  by_cases low : account.recvWindow < 65535 / 2
  · rw [windowIncrement_eq account.recvWindow low bound]
    set increment := (65535 - account.recvWindow).toNat with is
    have raised : account.recvWindow + increment = 65535 := by omega
    have granted : credits 0 (account.enqueue [windowUpdateFrame 0 increment]).frames =
        credits 0 account.frames + increment := by
      rw [Account.frames_enqueue, credits_append, credits_cons, credits_nil,
        credit_windowUpdateFrame 0 0 increment (by omega), if_pos rfl]
      rfl
    constructor
    · show account.recvWindow + increment -
        (credits 0 (account.enqueue [windowUpdateFrame 0 increment]).frames : Int) = _
      rw [granted, Account.allowed]
      push_cast
      ring
    · show 65535 / 2 ≤ account.recvWindow + increment
      rw [raised]
      decide
  · have none : windowIncrement account.recvWindow = none := if_neg low
    rw [none]
    exact ⟨rfl, not_lt.mp low⟩

/-- An update of a stream's window does not count for the connection. -/
theorem allowed_windowUpdate (sid : Nat) (nonzero : sid ≠ 0) (increment : Option Nat) :
    let updated := account.acts
      (increment.map fun increment => Deed.control (.windowUpdate sid increment)).toList
    updated.allowed = account.allowed ∧ updated.recvWindow = account.recvWindow := by
  cases increment with
  | none => exact ⟨rfl, rfl⟩
  | some increment =>
    refine ⟨?_, rfl⟩
    show account.recvWindow -
      (credits 0 (account.enqueue [windowUpdateFrame sid increment]).frames : Int) = _
    rw [Account.frames_enqueue, credits_append, credits_cons,
      credit_windowUpdateFrame_stream sid increment nonzero]
    rfl

/-- Data lowers what the peer can still send by its length. -/
theorem allowed_updateDeeds (connection : Connection) (sid length : Nat) (nonzero : sid ≠ 0)
    (short : length < 2 ^ 24) (window : connection.connRecvWindow = account.recvWindow)
    (half : 65535 / 2 ≤ account.recvWindow) :
    let after := account.acts (updateDeeds connection sid length)
    after.allowed = account.allowed - length ∧ 65535 / 2 ≤ after.recvWindow := by
  have charged := allowed_grant (account.act (.charge length))
    (show -(2 ^ 30) ≤ account.recvWindow - length by omega)
  have updated := allowed_windowUpdate ((account.act (.charge length)).acts
    ((windowIncrement (account.recvWindow - length)).map Deed.grant).toList) sid nonzero
    (windowIncrement ((connection.modifyStream sid fun state =>
      { state with recvWindow := state.recvWindow - length }).stream sid).recvWindow)
  have lowered : (account.act (.charge length)).allowed = account.allowed - length := by
    show account.recvWindow - length - (credits 0 account.frames : Int) = _
    rw [Account.allowed]
    ring
  intro after
  have split : after = ((account.act (.charge length)).acts
      ((windowIncrement (account.recvWindow - length)).map Deed.grant).toList).acts
      ((windowIncrement ((connection.modifyStream sid fun state =>
        { state with recvWindow := state.recvWindow - length }).stream sid).recvWindow).map
          fun increment => Deed.control (.windowUpdate sid increment)).toList := by
    rw [← Account.acts_append, ← window]
    rfl
  rw [split]
  exact ⟨updated.1.trans (charged.1.trans lowered), charged.2.trans_eq updated.2.symm⟩

end Updates

/-! ### Frames -/

section Frames

variable (config : Config) (connection : Connection) (account : Account) (f : Frame)

theorem stripPadding_ok {data : Bytes} (stripped : stripPadding f = .ok data) :
    data.length ≤ f.payload.length ∧
      (data.length = f.payload.length ↔ f.hdr.hasFlag Flag.padded = false) := by
  unfold stripPadding at stripped
  split at stripped
  · rename_i padded
    split at stripped
    · cases stripped
    · dsimp only at stripped
      split at stripped
      · cases stripped
      · cases stripped
        rw [List.length_take, List.length_drop, padded]
        refine ⟨by omega, fun same => ?_, nofun⟩
        omega
  · rename_i unpadded
    cases stripped
    exact ⟨le_rfl, fun _ => Bool.eq_false_of_not_eq_true unpadded, fun _ => rfl⟩

/-- WINDOW_UPDATE leaves the receive window alone. -/
theorem allowed_handleWindowUpdateDeeds :
    (account.acts (handleWindowUpdateDeeds connection f)).allowed = account.allowed ∧
      (account.acts (handleWindowUpdateDeeds connection f)).recvWindow = account.recvWindow := by
  by_cases invalid : f.payload.length ≠ 4 ∨ parseWindowUpdate f.payload = 0
  · have same := account.sameWindows_acts _
      (ordinary_handleWindowUpdateDeeds connection f invalid).plain
    exact ⟨same.allowed, same.recvWindow⟩
  · obtain ⟨four, positive⟩ := not_or.mp invalid
    obtain ⟨later, ordinary, are⟩ :=
      handleWindowUpdateDeeds_valid connection f (not_not.mp four) positive
    set credited := account.addCredit f.hdr.streamId (parseWindowUpdate f.payload)
    have credits : credited.allowed = account.allowed ∧
        credited.recvWindow = account.recvWindow := by
      obtain ⟨window, granted⟩ := account.addCredit_receives f.hdr.streamId
        (parseWindowUpdate f.payload)
      refine ⟨?_, window⟩
      rw [Account.allowed, window, granted]
      rfl
    have after := credited.sameWindows_acts later ordinary.plain
    rw [are]
    exact ⟨after.allowed.trans credits.1, after.recvWindow.trans credits.2⟩

/-- The data of a frame that leaves the session alive lowers the receive window, but for what is
missing. -/
theorem allowed_handleDataDeeds (refines : Refines account connection)
    (half : 65535 / 2 ≤ account.recvWindow) (short : f.payload.length < 2 ^ 24)
    (alive : (account.acts (handleDataDeeds config connection f)).alive = true) :
    ∃ missing : Nat,
      (account.acts (handleDataDeeds config connection f)).allowed =
          account.allowed - f.payload.length + missing ∧
        65535 / 2 ≤ (account.acts (handleDataDeeds config connection f)).recvWindow ∧
        (missing = 0 ↔ f.payload = [] ∨ ((connection.streams f.hdr.streamId).isSome = true ∧
          f.hdr.hasFlag Flag.padded = false)) := by
  have plain (refused : f.hdr.streamId = 0 ∨ connection.streams f.hdr.streamId = none ∨
      ∃ error, stripPadding f = .error error) :=
    account.sameWindows_acts _ (ordinary_handleDataDeeds config connection f refused).plain
  by_cases zero : f.hdr.streamId = 0
  · rw [handleDataDeeds_zero config connection f zero] at alive
    exact absurd alive Bool.false_ne_true
  cases known : connection.streams f.hdr.streamId with
  | none =>
    have same := plain (.inr (.inl known))
    refine ⟨f.payload.length, ?_, half.trans_eq same.recvWindow.symm, ?_⟩
    · rw [same.allowed]
      ring
    · rw [List.length_eq_zero_iff]
      exact ⟨Or.inl, fun either => either.resolve_right nofun⟩
  | some state =>
    cases stripped : stripPadding f with
    | error error =>
      rw [handleDataDeeds_padding config connection f zero known stripped] at alive
      exact absurd alive Bool.false_ne_true
    | ok data =>
      obtain ⟨less, whole⟩ := stripPadding_ok f stripped
      obtain ⟨later, ordinary, are⟩ :=
        handleDataDeeds_known config connection f zero known stripped
      have delivered := does_deliverData connection f.hdr.streamId state data
        (f.hdr.hasFlag Flag.endStream) account refines
      have same := account.sameWindows_acts _
        (ordinary_deliverDeeds f.hdr.streamId state data (f.hdr.hasFlag Flag.endStream)).plain
      have updated := allowed_updateDeeds _ _ f.hdr.streamId data.length zero (by omega)
        delivered.recvWindow (half.trans_eq same.recvWindow.symm)
      rw [are, Account.acts_append, Account.acts_append]
      have after := Account.sameWindows_acts
        ((account.acts (deliverDeeds f.hdr.streamId state data (f.hdr.hasFlag Flag.endStream))).acts
          (updateDeeds (connection.deliverData f.hdr.streamId state data
            (f.hdr.hasFlag Flag.endStream)) f.hdr.streamId data.length)) later ordinary.plain
      refine ⟨f.payload.length - data.length, ?_, updated.2.trans_eq after.recvWindow.symm, ?_⟩
      · rw [after.allowed, updated.1, same.allowed]
        omega
      · rw [← whole]
        constructor
        · intro none
          exact .inr ⟨rfl, by omega⟩
        · rintro (empty | ⟨_, same⟩)
          · rw [empty]
            exact Nat.zero_sub _
          · rw [same, Nat.sub_self]

end Frames

end Connection

/-! ### Runs -/

namespace Session

/-- A DATA frame is charged in full: it has no payload, or it is for a stream that is there and has
no padding. -/
def Charged (session : Session) : Action → Prop
  | .receive f =>
      session.Ready → f.hdr.type = .data →
        f.payload = [] ∨ ((session.connection.streams f.hdr.streamId).isSome = true ∧
          f.hdr.hasFlag Flag.padded = false)
  | .op _ => True

/-- The default window and whatever of the DATA frames received has not been charged. -/
def uncharged (session : Session) (account : Account) : Int :=
  account.allowed + loads 0 (framesOf session.connection.events)

section Step

variable (session next : Session) (account : Account)

theorem uncharged_op (op : Op) :
    ((session.op op).uncharged (account.acts (session.deeds (.op op))) =
        session.uncharged account) ∧
      (account.acts (session.deeds (.op op))).recvWindow = account.recvWindow := by
  have plain : Plain (session.deeds (.op op)) := by
    cases op with
    | call command => exact plain_singleton trivial
    | await ref => exact plain_singleton trivial
    | _ => exact plain_nil
  have same := account.sameWindows_acts _ plain
  refine ⟨?_, same.recvWindow⟩
  rw [uncharged, (op_undisturbed session op).events, same.allowed]
  rfl

/-- Frames other than DATA do not count. -/
theorem uncharged_other (f : Frame) (alive : session.connection.alive = true)
    (other : session.connection.continuationStream = 0 → f.hdr.type ≠ .data) :
    (account.acts (session.deeds (.receive f))).allowed = account.allowed ∧
      (account.acts (session.deeds (.receive f))).recvWindow = account.recvWindow := by
  rw [deeds, if_pos alive]
  by_cases update : session.connection.continuationStream = 0 ∧ f.hdr.type = .windowUpdate
  · rw [Connection.frameDeeds_windowUpdate _ _ _ update.1 update.2]
    exact Connection.allowed_handleWindowUpdateDeeds _ account f
  · have same := account.sameWindows_acts _ (Connection.plain_frameDeeds session.config
      session.connection f fun idle => ⟨other idle, fun type => update ⟨idle, type⟩⟩)
    exact ⟨same.allowed, same.recvWindow⟩

/-- A frame other than CONTINUATION that comes in the middle of a header block ends the session. -/
theorem alive_frameDeeds_waiting (config : Config) (connection : Connection) (f : Frame)
    (waiting : connection.continuationStream ≠ 0) (type : f.hdr.type ≠ .continuation) :
    (account.acts (connection.frameDeeds config f)).alive = false := by
  have waits : (connection.record (.frame f)).continuationStream ≠ 0 := waiting
  unfold Connection.frameDeeds
  dsimp only
  rw [if_pos waits, if_pos (Or.inl type)]
  rfl

/-- An action that leaves the session alive leaves less than the whole payload of a DATA frame
uncharged, and nothing if and only if it is charged in full. -/
theorem uncharged_act (action : Action) (refines : Refines account session.connection)
    (half : 65535 / 2 ≤ account.recvWindow)
    (short : ∀ f, action = .receive f → f.payload.length < 2 ^ 24)
    (acted : session.act action = .ok next) (alive : next.connection.alive = true) :
    ∃ missing : Nat,
      next.uncharged (account.acts (session.deeds action)) =
          session.uncharged account + missing ∧
        65535 / 2 ≤ (account.acts (session.deeds action)).recvWindow ∧
        (missing = 0 ↔ session.Charged action) := by
  have done := does_act session next action acted account refines
  cases action with
  | op op =>
    cases acted
    obtain ⟨same, window⟩ := uncharged_op session account op
    exact ⟨0, same.trans (add_zero _).symm, half.trans_eq window.symm, iff_of_true rfl trivial⟩
  | receive f =>
    have before : session.connection.alive = true := by
      by_contra dead
      rw [act, if_neg dead] at acted
      cases acted
      exact dead alive
    rw [act, if_pos before] at acted
    obtain ⟨connection, processed, rfl⟩ := map_ok acted
    have frames := Connection.framesOf_processFrame _ _ _ _ processed
    have logged : loads 0 (framesOf connection.events) =
        loads 0 (framesOf session.connection.events) + f.load 0 := by
      rw [frames, loads_append]
      rfl
    by_cases data : f.hdr.type = .data
    · have load : f.load 0 = f.payload.length := if_pos ⟨data, Or.inl rfl⟩
      have idle : session.connection.continuationStream = 0 := by
        by_contra waiting
        have dead := alive_frameDeeds_waiting account session.config session.connection f waiting
          (by rw [data]; decide)
        rw [deeds, if_pos before] at done
        rw [done.alive, dead] at alive
        exact Bool.false_ne_true alive
      rw [deeds_of_ready session f ⟨before, idle⟩,
        Connection.frameDeeds_data _ _ _ idle data] at done ⊢
      obtain ⟨missing, allowed, half', exactly⟩ := Connection.allowed_handleDataDeeds
        session.config (session.connection.record (.frame f)) account f
        (Connection.does_record _ _ rfl account refines) half (short f rfl)
        (done.alive.symm.trans alive)
      refine ⟨missing, ?_, half', exactly.trans ?_⟩
      · show Account.allowed _ + (loads 0 (framesOf connection.events) : Int) = _
        rw [allowed, logged, load, uncharged]
        push_cast
        ring
      · exact ⟨fun charged _ _ => charged, fun charged => charged ⟨before, idle⟩ data⟩
    · have load : f.load 0 = 0 := if_neg fun both => data both.1
      obtain ⟨allowed, window⟩ := uncharged_other session account f before fun _ => data
      refine ⟨0, ?_, half.trans_eq window.symm, iff_of_true rfl fun _ type => absurd type data⟩
      show Account.allowed _ + (loads 0 (framesOf connection.events) : Int) = _
      rw [allowed, logged, load, uncharged]
      push_cast
      ring

theorem alive_of_act (action : Action) (acted : session.act action = .ok next)
    (alive : next.connection.alive = true) : session.connection.alive = true := by
  cases action with
  | op op =>
    cases acted
    exact (op_alive session op).symm.trans alive
  | receive f =>
    by_contra dead
    rw [act, if_neg dead] at acted
    cases acted
    exact dead alive

theorem alive_of_run (actions : List Action) (final : Session)
    (run : actions.foldlM act session = .ok final) (alive : final.connection.alive = true) :
    session.connection.alive = true := by
  induction actions generalizing session with
  | nil =>
    cases run
    exact alive
  | cons action actions inductionHypothesis =>
    rw [List.foldlM_cons] at run
    obtain ⟨next, first, later⟩ := bind_ok run
    exact alive_of_act session next action first (inductionHypothesis next later)

end Step

/-- Nothing is left uncharged by a run if and only if nothing was and every frame is charged in
full. -/
theorem uncharged_run (actions : List Action) (session final : Session) (account : Account)
    (refines : Refines account session.connection) (half : 65535 / 2 ≤ account.recvWindow)
    (least : 65535 ≤ session.uncharged account) (short : Short actions)
    (run : actions.foldlM act session = .ok final) (alive : final.connection.alive = true) :
    final.uncharged (account.acts (session.history actions)) = 65535 ↔
      session.uncharged account = 65535 ∧ Along act Charged session actions := by
  induction actions generalizing session account with
  | nil =>
    cases run
    exact (and_iff_left trivial).symm
  | cons action actions inductionHypothesis =>
    rw [List.foldlM_cons] at run
    obtain ⟨next, first, later⟩ := bind_ok run
    have done := does_act session next action first account refines
    obtain ⟨missing, total, half', exactly⟩ := uncharged_act session next account action refines
      half (fun f is => short f (is ▸ List.mem_cons_self)) first
      (alive_of_run next actions final later alive)
    have rest := inductionHypothesis next _ done half' (by omega)
      (fun f member => short f (List.mem_cons_of_mem action member)) later
    unfold history
    rw [first, Account.acts_append, rest, total]
    constructor
    · rintro ⟨even, along⟩
      refine ⟨by omega, exactly.mp (by omega), fun other same => ?_⟩
      cases first.symm.trans same
      exact along
    · rintro ⟨even, charged, along⟩
      exact ⟨by rw [exactly.mpr charged]; omega, along next first⟩

/-- The receive window of a session that is alive is the default window with the updates that it has
sent, less the DATA frames that it has received, if and only if each of them was charged in full. -/
theorem connRecvWindow_iff (mode : Mode) (actions : List Action) (final : Session)
    (short : Short actions) (run : actions.foldlM act (create mode) = .ok final)
    (alive : final.connection.alive = true) :
    Refines (account mode actions) final.connection ∧
      (final.connection.connRecvWindow = 65535 + (credits 0 (account mode actions).frames : Int) -
          loads 0 (framesOf final.connection.events) ↔
        Along act Charged (create mode) actions) := by
  have refines := refines_account mode actions final run
  have balance := uncharged_run actions (create mode) final (Account.create mode)
    (refines_create mode) (show (65535 : Int) / 2 ≤ 65535 by decide) le_rfl short run alive
  refine ⟨refines, Iff.trans ?_ (balance.trans (and_iff_right rfl))⟩
  rw [refines.recvWindow]
  unfold uncharged Account.allowed
  show _ ↔ (account mode actions).recvWindow - (credits 0 (account mode actions).frames : Int) +
    _ = _
  constructor
  · intro even
    omega
  · intro even
    omega

/-- Data for a request that is there. -/
theorem connRecvWindow_request :
    ∃ final, [Action.receive (.ofPayload .headers Flag.endHeaders 1 [0x82]),
        .receive (.ofPayload .data 0 1 (ascii "hello"))].foldlM act (create .server) = .ok final ∧
      final.connection.connRecvWindow =
        65535 + (credits 0 (account .server
            [.receive (.ofPayload .headers Flag.endHeaders 1 [0x82]),
              .receive (.ofPayload .data 0 1 (ascii "hello"))]).frames : Int) -
          loads 0 (framesOf final.connection.events) := by
  refine ⟨_, rfl, (connRecvWindow_iff .server _ _ ?_ rfl rfl).2.mpr ⟨?_, fun next first => ?_⟩⟩
  · intro f member
    rcases List.mem_cons.mp member with is | member
    · cases is
      decide
    · cases List.mem_singleton.mp member
      decide
  · exact fun _ type => absurd type (by decide)
  · cases first
    exact ⟨fun _ _ => Or.inr ⟨rfl, rfl⟩, fun _ _ => trivial⟩

/-- A byte for a stream that is not there is not charged. -/
theorem connRecvWindow_unknown :
    ∃ final, [Action.receive (.ofPayload .data 0 1 (ascii "x"))].foldlM act (create .server) =
        .ok final ∧
      final.connection.alive = true ∧
      final.connection.connRecvWindow ≠
        65535 + (credits 0 (account .server
            [.receive (.ofPayload .data 0 1 (ascii "x"))]).frames : Int) -
          loads 0 (framesOf final.connection.events) :=
  ⟨_, rfl, rfl, by decide⟩

end Session

end AsyncNet.Http
