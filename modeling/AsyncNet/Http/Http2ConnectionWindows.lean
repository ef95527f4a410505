/-
This file is about the send window of the connection. It is raised by the credit that
arrives and never lowered, so a peer that only returns the credit for the data it has been
sent ends the session once the credit adds up to the limit.
-/

import AsyncNet.Http.Http2PlainDeeds
import AsyncNet.Http.Http2SendWindows
import Mathlib.Data.List.Infix

namespace AsyncNet.Http

open Library H2

/-! ### Credit that is received -/

namespace Account

theorem credit_addCredit (account : Account) (sid increment scope : Nat) :
    (account.addCredit sid increment).credit scope =
      if scope = sid then account.credit scope + increment else account.credit scope := by
  obtain ⟨_, _, -, credited⟩ := addCredit_eq account sid increment
  rewrite [credited]
  rfl

/-- The send window of the connection is the credit that has been received for it. -/
theorem sendWindow_act (account : Account) (deed : Deed)
    (window : account.sendWindow = 65535 + account.credit 0) :
    (account.act deed).sendWindow = 65535 + (account.act deed).credit 0 := by
  by_cases plain : deed.Plain
  · have same := sameWindows_act account deed plain
    rw [same.sendWindow, same.credit]
    exact window
  · cases deed with
    | control control =>
      have sends := sends_control account control
      show (account.control control).sendWindow = _ + ((account.control control).credit 0 : Int)
      rw [sends.sendWindow, sends.credit]
      exact window
    | credit sid increment =>
      obtain ⟨_, _, -, credited⟩ := addCredit_eq account sid increment
      rw [act, credit_addCredit, credited]
      dsimp only
      by_cases zero : sid = 0
      · rw [if_pos zero, if_pos zero.symm, window]
        push_cast
        ring
      · rw [if_neg zero, if_neg (Ne.symm zero), window]
        ring
    | charge length => exact window
    | grant increment => exact window
    | _ => exact absurd trivial plain

theorem sendWindow_acts (account : Account) (deeds : List Deed)
    (window : account.sendWindow = 65535 + account.credit 0) :
    (account.acts deeds).sendWindow = 65535 + (account.acts deeds).credit 0 :=
  foldl_invariant (fun account deed => account.sendWindow_act deed) deeds account window

theorem credit_act_le (account : Account) (deed : Deed) (scope : Nat) :
    account.credit scope ≤ (account.act deed).credit scope := by
  by_cases plain : deed.Plain
  · rw [(sameWindows_act account deed plain).credit]
  · cases deed with
    | control control => exact (congrFun (sends_control account control).credit scope).ge
    | credit sid increment =>
      show _ ≤ (account.addCredit sid increment).credit scope
      rw [credit_addCredit]
      split
      · exact Nat.le_add_right _ _
      · exact le_rfl
    | charge length => exact le_rfl
    | grant increment => exact le_rfl
    | _ => exact absurd trivial plain

theorem credit_acts_le (account : Account) (deeds : List Deed) (scope : Nat) :
    account.credit scope ≤ (account.acts deeds).credit scope :=
  @foldl_invariant _ _ act (fun between => account.credit scope ≤ between.credit scope)
    (fun between deed least => least.trans (credit_act_le between deed scope)) deeds account le_rfl

end Account

namespace Connection

section Frames

variable (config : Config) (connection : Connection) (account : Account)

theorem credit_updateDeeds (sid length : Nat) :
    (account.acts (updateDeeds connection sid length)).credit = account.credit := by
  unfold updateDeeds
  cases windowIncrement (connection.connRecvWindow - length) with
  | none =>
    cases windowIncrement _ with
    | none => rfl
    | some increment => rfl
  | some granted =>
    cases windowIncrement _ with
    | none => rfl
    | some increment => rfl

theorem credit_handleDataDeeds (f : Frame) :
    (account.acts (handleDataDeeds config connection f)).credit = account.credit := by
  by_cases refused : f.hdr.streamId = 0 ∨ connection.streams f.hdr.streamId = none ∨
      ∃ error, stripPadding f = .error error
  · exact (account.sameWindows_acts _
      (ordinary_handleDataDeeds config connection f refused).plain).credit
  · obtain ⟨nonzero, rest⟩ := not_or.mp refused
    obtain ⟨there, padding⟩ := not_or.mp rest
    obtain ⟨state, known⟩ := Option.ne_none_iff_exists'.mp there
    cases stripped : stripPadding f with
    | error error => exact absurd ⟨error, stripped⟩ padding
    | ok data =>
      obtain ⟨later, ordinary, are⟩ :=
        handleDataDeeds_known config connection f nonzero known stripped
      rw [are, Account.acts_append, Account.acts_append,
        (Account.sameWindows_acts _ later ordinary.plain).credit, credit_updateDeeds,
        (Account.sameWindows_acts _ _ (ordinary_deliverDeeds _ state data _).plain).credit]

/-- The credit that a WINDOW_UPDATE frame brings for the connection. -/
theorem credit_handleWindowUpdateDeeds (f : Frame) :
    (account.acts (handleWindowUpdateDeeds connection f)).credit 0 =
      account.credit 0 +
        if f.payload.length = 4 ∧ f.hdr.streamId = 0 then parseWindowUpdate f.payload else 0 := by
  by_cases invalid : f.payload.length ≠ 4 ∨ parseWindowUpdate f.payload = 0
  · have none : (if f.payload.length = 4 ∧ f.hdr.streamId = 0 then parseWindowUpdate f.payload
        else 0) = 0 := by
      rcases invalid with short | empty
      · exact if_neg fun both => short both.1
      · rw [empty, ite_self]
    rw [none, (account.sameWindows_acts _
      (ordinary_handleWindowUpdateDeeds connection f invalid).plain).credit]
    rfl
  · obtain ⟨four, positive⟩ := not_or.mp invalid
    obtain ⟨later, ordinary, are⟩ :=
      handleWindowUpdateDeeds_valid connection f (not_not.mp four) positive
    rw [are]
    show ((account.addCredit f.hdr.streamId (parseWindowUpdate f.payload)).acts later).credit 0 = _
    rw [(Account.sameWindows_acts _ later ordinary.plain).credit, Account.credit_addCredit]
    by_cases zero : f.hdr.streamId = 0
    · rw [if_pos zero.symm, if_pos ⟨not_not.mp four, zero⟩]
    · rw [if_neg (Ne.symm zero), if_neg fun both => zero both.2]
      rfl

/-- Credit for the connection. -/
theorem handleWindowUpdate_connection (f : Frame) (four : f.payload.length = 4)
    (positive : parseWindowUpdate f.payload ≠ 0) (zero : f.hdr.streamId = 0) :
    connection.handleWindowUpdate f =
      let raised := { connection with
        connSendWindow := connection.connSendWindow + parseWindowUpdate f.payload }
      if (maxWindowSize : Int) < raised.connSendWindow then raised.goaway .flowControlError []
      else raised := by
  unfold handleWindowUpdate
  dsimp only
  rw [if_neg (not_not.mpr four), if_neg positive, if_pos zero]

theorem alive_handleWindowUpdate_stream (f : Frame) (four : f.payload.length = 4)
    (positive : parseWindowUpdate f.payload ≠ 0) (nonzero : f.hdr.streamId ≠ 0) :
    (connection.handleWindowUpdate f).alive = connection.alive := by
  unfold handleWindowUpdate
  dsimp only
  rw [if_neg (not_not.mpr four), if_neg positive, if_neg nonzero]
  split
  · rfl
  · split <;> rfl

end Frames

end Connection

/-! ### Updates of the connection's window -/

namespace Session

/-- A frame is received by a session that is alive and does not wait for CONTINUATION. -/
def Ready (session : Session) : Prop :=
  session.connection.alive = true ∧ session.connection.continuationStream = 0

instance (session : Session) : Decidable session.Ready := inferInstanceAs (Decidable (_ ∧ _))

/-- The credit for the connection that an action brings. -/
def received (session : Session) : Action → Nat
  | .receive f =>
      if session.Ready ∧ f.hdr.type = .windowUpdate ∧ f.payload.length = 4 ∧ f.hdr.streamId = 0 then
        parseWindowUpdate f.payload
      else 0
  | .op _ => 0

/-- A session that receives a valid WINDOW_UPDATE frame stays alive, and it sends nothing if the
frame is for the connection. -/
def SurvivesUpdate (session : Session) : Action → Prop
  | .receive f =>
      session.Ready → f.hdr.type = .windowUpdate → f.payload.length = 4 →
        parseWindowUpdate f.payload ≠ 0 → ∀ next, session.act (.receive f) = .ok next →
          next.connection.alive = true ∧
            (f.hdr.streamId = 0 → next.connection.outputBuf = session.connection.outputBuf)
  | .op _ => True

section Updates

variable (session : Session) (account : Account)

theorem act_windowUpdate (f : Frame) (ready : session.Ready)
    (update : f.hdr.type = .windowUpdate) :
    session.act (.receive f) = .ok { session with
      connection := (session.connection.record (.frame f)).handleWindowUpdate f } := by
  have waits : ¬ (session.connection.record (.frame f)).continuationStream ≠ 0 :=
    not_not.mpr ready.2
  rw [act, if_pos ready.1, process, Connection.processFrame, if_neg waits, update]
  rfl

theorem deeds_of_ready (f : Frame) (ready : session.Ready) :
    session.deeds (.receive f) = session.connection.frameDeeds session.config f := if_pos ready.1

/-- Only WINDOW_UPDATE brings credit. -/
theorem credit_deeds_of_other (f : Frame)
    (other : session.Ready → f.hdr.type ≠ .windowUpdate) :
    (account.acts (session.deeds (.receive f))).credit = account.credit := by
  by_cases alive : session.connection.alive = true
  · rw [deeds, if_pos alive]
    by_cases data : session.connection.continuationStream = 0 ∧ f.hdr.type = .data
    · rw [Connection.frameDeeds_data _ _ _ data.1 data.2]
      exact Connection.credit_handleDataDeeds _ _ account f
    · refine (account.sameWindows_acts _ (Connection.plain_frameDeeds _ _ f fun idle => ?_)).credit
      exact ⟨fun isData => data ⟨idle, isData⟩, other ⟨alive, idle⟩⟩
  · rw [deeds, if_neg alive]
    rfl

theorem credit_deeds (action : Action) :
    (account.acts (session.deeds action)).credit 0 =
      account.credit 0 + session.received action := by
  cases action with
  | op op =>
    cases op with
    | call command => exact congrFun (account.sends_call command).credit 0
    | _ => rfl
  | receive f =>
    by_cases update : session.Ready ∧ f.hdr.type = .windowUpdate
    · rw [deeds_of_ready session f update.1,
        Connection.frameDeeds_windowUpdate _ _ _ update.1.2 update.2]
      unfold received
      dsimp only
      rw [Connection.credit_handleWindowUpdateDeeds]
      refine congrArg _ (if_congr ?_ rfl rfl)
      exact ⟨fun both => ⟨update.1, update.2, both⟩, fun all => all.2.2⟩
    · rw [credit_deeds_of_other session account f fun ready isUpdate => update ⟨ready, isUpdate⟩]
      unfold received
      dsimp only
      rw [if_neg fun all => update ⟨all.1, all.2.1⟩]
      rfl

/-- A session survives an update if and only if the credit stays below the limit. -/
theorem survivesUpdate_iff (refines : Refines account session.connection)
    (window : account.sendWindow = 65535 + account.credit 0)
    (low : account.credit 0 ≤ 2147418112) (action : Action) :
    session.SurvivesUpdate action ↔ account.credit 0 + session.received action ≤ 2147418112 := by
  cases action with
  | op op => exact iff_of_true trivial low
  | receive f =>
    unfold SurvivesUpdate received
    dsimp only
    by_cases update : session.Ready ∧ f.hdr.type = .windowUpdate ∧ f.payload.length = 4
    · obtain ⟨ready, isUpdate, four⟩ := update
      by_cases empty : parseWindowUpdate f.payload = 0
      · rw [empty, ite_self]
        exact iff_of_true (fun _ _ _ positive => absurd rfl positive) low
      · by_cases zero : f.hdr.streamId = 0
        · rw [if_pos ⟨ready, isUpdate, four, zero⟩, act_windowUpdate session f ready isUpdate,
            Connection.handleWindowUpdate_connection _ f four empty zero]
          have before : session.connection.connSendWindow = 65535 + account.credit 0 :=
            refines.sendWindow.trans window
          have limit : (maxWindowSize : Int) = 2147483647 := rfl
          dsimp only [Connection.record]
          rw [before, limit]
          split
          · rename_i above
            refine iff_of_false (fun survives => ?_) (by omega)
            exact Bool.false_ne_true (survives ready isUpdate four empty _ rfl).1
          · rename_i below
            refine iff_of_true (fun _ _ _ _ next same => ?_) (by omega)
            cases same
            exact ⟨ready.1, fun _ => rfl⟩
        · rw [if_neg fun all => zero all.2.2.2]
          refine iff_of_true (fun _ _ _ _ next acted => ?_) low
          rw [act_windowUpdate session f ready isUpdate] at acted
          cases acted
          refine ⟨?_, fun isZero => absurd isZero zero⟩
          exact (Connection.alive_handleWindowUpdate_stream _ f four empty zero).trans ready.1
    · rw [if_neg fun all => update ⟨all.1, all.2.1, all.2.2.1⟩]
      exact iff_of_true (fun ready isUpdate four => absurd ⟨ready, isUpdate, four⟩ update) low

end Updates

/-- The same for the updates of a run. -/
theorem survivesUpdates_of_account (actions : List Action) (session final : Session)
    (account : Account) (refines : Refines account session.connection)
    (window : account.sendWindow = 65535 + account.credit 0)
    (low : account.credit 0 ≤ 2147418112) (run : actions.foldlM act session = .ok final) :
    Along act SurvivesUpdate session actions ↔
      (account.acts (session.history actions)).credit 0 ≤ 2147418112 := by
  induction actions generalizing session account with
  | nil => exact iff_of_true trivial low
  | cons action actions inductionHypothesis =>
    rw [List.foldlM_cons] at run
    obtain ⟨next, first, later⟩ := bind_ok run
    have done := does_act session next action first account refines
    have survives := survivesUpdate_iff session account refines window low action
    rw [← credit_deeds] at survives
    unfold history
    rw [first, Account.acts_append]
    by_cases limit : (account.acts (session.deeds action)).credit 0 ≤ 2147418112
    · rw [← inductionHypothesis next _ done (account.sendWindow_acts _ window) limit later]
      constructor
      · exact fun along => along.2 next first
      · intro along
        refine ⟨survives.mpr limit, fun other same => ?_⟩
        cases first.symm.trans same
        exact along
    · have more := (account.acts (session.deeds action)).credit_acts_le (next.history actions) 0
      exact iff_of_false (fun along => limit (survives.mp along.1)) fun low =>
        limit (more.trans low)

/-- A session survives all of the valid updates that it receives if and only if the credit for the
connection adds up to at most 2147418112. -/
theorem survivesUpdates_iff (mode : Mode) (actions : List Action) (final : Session)
    (run : actions.foldlM act (create mode) = .ok final) :
    Along act SurvivesUpdate (create mode) actions ↔
      (account mode actions).credit 0 ≤ 2147418112 :=
  survivesUpdates_of_account actions (create mode) final (Account.create mode) (refines_create mode)
    rfl (Nat.zero_le _) run

/-- A little data and the credit for it. -/
theorem survivesUpdates_small :
    Along act SurvivesUpdate (create .client)
      [.op (.call (.submitRequest { bd := ascii "hello" } none false)),
        .op (.call .getPendingOutput), .receive (windowUpdateFrame 0 5)] :=
  (survivesUpdates_iff .client _ _ rfl).mpr (by decide)

/-- The peer returns credit for no more than the data that it has been sent. -/
def Repaid (mode : Mode) (actions : List Action) : Prop :=
  ∀ front, front <+: actions →
    (account mode front).credit 0 ≤ loads 0 (account mode front).frames

theorem history_single (session : Session) (action : Action) :
    session.history [action] = session.deeds action := by
  unfold history
  cases session.act action with
  | error fault => exact List.append_nil _
  | ok next => exact List.append_nil _

section Repaid

variable (body : Bytes)

/-- A request, its bytes sent, and credit. -/
def repayment (increment : Nat) : List Action :=
  [.op (.call (.submitRequest { bd := body } none false)), .op (.call .getPendingOutput),
    .receive (windowUpdateFrame 0 increment)]

/-- The session of that run before the credit. -/
def unpaid : Session :=
  ((create .client).op (.call (.submitRequest { bd := body } none false))).op
    (.call .getPendingOutput)

/-- The account of that session. -/
def unpaidAccount : Account :=
  (Account.create .client).call (.submitRequest { bd := body } none false)

theorem refines_unpaid : Refines (unpaidAccount body) (unpaid body).connection :=
  refines_account .client [.op (.call (.submitRequest { bd := body } none false)),
    .op (.call .getPendingOutput)] (unpaid body) rfl

theorem sends_unpaid : Account.Sends (Account.create .client) (unpaidAccount body) :=
  Account.sends_call _ _

theorem ready_unpaid : (unpaid body).Ready :=
  ⟨(refines_unpaid body).alive.trans (sends_unpaid body).alive,
    (Connection.quiet_command _ .getPendingOutput).continuationStream.trans
      (Connection.quiet_command _ (.submitRequest { bd := body } none false)).continuationStream⟩

theorem loads_unpaid : loads 0 (unpaidAccount body).frames = body.length :=
  (Account.loads_call _ 0 (Account.sound_create .client) _).trans (Nat.zero_add _)

theorem received_unpaid (increment : Nat) (small : increment < 2 ^ 31) :
    (unpaid body).received (.receive (windowUpdateFrame 0 increment)) = increment := by
  unfold received
  dsimp only
  rw [if_pos ⟨ready_unpaid body, rfl, rfl, rfl⟩]
  exact parseWindowUpdate_windowUpdateFrame 0 increment small

theorem repaid_repayment (increment : Nat) (small : increment < 2 ^ 31)
    (covered : increment ≤ body.length) : Repaid .client (repayment body increment) := by
  have credit : (unpaidAccount body).credit 0 = 0 := congrFun (sends_unpaid body).credit 0
  have paid : account .client (repayment body increment) =
      (unpaidAccount body).acts
        ((unpaid body).deeds (.receive (windowUpdateFrame 0 increment))) := by
    rw [← history_single]
    rfl
  intro front isPrefix
  rw [← List.mem_inits] at isPrefix
  rcases List.mem_cons.mp isPrefix with rfl | isPrefix
  · exact Nat.zero_le _
  rcases List.mem_cons.mp isPrefix with rfl | isPrefix
  · exact credit.le.trans (Nat.zero_le _)
  rcases List.mem_cons.mp isPrefix with rfl | isPrefix
  · exact credit.le.trans (Nat.zero_le _)
  rw [List.mem_singleton.mp isPrefix]
  show (account .client (repayment body increment)).credit 0 ≤ _
  rw [paid, credit_deeds, credit, received_unpaid body increment small, Nat.zero_add]
  calc increment ≤ body.length := covered
    _ = loads 0 (unpaidAccount body).frames := (loads_unpaid body).symm
    _ ≤ _ := Account.loads_acts_le _ 0 ((sends_unpaid body).sound (Account.sound_create .client)) _

theorem not_along_repayment (increment : Nat) (small : increment < 2 ^ 31)
    (large : 2147418112 < increment) :
    ¬ Along act SurvivesUpdate (create .client) (repayment body increment) := by
  have credit : (unpaidAccount body).credit 0 = 0 := congrFun (sends_unpaid body).credit 0
  have window : (unpaidAccount body).sendWindow = 65535 + (unpaidAccount body).credit 0 := by
    rw [credit]
    exact (sends_unpaid body).sendWindow
  intro along
  have last : (unpaid body).SurvivesUpdate (.receive (windowUpdateFrame 0 increment)) :=
    ((along.2 _ rfl).2 _ rfl).1
  have limit := (survivesUpdate_iff _ _ (refines_unpaid body) window (by rw [credit]; decide)
    _).mp last
  rw [credit, received_unpaid body increment small] at limit
  omega

end Repaid

/-- The peer returns the credit for a body of 2^31 bytes, and the session ends. -/
theorem not_survivesUpdates_repaid :
    Repaid .client (repayment (letters (2 ^ 31)) (2 ^ 31 - 1)) ∧
      ¬ Along act SurvivesUpdate (create .client) (repayment (letters (2 ^ 31)) (2 ^ 31 - 1)) := by
  have covered : 2 ^ 31 - 1 ≤ (letters (2 ^ 31)).length := by
    rw [length_letters]
    decide
  exact ⟨repaid_repayment _ _ (by decide) covered, not_along_repayment _ _ (by decide) (by decide)⟩

end Session

end AsyncNet.Http
