/-
This file is about the promises that a session settles. A promise is settled whenever its
stream ends or is reset, whether or not that has happened before, and the end of the
session settles none. So each promise is settled once if and only if no stream with a
settled promise ends again, and no promise is left behind by a session that has ended if
and only if all of them had been settled when it did.
-/

import AsyncNet.Http.Http2History
import Mathlib.Data.List.Nodup

namespace AsyncNet.Http

open Library H2

/-! ### What a deed does to promises -/

/-- The promise that a deed settles. -/
def Deed.settled : Deed → List PromiseRef
  | .complete ref _ => [ref]
  | .fail ref => [ref]
  | _ => []

/-- The promise that a deed completes with a response. -/
def Deed.finished : Deed → List PromiseRef
  | .complete ref _ => [ref]
  | _ => []

/-- The promise that a deed registers. -/
def Deed.registered : Deed → List PromiseRef
  | .call (.submitRequest _ registration _) => registration.toList
  | _ => []

namespace Account

/-- The promise that a deed makes. -/
def renewed (account : Account) : Deed → List PromiseRef
  | .promise _ => [.push account.nextPushPromise]
  | _ => []

/-- What has become of the promises is the same. -/
structure SamePromises (before after : Account) : Prop where
  promises : after.promises = before.promises
  finished : after.finished = before.finished
  appended : after.appended = before.appended
  resumed : after.resumed = before.resumed

theorem SamePromises.refl (account : Account) : SamePromises account account := ⟨rfl, rfl, rfl, rfl⟩

theorem Sends.samePromises {before after : Account} (sends : Sends before after) :
    SamePromises before after := ⟨sends.promises, sends.finished, sends.appended, sends.resumed⟩

section Deeds

variable (account : Account) (deed : Deed)

theorem samePromises_addCredit (sid increment : Nat) :
    SamePromises account (account.addCredit sid increment) := by
  obtain ⟨_, _, -, credited⟩ := addCredit_eq account sid increment
  rw [credited]
  exact { SamePromises.refl account with }

theorem samePromises_setting (entry : SettingEntry) :
    SamePromises account (account.setting entry) := by
  obtain ⟨_, _, _, _, _, changed⟩ := setting_eq account entry
  rw [changed]
  exact { SamePromises.refl account with }

/-- The lists of promises grow by those that a deed settles. -/
theorem settled_act :
    (account.act deed).appended = account.appended ++ deed.settled ∧
      (account.act deed).finished = account.finished ++ deed.finished ∧
      (account.act deed).resumed = account.resumed ++
        deed.settled.filter fun ref => (account.promises ref).waiter := by
  have same {after : Account} (same : SamePromises account after) :
      after.appended = account.appended ++ [] ∧ after.finished = account.finished ++ [] ∧
        after.resumed = account.resumed ++ [] := by
    rw [List.append_nil, List.append_nil, List.append_nil]
    exact ⟨same.appended, same.finished, same.resumed⟩
  have settles (ref : PromiseRef) : (if (account.promises ref).waiter then [ref] else []) =
      [ref].filter fun ref => (account.promises ref).waiter := by
    rw [List.filter_cons]
    rfl
  cases deed with
  | call command => exact same (sends_call account command).samePromises
  | control control => exact same (sends_control account control).samePromises
  | credit sid increment => exact same (samePromises_addCredit account sid increment)
  | setting entry => exact same (samePromises_setting account entry)
  | complete ref resp => exact ⟨rfl, rfl, congrArg (account.resumed ++ ·) (settles ref)⟩
  | fail ref => exact ⟨rfl, (List.append_nil _).symm, congrArg (account.resumed ++ ·) (settles ref)⟩
  | await ref =>
    exact ⟨(List.append_nil _).symm, (List.append_nil _).symm, (List.append_nil _).symm⟩
  | promise info =>
    exact ⟨(List.append_nil _).symm, (List.append_nil _).symm, (List.append_nil _).symm⟩
  | _ => exact same { SamePromises.refl account with }

theorem registered_submitResponse (sid : Nat) (resp : Response) :
    (account.submitResponse sid resp).registered = account.registered := by
  unfold submitResponse sendTrailers
  dsimp only
  split <;> rfl

theorem registered_submitPush (parent : Nat) (req : Request) (resp : Response) :
    (account.submitPush parent req resp).registered = account.registered := by
  cases enabled : account.enablePush with
  | false => rw [submitPush_of_disabled account parent req resp enabled]
  | true =>
    rw [submitPush_of_enabled account parent req resp enabled, registered_submitResponse]
    rfl

theorem registered_act : (account.act deed).registered = account.registered ++ deed.registered := by
  have none {after : Account} (same : after.registered = account.registered) :
      after.registered = account.registered ++ [] := same.trans (List.append_nil _).symm
  cases deed with
  | call command =>
    cases command with
    | submitResponse sid resp => exact none (registered_submitResponse account sid resp)
    | submitPush parent req resp => exact none (registered_submitPush account parent req resp)
    | submitRequest req registration noEndStream => rfl
    | _ => exact none rfl
  | control control => cases control <;> exact none rfl
  | credit sid increment =>
    obtain ⟨_, _, -, credited⟩ := addCredit_eq account sid increment
    rw [act, credited]
    exact none rfl
  | setting entry =>
    obtain ⟨_, _, _, _, _, changed⟩ := setting_eq account entry
    rw [act, changed]
    exact none rfl
  | _ => exact none rfl

/-- A promise that a deed neither settles nor makes is kept, but for who waits for it. -/
theorem promises_act (ref : PromiseRef) (unsettled : ref ∉ deed.settled)
    (old : ref ∉ account.renewed deed) :
    ∃ waiter, (account.act deed).promises ref = { account.promises ref with waiter } := by
  have same {after : Account} (same : after.promises = account.promises) :
      ∃ waiter, after.promises ref = { account.promises ref with waiter } :=
    ⟨_, congrFun same ref⟩
  cases deed with
  | call command => exact same (sends_call account command).promises
  | control control => exact same (sends_control account control).promises
  | credit sid increment => exact same (samePromises_addCredit account sid increment).promises
  | setting entry => exact same (samePromises_setting account entry).promises
  | await other =>
    by_cases is : ref = other
    · exact ⟨true, (if_pos is).trans (by rw [is])⟩
    · exact ⟨_, if_neg is⟩
  | promise info =>
    rw [renewed, List.mem_singleton] at old
    exact ⟨_, if_neg old⟩
  | complete other resp =>
    rw [Deed.settled, List.mem_singleton] at unsettled
    exact ⟨_, if_neg unsettled⟩
  | fail other =>
    rw [Deed.settled, List.mem_singleton] at unsettled
    exact ⟨_, if_neg unsettled⟩
  | _ => exact same rfl

/-- A promise that a deed settles is complete. -/
theorem complete_of_settled (ref : PromiseRef) (settled : ref ∈ deed.settled) :
    ((account.act deed).promises ref).complete = true ∧
      (ref ∈ deed.finished ∨ ((account.act deed).promises ref).error = true) := by
  cases deed with
  | complete other resp =>
    refine ⟨?_, Or.inl settled⟩
    cases List.mem_singleton.mp settled
    exact congrArg ResponsePromise.complete (if_pos rfl)
  | fail other =>
    cases List.mem_singleton.mp settled
    exact ⟨congrArg ResponsePromise.complete (if_pos rfl),
      Or.inr (congrArg ResponsePromise.error (if_pos rfl))⟩
  | _ => exact absurd settled List.not_mem_nil

/-- A promise that a deed makes is not complete. -/
theorem complete_of_renewed (ref : PromiseRef) (renewed : ref ∈ account.renewed deed) :
    ((account.act deed).promises ref).complete = false := by
  cases deed with
  | promise info =>
    cases List.mem_singleton.mp renewed
    exact congrArg ResponsePromise.complete (if_pos rfl)
  | _ => exact absurd renewed List.not_mem_nil

end Deeds

/-! ### Settling a promise once -/

/-- Every promise has been handed on, and its waiter resumed, at most once. -/
def SettledOnce (account : Account) : Prop := account.appended.Nodup ∧ account.resumed.Nodup

/-- What is complete stays complete, with the same response. -/
def Keeps (before after : Account) : Prop :=
  ∀ ref, (before.promises ref).complete = true →
    (after.promises ref).complete = true ∧ (after.promises ref).resp = (before.promises ref).resp

theorem Keeps.trans {first second third : Account} (left : Keeps first second)
    (right : Keeps second third) : Keeps first third := by
  intro ref complete
  obtain ⟨still, same⟩ := left ref complete
  obtain ⟨still', same'⟩ := right ref still
  exact ⟨still', same'.trans same⟩

/-- A deed settles, or makes, only promises that are not complete. -/
def SettlesOnce (account : Account) (deed : Deed) : Prop :=
  ∀ ref ∈ deed.settled ++ account.renewed deed, (account.promises ref).complete = false

/-- A promise that is complete has been handed on. -/
def Recorded (account : Account) : Prop :=
  ∀ ref, (account.promises ref).complete = true → ref ∈ account.appended

/-- The promises that have been handed on are complete, each was handed on once, and no other has
had its waiter resumed. -/
structure Settled (account : Account) : Prop where
  once : account.SettledOnce
  complete : ∀ ref ∈ account.appended, (account.promises ref).complete = true
  resumed : account.resumed ⊆ account.appended

section Once

variable (account : Account) (deed : Deed)

theorem recorded_act (recorded : account.Recorded) : (account.act deed).Recorded := by
  intro ref complete
  rw [(settled_act account deed).1]
  by_cases settled : ref ∈ deed.settled
  · exact List.mem_append_right _ settled
  by_cases renewed : ref ∈ account.renewed deed
  · rw [complete_of_renewed account deed ref renewed] at complete
    exact absurd complete Bool.false_ne_true
  · obtain ⟨waiter, same⟩ := promises_act account deed ref settled renewed
    rw [same] at complete
    exact List.mem_append_left _ (recorded ref complete)

theorem keeps_act (once : account.SettlesOnce deed) : Keeps account (account.act deed) := by
  intro ref complete
  have untouched : ref ∉ deed.settled ++ account.renewed deed := by
    intro touched
    rw [once ref touched] at complete
    exact Bool.false_ne_true complete
  obtain ⟨unsettled, old⟩ := not_or.mp (List.mem_append.not.mp untouched)
  obtain ⟨waiter, same⟩ := promises_act account deed ref unsettled old
  rw [same]
  exact ⟨complete, rfl⟩

theorem keeps_acts (deeds : List Deed) (throughout : Throughout act SettlesOnce account deeds) :
    Keeps account (account.acts deeds) := by
  induction deeds generalizing account with
  | nil => exact fun _ complete => ⟨complete, rfl⟩
  | cons deed deeds inductionHypothesis =>
    exact (keeps_act account deed throughout.1).trans (inductionHypothesis _ throughout.2)

theorem nodup_settled : deed.settled.Nodup := by
  cases deed with
  | complete ref resp => exact List.nodup_singleton ref
  | fail ref => exact List.nodup_singleton ref
  | _ => exact List.nodup_nil

theorem Settled.act {account : Account} (settled : account.Settled)
    (once : account.SettlesOnce deed) : (account.act deed).Settled := by
  obtain ⟨appended, _, resumed⟩ := settled_act account deed
  have fresh : ∀ ref ∈ deed.settled, ref ∉ account.appended := by
    intro ref settles before
    have complete := settled.complete ref before
    rw [once ref (List.mem_append_left _ settles)] at complete
    exact Bool.false_ne_true complete
  have waiters : deed.settled.filter (fun ref => (account.promises ref).waiter) ⊆ deed.settled :=
    fun ref member => (List.mem_filter.mp member).1
  refine ⟨⟨?_, ?_⟩, ?_, ?_⟩
  · rw [appended, List.nodup_append']
    exact ⟨settled.once.1, nodup_settled deed, fun ref before settles => fresh ref settles before⟩
  · rw [resumed, List.nodup_append']
    exact ⟨settled.once.2, (nodup_settled deed).filter _, fun ref before settles =>
      fresh ref (waiters settles) (settled.resumed before)⟩
  · intro ref member
    rw [appended] at member
    rcases List.mem_append.mp member with before | settles
    · exact (keeps_act account deed once ref (settled.complete ref before)).1
    · exact (complete_of_settled account deed ref settles).1
  · rw [appended, resumed]
    exact List.append_subset.mpr ⟨List.subset_append_of_subset_left _ settled.resumed,
      List.subset_append_of_subset_right _ waiters⟩

/-- A deed that settles a promise again hands it on again, and one that makes it anew loses it. -/
theorem settlesOnce_of_keeps (recorded : account.Recorded)
    (nodup : (account.act deed).appended.Nodup) (keeps : Keeps account (account.act deed)) :
    account.SettlesOnce deed := by
  intro ref touched
  refine Bool.eq_false_of_not_eq_true fun complete => ?_
  rcases List.mem_append.mp touched with settles | renews
  · rw [(settled_act account deed).1, List.nodup_append'] at nodup
    exact nodup.2.2 (recorded ref complete) settles
  · have still := (keeps ref complete).1
    rw [complete_of_renewed account deed ref renews] at still
    exact Bool.false_ne_true still

end Once

/-- Every promise is settled once and keeps its response in a run if and only if every deed settles
or makes only promises that are not complete. -/
theorem settledOnce_iff (deeds : List Deed) (account : Account) (recorded : account.Recorded)
    (settled : account.Settled) :
    (∀ front more, front ++ more <+: deeds →
        ((account.acts front).acts more).SettledOnce ∧
          Keeps (account.acts front) ((account.acts front).acts more)) ↔
      Throughout act SettlesOnce account deeds := by
  constructor
  · intro all
    rw [throughout_iff_forall_front]
    intro front deed isPrefix
    obtain ⟨once, keeps⟩ := all front [deed] isPrefix
    refine settlesOnce_of_keeps (account.acts front) deed ?_ once.1 keeps
    exact foldl_invariant (fun account deed => account.recorded_act deed) front account recorded
  · intro throughout front more isPrefix
    obtain ⟨rest, rfl⟩ := isPrefix
    rw [List.append_assoc, throughout_append] at throughout
    obtain ⟨early, late⟩ := throughout
    have before := foldl_throughout (fun account deed settled => settled.act deed) front account
      settled early
    have later := ((throughout_append more rest _).mp late).1
    have after := foldl_throughout (fun account deed settled => settled.act deed) more _ before
      later
    exact ⟨after.once, keeps_acts (account.acts front) more later⟩

theorem recorded_create (mode : Mode) : (create mode).Recorded :=
  fun _ complete => absurd complete Bool.false_ne_true

theorem settled_create (mode : Mode) : (create mode).Settled :=
  ⟨⟨List.nodup_nil, List.nodup_nil⟩, nofun, fun _ member => member⟩

/-! ### Promises that are left behind -/

/-- Every promise that is registered with a session that has ended is complete, with an error unless
its response has finished. -/
def LeavesNone (account : Account) : Prop :=
  account.alive = false → ∀ ref ∈ account.registered,
    (account.promises ref).complete = true ∧
      (ref ∉ account.finished → (account.promises ref).error = true)

/-- A deed leaves no promise behind: a session ends when all are complete, none is registered with
one that has ended unless it is complete, and none of them is made anew. -/
def Settling (account : Account) (deed : Deed) : Prop :=
  match deed with
  | .halt => ∀ ref ∈ account.registered, (account.promises ref).complete = true
  | _ =>
      account.alive = false →
        (∀ ref ∈ deed.registered, (account.promises ref).complete = true) ∧
          ∀ ref ∈ account.renewed deed, ref ∉ account.registered

/-- A promise is complete because its response has finished or with an error. -/
def Explained (account : Account) : Prop :=
  ∀ ref, (account.promises ref).complete = true →
    ref ∈ account.finished ∨ (account.promises ref).error = true

section Leaving

variable (account : Account) (deed : Deed)

theorem explained_act (explained : account.Explained) : (account.act deed).Explained := by
  intro ref complete
  rw [(settled_act account deed).2.1]
  by_cases settled : ref ∈ deed.settled
  · exact (complete_of_settled account deed ref settled).2.imp_left
      (List.mem_append_right account.finished)
  by_cases renewed : ref ∈ account.renewed deed
  · rw [complete_of_renewed account deed ref renewed] at complete
    exact absurd complete Bool.false_ne_true
  · obtain ⟨waiter, same⟩ := promises_act account deed ref settled renewed
    rw [same] at complete ⊢
    exact (explained ref complete).imp_left (List.mem_append_left _)

/-- Completeness alone decides whether a promise is left behind. -/
theorem leavesNone_iff (explained : account.Explained) :
    account.LeavesNone ↔
      (account.alive = false → ∀ ref ∈ account.registered,
        (account.promises ref).complete = true) := by
  constructor
  · intro none dead ref member
    exact (none dead ref member).1
  · intro complete dead ref member
    have isComplete := complete dead ref member
    exact ⟨isComplete, fun unfinished => (explained ref isComplete).resolve_left unfinished⟩

/-- A deed leaves no promise behind if and only if it is settling. -/
theorem leavesNone_act (explained : account.Explained) (none : account.LeavesNone) :
    (account.act deed).LeavesNone ↔ account.Settling deed := by
  rw [leavesNone_iff _ (explained_act account deed explained), registered_act, alive_act]
  rw [leavesNone_iff account explained] at none
  by_cases halts : deed = .halt
  · subst halts
    have nothing : Deed.halt.registered = [] := rfl
    rw [nothing, List.append_nil]
    exact ⟨fun complete => complete (Or.inr rfl), fun complete _ => complete⟩
  have settling : account.Settling deed ↔ (account.alive = false →
      (∀ ref ∈ deed.registered, (account.promises ref).complete = true) ∧
        ∀ ref ∈ account.renewed deed, ref ∉ account.registered) := by
    cases deed with
    | halt => exact absurd rfl halts
    | _ => rfl
  rw [settling, or_iff_left halts]
  refine imp_congr_right fun dead => ?_
  have registering (ref : PromiseRef) (member : ref ∈ deed.registered) :
      ref ∉ deed.settled ∧ ref ∉ account.renewed deed := by
    cases deed with
    | call command => exact ⟨List.not_mem_nil, List.not_mem_nil⟩
    | _ => exact absurd member List.not_mem_nil
  have kept (ref : PromiseRef) (unsettled : ref ∉ deed.settled) (old : ref ∉ account.renewed deed) :
      ((account.act deed).promises ref).complete = (account.promises ref).complete := by
    obtain ⟨waiter, same⟩ := promises_act account deed ref unsettled old
    rw [same]
  constructor
  · intro complete
    refine ⟨fun ref member => ?_, fun ref renews member => ?_⟩
    · obtain ⟨unsettled, old⟩ := registering ref member
      rw [← kept ref unsettled old]
      exact complete ref (List.mem_append_right _ member)
    · have after := complete ref (List.mem_append_left _ member)
      rw [complete_of_renewed account deed ref renews] at after
      exact Bool.false_ne_true after
  · rintro ⟨registers, renews⟩ ref member
    by_cases settled : ref ∈ deed.settled
    · exact (complete_of_settled account deed ref settled).1
    rcases List.mem_append.mp member with before | new
    · rw [kept ref settled fun renewed => renews ref renewed before]
      exact none dead ref before
    · rw [kept ref settled (registering ref new).2]
      exact registers ref new

end Leaving

theorem explained_create (mode : Mode) : (create mode).Explained :=
  fun _ complete => absurd complete Bool.false_ne_true

theorem leavesNone_create (mode : Mode) : (create mode).LeavesNone :=
  fun dead => absurd dead.symm Bool.false_ne_true

end Account

/-! ### Runs -/

namespace Session

/-- In every run of a client each promise is handed on and its waiter resumed at most once, and it
keeps its response once it is complete, if and only if every deed settles or makes only promises
that are not complete. -/
theorem settledOnce_client_iff (actions : List Action) (final : Session)
    (run : actions.foldlM act (create .client) = .ok final) :
    Refines (account .client actions) final.connection ∧
      ((∀ front more, front ++ more <+: (create .client).history actions →
          (((Account.create .client).acts front).acts more).SettledOnce ∧
            Account.Keeps ((Account.create .client).acts front)
              (((Account.create .client).acts front).acts more)) ↔
        Throughout Account.act Account.SettlesOnce (Account.create .client)
          ((create .client).history actions)) :=
  ⟨refines_account .client actions final run,
    Account.settledOnce_iff _ _ (Account.recorded_create .client) (Account.settled_create .client)⟩

/-- The frame of a response without a body. -/
def responseFrame : Frame := .ofPayload .headers (Flag.endHeaders ||| Flag.endStream) 1 [0x88]

/-- A request that is awaited and answered. -/
theorem settledOnce_answered :
    ∃ final, [.op (.call (.submitRequest {} (some (.caller 0)) false)), .op (.await (.caller 0)),
        .receive responseFrame].foldlM act (create .client) = .ok final ∧
      ∀ front more, front ++ more <+: (create .client).history
          [.op (.call (.submitRequest {} (some (.caller 0)) false)), .op (.await (.caller 0)),
            .receive responseFrame] →
        (((Account.create .client).acts front).acts more).SettledOnce ∧
          Account.Keeps ((Account.create .client).acts front)
            (((Account.create .client).acts front).acts more) := by
  refine ⟨_, rfl, (settledOnce_client_iff _ _ rfl).2.mpr
    ⟨show ∀ ref ∈ [], _ from nofun, show ∀ ref ∈ [], _ from nofun, ?_, trivial⟩⟩
  intro ref member
  rewrite [List.mem_singleton.mp member]
  rfl

/-- The response arrives twice, and the coroutine that waits for it is resumed twice. -/
theorem not_settledOnce_answered_twice :
    ∃ final, [.op (.call (.submitRequest {} (some (.caller 0)) false)), .op (.await (.caller 0)),
        .receive responseFrame, .receive responseFrame].foldlM act (create .client) = .ok final ∧
      final.connection.completedPromises = [.caller 0, .caller 0] ∧
      resumesOf final.connection.events = [.caller 0, .caller 0] ∧
      ¬ (account .client
        [.op (.call (.submitRequest {} (some (.caller 0)) false)), .op (.await (.caller 0)),
          .receive responseFrame, .receive responseFrame]).SettledOnce :=
  ⟨_, rfl, rfl, rfl, fun once => absurd once.1 (by decide)⟩

/-- A client leaves no promise behind, at any moment of a run, if and only if it ends when all of
them are complete and none that is not is registered with it afterwards. -/
theorem leavesNone_client_iff (actions : List Action) (final : Session)
    (run : actions.foldlM act (create .client) = .ok final) :
    Refines (account .client actions) final.connection ∧
      ((∀ front, front <+: (create .client).history actions →
          ((Account.create .client).acts front).LeavesNone) ↔
        Throughout Account.act Account.Settling (Account.create .client)
          ((create .client).history actions)) :=
  ⟨refines_account .client actions final run,
    forall_prefix_iff_throughout (fun account deed => account.explained_act deed)
      (fun account deed => account.leavesNone_act deed) _ _ (Account.explained_create .client)
      (Account.leavesNone_create .client)⟩

/-- The frame by which a server ends the connection. -/
def goawayFrame : Frame := .ofPayload .goaway 0 0 (putUint32 1 ++ putUint32 0)

/-- A request that is answered before the connection ends. -/
theorem leavesNone_answered :
    ∃ final, [.op (.call (.submitRequest {} (some (.caller 0)) false)), .receive responseFrame,
        .receive goawayFrame].foldlM act (create .client) = .ok final ∧
      ∀ front, front <+: (create .client).history
          [.op (.call (.submitRequest {} (some (.caller 0)) false)), .receive responseFrame,
            .receive goawayFrame] →
        ((Account.create .client).acts front).LeavesNone := by
  refine ⟨_, rfl, (leavesNone_client_iff _ _ rfl).2.mpr ⟨nofun, nofun, ?_, trivial⟩⟩
  intro ref member
  rewrite [List.mem_singleton.mp member]
  rfl

/-- A request whose promise is left behind when the connection ends. -/
theorem not_leavesNone_unanswered :
    ∃ final, [.op (.call (.submitRequest {} (some (.caller 0)) false)),
        .receive goawayFrame].foldlM act (create .client) = .ok final ∧
      final.connection.alive = false ∧
      (final.connection.promises (.caller 0)).complete = false ∧
      ¬ (account .client [.op (.call (.submitRequest {} (some (.caller 0)) false)),
        .receive goawayFrame]).LeavesNone :=
  ⟨_, rfl, rfl, rfl, fun none =>
    absurd (none rfl (.caller 0) List.mem_cons_self).1 Bool.false_ne_true⟩

end Session

end AsyncNet.Http
