/-
This file models the `work_guard` objects of `io_context`: their construction, copies, moves,
assignments, `reset` and destruction, over any number of contexts, whose loops take their steps
in between. An object is a place in a list, by the order of construction, and an operation on an
object that has been destroyed is undefined.

The invariant is that the work count of a context is the number of the objects that refer to it.
So a `fetch_sub` always finds a count that is positive, and `run_until_complete` reads zero
exactly when no object refers to its context. The count of 64 bits does not overflow, since the
objects are in memory. The `wake` of a release lets a poll return; the step of a poll can be
taken at any time here.
-/

import AsyncNet.Io.Posting
import Mathlib.Algebra.Group.Nat.Defs
import Mathlib.Data.List.Count

namespace AsyncNet.Io

open Library

/-! ### The objects -/

/-- `work_guard`, with the number of the context that `ctx_` points to. -/
structure WorkGuard where
  ctx : Option Nat
  deriving DecidableEq

/-- The contexts, and the objects that have been constructed, where there is none after its
destruction. -/
structure WorkGuards (Handler : Type) where
  contexts : List (IoContext Handler)
  guards : List (Option WorkGuard) := []
  deriving DecidableEq

inductive GuardAction (Handler : Type) where
  | construct (context : Nat)
  | copyConstruct (other : Nat)
  | moveConstruct (other : Nat)
  | copyAssign (guard other : Nat)
  | moveAssign (guard other : Nat)
  | reset (guard : Nat)
  | destroy (guard : Nat)
  /-- A step of a context that is not one of its guards'. -/
  | context (number : Nat) (action : ContextAction Handler)
  deriving DecidableEq

namespace WorkGuards

variable {Handler : Type}

/-- Contexts to which no guard refers. -/
def fresh (count : Nat) : WorkGuards Handler := { contexts := List.replicate count {} }

/-- An object that has not been destroyed. -/
def alive (state : WorkGuards Handler) (guard : Nat) : Option WorkGuard :=
  (state.guards[guard]?).join

def create (state : WorkGuards Handler) (ctx : Option Nat) : WorkGuards Handler :=
  { state with guards := state.guards ++ [some ⟨ctx⟩] }

def put (state : WorkGuards Handler) (guard : Nat) (ctx : Option Nat) : WorkGuards Handler :=
  { state with guards := state.guards.set guard (some ⟨ctx⟩) }

/-- `if (ctx_) ctx_->work_count_.fetch_add(1)` -/
def fetchAdd (state : WorkGuards Handler) : Option Nat → WorkGuards Handler
  | none => state
  | some number =>
      { state with
        contexts := state.contexts.modify number fun context =>
          { context with workCount := context.workCount + 1 } }

/-- `ctx_->work_count_.fetch_sub(1)`, which wraps when there is nothing to subtract from. -/
def fetchSub (state : WorkGuards Handler) (number : Nat) : WorkGuards Handler :=
  { state with
    contexts := state.contexts.modify number fun context =>
      { context with
        workCount := if context.workCount = 0 then 2 ^ 64 - 1 else context.workCount - 1 } }

/-- `release` -/
def release (state : WorkGuards Handler) (guard : Nat) : WorkGuards Handler :=
  match state.alive guard with
  | some ⟨some number⟩ => (state.fetchSub number).put guard none
  | _ => state

/-- The assignment of a copy to an object. Between its release and its `fetch_add`, a loop finds
what it finds after a `reset`. -/
def copyAssign (state : WorkGuards Handler) (guard other : Nat) : Option (WorkGuards Handler) :=
  if guard = other then some state
  else
    let state := state.release guard
    (state.alive other).map fun source => (state.fetchAdd source.ctx).put guard source.ctx

/-- The assignment of what is moved out of another object. -/
def moveAssign (state : WorkGuards Handler) (guard other : Nat) : Option (WorkGuards Handler) :=
  if guard = other then some state
  else
    let state := state.release guard
    (state.alive other).map fun source => (state.put other none).put guard source.ctx

variable [DecidableEq Handler]

/-- A step, if what it refers to is there. Only the guards change a work count. -/
def step (state : WorkGuards Handler) : GuardAction Handler → Option (WorkGuards Handler)
  | .construct number =>
      if number < state.contexts.length then
        some ((state.fetchAdd (some number)).create (some number))
      else none
  | .copyConstruct other =>
      (state.alive other).map fun source => (state.fetchAdd source.ctx).create source.ctx
  | .moveConstruct other =>
      (state.alive other).map fun source => (state.put other none).create source.ctx
  | .copyAssign guard other => (state.alive guard).bind fun _ => state.copyAssign guard other
  | .moveAssign guard other => (state.alive guard).bind fun _ => state.moveAssign guard other
  | .reset guard => (state.alive guard).map fun _ => state.release guard
  | .destroy guard =>
      (state.alive guard).map fun _ =>
        { state.release guard with guards := (state.release guard).guards.set guard none }
  | .context number action =>
      if action = .makeWork ∨ action = .releaseWork then none
      else
        (state.contexts[number]?).bind fun context =>
          (context.step action).map fun next =>
            { state with contexts := state.contexts.set number next }

/-! ### Counting -/

/-- The work count of a context. -/
def work (state : WorkGuards Handler) (number : Nat) : Nat :=
  ((state.contexts[number]?).map IoContext.workCount).getD 0

/-- The number of live objects that refer to a context. -/
def live (state : WorkGuards Handler) (number : Nat) : Nat :=
  state.guards.count (some ⟨some number⟩)

/-- What one object adds to that number. -/
def points (ctx : Option Nat) (number : Nat) : Nat := if ctx = some number then 1 else 0

def Counted (state : WorkGuards Handler) : Prop := ∀ number, state.work number = state.live number

/-! ### What the operations count -/

section Counting

variable {state : WorkGuards Handler} {guard other number : Nat} {old : WorkGuard}

omit [DecidableEq Handler]

theorem getElem?_of_alive (isAlive : state.alive guard = some old) :
    state.guards[guard]? = some (some old) := Option.join_eq_some_iff.mp isAlive

/-- Setting an element of a list takes the old one from its counts and adds the new one. -/
theorem count_set_add {Element : Type} [BEq Element] [LawfulBEq Element] [DecidableEq Element]
    {elements : List Element} {place : Nat} {before : Element}
    (found : elements[place]? = some before) (new counted : Element) :
    (elements.set place new).count counted + (if before = counted then 1 else 0) =
      elements.count counted + (if new = counted then 1 else 0) := by
  obtain ⟨inside, same⟩ := List.getElem?_eq_some_iff.mp found
  have positive : before = counted → 0 < elements.count counted := by
    rintro rfl
    exact List.count_pos_iff.mpr (List.mem_of_getElem? found)
  rw [List.count_set inside, same]
  simp only [beq_iff_eq]
  split
  · rename_i equal
    have := positive equal
    omega
  · omega

theorem points_eq (ctx : Option Nat) (number : Nat) :
    (if (some ⟨ctx⟩ : Option WorkGuard) = some ⟨some number⟩ then 1 else 0) =
      points ctx number := by
  unfold points
  simp only [Option.some.injEq, WorkGuard.mk.injEq]

theorem live_create (state : WorkGuards Handler) (ctx : Option Nat) (number : Nat) :
    (state.create ctx).live number = state.live number + points ctx number := by
  unfold live create
  rw [List.count_append, ← points_eq, List.count_singleton]
  simp only [beq_iff_eq]

theorem live_put (isAlive : state.alive guard = some old) (ctx : Option Nat) (number : Nat) :
    (state.put guard ctx).live number + points old.ctx number =
      state.live number + points ctx number := by
  have counted := count_set_add (getElem?_of_alive isAlive) (some ⟨ctx⟩) (some ⟨some number⟩)
  rw [points_eq, points_eq] at counted
  exact counted

theorem live_pos (isAlive : state.alive guard = some ⟨some number⟩) : 0 < state.live number :=
  List.count_pos_iff.mpr (List.mem_of_getElem? (getElem?_of_alive isAlive))

theorem lt_length_of_work_pos (positive : 0 < state.work number) :
    number < state.contexts.length := by
  by_contra outside
  unfold work at positive
  rw [List.getElem?_eq_none (Nat.le_of_not_lt outside)] at positive
  exact absurd positive (Nat.lt_irrefl 0)

/-- The work counts when one context has changed. -/
theorem work_modify (inside : number < state.contexts.length)
    (change : IoContext Handler → IoContext Handler) (each : Nat) :
    work { state with contexts := state.contexts.modify number change } each =
      if number = each then (change (state.contexts.get ⟨number, inside⟩)).workCount
      else state.work each := by
  unfold work
  dsimp only
  by_cases same : number = each
  · subst same
    rw [if_pos rfl, List.getElem?_modify_eq, List.getElem?_eq_getElem inside]
    rfl
  · rw [if_neg same, List.getElem?_modify_ne _ _ same]

theorem work_inside (inside : number < state.contexts.length) :
    state.work number = (state.contexts.get ⟨number, inside⟩).workCount := by
  unfold work
  rw [List.getElem?_eq_getElem inside]
  rfl

theorem work_fetchAdd {ctx : Option Nat}
    (inside : ∀ number, ctx = some number → number < state.contexts.length) (each : Nat) :
    (state.fetchAdd ctx).work each = state.work each + points ctx each := by
  cases ctx with
  | none => rfl
  | some number =>
    refine (work_modify (inside number rfl) _ each).trans ?_
    unfold points
    simp only [Option.some.injEq]
    split
    · rename_i same
      subst same
      rw [work_inside (inside number rfl)]
    · rfl

/-- Nothing wraps when the count is positive. -/
theorem work_fetchSub (positive : 0 < state.work number) (each : Nat) :
    (state.fetchSub number).work each + points (some number) each = state.work each := by
  have inside := lt_length_of_work_pos positive
  have count := work_inside inside
  refine (congrArg (· + _) (work_modify inside _ each)).trans ?_
  unfold points
  simp only [Option.some.injEq]
  split
  · rename_i same
    subst same
    rw [count] at positive ⊢
    rw [if_neg (Nat.ne_of_gt positive)]
    exact Nat.sub_add_cancel positive
  · rfl

theorem alive_put_self (isAlive : state.alive guard = some old) (ctx : Option Nat) :
    (state.put guard ctx).alive guard = some ⟨ctx⟩ := by
  have inside := (List.getElem?_eq_some_iff.mp (getElem?_of_alive isAlive)).1
  unfold alive put
  dsimp only
  rw [List.getElem?_set_self inside]
  rfl

theorem alive_put_other (different : guard ≠ other) (ctx : Option Nat) :
    (state.put guard ctx).alive other = state.alive other := by
  unfold alive put
  dsimp only
  rw [List.getElem?_set_ne different]

/-! ### Releasing -/

/-- An object that has been released refers to no context. -/
theorem alive_release_self (isAlive : state.alive guard = some old) :
    (state.release guard).alive guard = some ⟨none⟩ := by
  obtain ⟨ctx⟩ := old
  unfold release
  rw [isAlive]
  cases ctx with
  | none => exact isAlive
  | some number =>
    have isAlive' : (state.fetchSub number).alive guard = some ⟨some number⟩ := isAlive
    exact alive_put_self isAlive' none

theorem Counted.release (counted : state.Counted) (guard : Nat) :
    (state.release guard).Counted := by
  intro each
  unfold WorkGuards.release
  split
  · rename_i number isAlive
    have positive : 0 < state.work number := by
      rw [counted number]
      exact live_pos isAlive
    have subtracted := work_fetchSub positive each
    have isAlive' : (state.fetchSub number).alive guard = some ⟨some number⟩ := isAlive
    have put := live_put isAlive' none each
    have same : (state.fetchSub number).live each = state.live each := rfl
    have nothing : points none each = 0 := rfl
    have before := counted each
    show (state.fetchSub number).work each = _
    dsimp only at put
    omega
  · exact counted each

/-- The context of an object is there. -/
theorem Counted.inside (counted : state.Counted) (isAlive : state.alive other = some old)
    (number : Nat) (refers : old.ctx = some number) : number < state.contexts.length := by
  obtain ⟨ctx⟩ := old
  cases refers
  refine lt_length_of_work_pos ?_
  rw [counted number]
  exact live_pos isAlive

/-- An object is constructed that refers to what is counted for it. -/
theorem Counted.create (counted : state.Counted) {ctx : Option Nat}
    (inside : ∀ number, ctx = some number → number < state.contexts.length) :
    ((state.fetchAdd ctx).create ctx).Counted := by
  intro each
  rw [live_create]
  refine (work_fetchAdd inside each).trans ?_
  rw [counted each]
  cases ctx <;> rfl

/-- An object that refers to no context takes over what is counted for it. -/
theorem Counted.put (counted : state.Counted) (isAlive : state.alive guard = some ⟨none⟩)
    {ctx : Option Nat} (inside : ∀ number, ctx = some number → number < state.contexts.length) :
    ((state.fetchAdd ctx).put guard ctx).Counted := by
  intro each
  have added := work_fetchAdd inside each
  have same : (state.fetchAdd ctx).guards = state.guards := by cases ctx <;> rfl
  have put := live_put isAlive ctx each
  have nothing : points none each = 0 := rfl
  have before := counted each
  have whole :
      ((state.fetchAdd ctx).put guard ctx).live each = (state.put guard ctx).live each := by
    unfold live WorkGuards.put
    dsimp only
    rw [same]
  rw [whole]
  show (state.fetchAdd ctx).work each = _
  dsimp only at put
  omega

/-- What one object refers to goes over to another one that is constructed. -/
theorem Counted.moveConstruct (counted : state.Counted) (isAlive : state.alive other = some old) :
    ((state.put other none).create old.ctx).Counted := by
  intro each
  have put := live_put isAlive none each
  have nothing : points none each = 0 := rfl
  rw [live_create]
  have before := counted each
  show state.work each = _
  omega

/-- What one object refers to goes over to one that refers to no context. -/
theorem Counted.move (counted : state.Counted) (isNull : state.alive guard = some ⟨none⟩)
    (isAlive : state.alive other = some old) (different : guard ≠ other) :
    ((state.put other none).put guard old.ctx).Counted := by
  intro each
  have taken := live_put isAlive none each
  have isNull' : (state.put other none).alive guard = some ⟨none⟩ :=
    (alive_put_other different.symm none).trans isNull
  have put := live_put isNull' old.ctx each
  have nothing : points none each = 0 := rfl
  have before := counted each
  show state.work each = _
  dsimp only at put
  omega

/-- An object that refers to no context is destroyed. -/
theorem Counted.destroy (counted : state.Counted) (isNull : state.alive guard = some ⟨none⟩) :
    Counted { state with guards := state.guards.set guard none } := by
  intro each
  have set := count_set_add (getElem?_of_alive isNull) none (some ⟨some each⟩)
  rw [points_eq] at set
  exact (counted each).trans set.symm

end Counting

/-! ### The steps -/

section Steps

variable {state next : WorkGuards Handler} {action : GuardAction Handler}

/-- The steps of a context leave its work count to the guards. -/
theorem workCount_of_step {context next : IoContext Handler} {action : ContextAction Handler}
    (others : ¬(action = .makeWork ∨ action = .releaseWork))
    (taken : context.step action = some next) : next.workCount = context.workCount := by
  cases action with
  | enter loop =>
    rw [IoContext.step] at taken
    split at taken
    · cases taken
      cases loop <;> rfl
    · cases taken
  | advance loopStep => exact (IoContext.advance_spec taken).2.1
  | post _ | postAt _ _ | stop | restart =>
    cases taken
    rfl
  | makeWork => exact absurd (Or.inl rfl) others
  | releaseWork => exact absurd (Or.inr rfl) others

/-- What a step does. -/
inductive Moves (state : WorkGuards Handler) : GuardAction Handler → WorkGuards Handler → Prop where
  | construct {number} (inside : number < state.contexts.length) :
      Moves state (.construct number) ((state.fetchAdd (some number)).create (some number))
  | copyConstruct {other source} (isAlive : state.alive other = some source) :
      Moves state (.copyConstruct other) ((state.fetchAdd source.ctx).create source.ctx)
  | moveConstruct {other source} (isAlive : state.alive other = some source) :
      Moves state (.moveConstruct other) ((state.put other none).create source.ctx)
  | copySelf {guard} : Moves state (.copyAssign guard guard) state
  | copyAssign {guard other target source} (isTarget : state.alive guard = some target)
      (isAlive : (state.release guard).alive other = some source) :
      Moves state (.copyAssign guard other)
        (((state.release guard).fetchAdd source.ctx).put guard source.ctx)
  | moveSelf {guard} : Moves state (.moveAssign guard guard) state
  | moveAssign {guard other target source} (isTarget : state.alive guard = some target)
      (different : guard ≠ other) (isAlive : (state.release guard).alive other = some source) :
      Moves state (.moveAssign guard other)
        (((state.release guard).put other none).put guard source.ctx)
  | reset {guard} : Moves state (.reset guard) (state.release guard)
  | destroy {guard target} (isTarget : state.alive guard = some target) :
      Moves state (.destroy guard)
        { state.release guard with guards := (state.release guard).guards.set guard none }
  | context {number inner before later} (isBefore : state.contexts[number]? = some before)
      (others : ¬(inner = .makeWork ∨ inner = .releaseWork))
      (taken : before.step inner = some later) :
      Moves state (.context number inner)
        { state with contexts := state.contexts.set number later }

theorem moves_of_step (taken : state.step action = some next) : Moves state action next := by
  cases action with
  | construct number =>
    rw [WorkGuards.step] at taken
    split at taken
    · rename_i inside
      cases taken
      exact .construct inside
    · cases taken
  | copyConstruct other =>
    obtain ⟨source, isAlive, rfl⟩ := Option.map_eq_some_iff.mp taken
    exact .copyConstruct isAlive
  | moveConstruct other =>
    obtain ⟨source, isAlive, rfl⟩ := Option.map_eq_some_iff.mp taken
    exact .moveConstruct isAlive
  | copyAssign guard other =>
    obtain ⟨target, isTarget, assigned⟩ := Option.bind_eq_some_iff.mp taken
    unfold WorkGuards.copyAssign at assigned
    split at assigned
    · rename_i same
      cases assigned
      exact same ▸ .copySelf
    · obtain ⟨source, isAlive, rfl⟩ := Option.map_eq_some_iff.mp assigned
      exact .copyAssign isTarget isAlive
  | moveAssign guard other =>
    obtain ⟨target, isTarget, assigned⟩ := Option.bind_eq_some_iff.mp taken
    unfold WorkGuards.moveAssign at assigned
    split at assigned
    · rename_i same
      cases assigned
      exact same ▸ .moveSelf
    · rename_i different
      obtain ⟨source, isAlive, rfl⟩ := Option.map_eq_some_iff.mp assigned
      exact .moveAssign isTarget different isAlive
  | reset guard =>
    obtain ⟨target, isTarget, rfl⟩ := Option.map_eq_some_iff.mp taken
    exact .reset
  | destroy guard =>
    obtain ⟨target, isTarget, rfl⟩ := Option.map_eq_some_iff.mp taken
    exact .destroy isTarget
  | context number inner =>
    rw [WorkGuards.step] at taken
    split at taken
    · cases taken
    · rename_i others
      obtain ⟨before, isBefore, stepped⟩ := Option.bind_eq_some_iff.mp taken
      obtain ⟨later, step, rfl⟩ := Option.map_eq_some_iff.mp stepped
      exact .context isBefore others step

theorem Counted.step (counted : state.Counted) (taken : state.step action = some next) :
    next.Counted := by
  cases moves_of_step taken with
  | construct inside => exact counted.create fun _ same => Option.some.inj same ▸ inside
  | copyConstruct isAlive => exact counted.create (counted.inside isAlive)
  | moveConstruct isAlive => exact counted.moveConstruct isAlive
  | copySelf | moveSelf => exact counted
  | @copyAssign guard _ _ _ isTarget isAlive =>
    have released := counted.release guard
    exact released.put (alive_release_self isTarget) (released.inside isAlive)
  | @moveAssign guard _ _ _ isTarget different isAlive =>
    exact (counted.release guard).move (alive_release_self isTarget) isAlive different
  | @reset guard => exact counted.release guard
  | @destroy guard _ isTarget =>
    exact (counted.release guard).destroy (alive_release_self isTarget)
  | @context number _ _ _ isBefore others step =>
    intro each
    refine Eq.trans ?_ (counted each)
    unfold work
    dsimp only
    by_cases same : number = each
    · subst same
      have inside := (List.getElem?_eq_some_iff.mp isBefore).1
      rw [List.getElem?_set_self inside, isBefore]
      exact workCount_of_step others step
    · rw [List.getElem?_set_ne same]

/-! ### The end of `run_until_complete` -/

/-- Where the loops of the contexts are. -/
def places (state : WorkGuards Handler) : List (Option (Loop × Point Handler)) :=
  state.contexts.map IoContext.place

omit [DecidableEq Handler] in
theorem places_modify (state : WorkGuards Handler) (number : Nat)
    {change : IoContext Handler → IoContext Handler}
    (same : ∀ context, (change context).place = context.place) :
    places { state with contexts := state.contexts.modify number change } = state.places := by
  refine List.ext_getElem? fun each => ?_
  unfold places
  rw [List.getElem?_map, List.getElem?_map]
  by_cases changed : number = each
  · subst changed
    rw [List.getElem?_modify_eq]
    cases state.contexts[number]? with
    | none => rfl
    | some context => exact congrArg some (same context)
  · rw [List.getElem?_modify_ne _ _ changed]

omit [DecidableEq Handler] in
theorem places_fetchAdd (state : WorkGuards Handler) (ctx : Option Nat) :
    (state.fetchAdd ctx).places = state.places := by
  cases ctx with
  | none => rfl
  | some number => exact places_modify state number fun _ => rfl

omit [DecidableEq Handler] in
theorem places_release (state : WorkGuards Handler) (guard : Nat) :
    (state.release guard).places = state.places := by
  unfold release
  split
  · rename_i number _
    exact places_modify state number fun _ => rfl
  · rfl

/-- The loop of a context moves by steps of that context only. -/
theorem places_of_others (taken : state.step action = some next) {number : Nat}
    (others : ∀ inner, action ≠ .context number inner) :
    next.places[number]? = state.places[number]? := by
  have still (same : next.places = state.places) : next.places[number]? = state.places[number]? :=
    congrArg (·[number]?) same
  cases moves_of_step taken with
  | @construct context _ => exact still (places_fetchAdd state (some context))
  | @copyConstruct _ source _ => exact still (places_fetchAdd state source.ctx)
  | moveConstruct _ => exact still rfl
  | copySelf | moveSelf => rfl
  | @copyAssign guard _ _ source _ _ =>
    exact still ((places_fetchAdd _ source.ctx).trans (places_release state guard))
  | @moveAssign guard _ _ _ _ _ _ => exact still (places_release state guard)
  | @reset guard => exact still (places_release state guard)
  | @destroy guard _ _ => exact still (places_release state guard)
  | @context each inner _ _ _ _ _ =>
    have different : each ≠ number := by
      rintro rfl
      exact others inner rfl
    unfold places
    rw [List.getElem?_map, List.getElem?_map, List.getElem?_set_ne different]

/-- The last step of a loop in a schedule was the load of the work count, when no object referred to
its context. -/
def ReadFree (count number : Nat) (actions : List (GuardAction Handler)) : Prop :=
  ∃ earlier between read, actions = earlier ++ .context number (.advance .loadWork) :: between ∧
    (∀ inner, .context number inner ∈ between → IoContext.Foreign inner) ∧
    after step (fresh count) earlier = some read ∧ read.live number = 0

theorem ReadFree.concat {count number : Nat} {actions : List (GuardAction Handler)}
    (free : ReadFree count number actions)
    (foreign : ∀ inner, action = .context number inner → IoContext.Foreign inner) :
    ReadFree count number (actions ++ [action]) := by
  obtain ⟨earlier, between, read, rfl, others, reached, zero⟩ := free
  refine ⟨earlier, between ++ [action], read, ?_, fun inner member => ?_, reached, zero⟩
  · rw [List.append_assoc, List.cons_append]
  · obtain old | new := List.mem_append.mp member
    · exact others inner old
    · exact foreign inner (List.mem_singleton.mp new).symm

omit [DecidableEq Handler] in
/-- No work is counted before the first step. -/
theorem counted_fresh (count : Nat) : (fresh count : WorkGuards Handler).Counted := by
  intro number
  unfold work live fresh
  dsimp only
  rw [List.getElem?_replicate]
  split <;> rfl

theorem counted_of_run {count : Nat} {actions : List (GuardAction Handler)}
    (run : after step (fresh count) actions = some state) : state.Counted :=
  after_invariant Counted (fun _ _ _ counted taken => counted.step taken) (counted_fresh count) run

/-- The loop looks at the queue after a load when no object referred to the context. -/
theorem readFree_of_queue {count number : Nat} {actions : List (GuardAction Handler)}
    (run : after step (fresh count) actions = some state) {loop : Loop}
    (here : state.places[number]? = some (some (loop, .queue))) :
    ReadFree count number actions := by
  refine after_history (fun actions (state : WorkGuards Handler) =>
    state.places[number]? = some (some (loop, .queue)) → ReadFree count number actions)
    (fun inside => ?_) ?_ run here
  · unfold places fresh at inside
    dsimp only at inside
    rw [List.map_replicate, List.getElem?_replicate] at inside
    split at inside <;> cases inside
  intro actions middle action next front earlier taken here
  by_cases own : ∃ inner, action = .context number inner
  · obtain ⟨inner, rfl⟩ := own
    cases moves_of_step taken with
    | @context _ _ before later isBefore _ step =>
      have inside := (List.getElem?_eq_some_iff.mp isBefore).1
      rw [places, List.getElem?_map, List.getElem?_set_self inside] at here
      obtain ⟨rfl, zero⟩ | ⟨foreign, wasThere⟩ :=
        IoContext.queue_of_step step (Option.some.inj here)
      · refine ⟨actions, [], middle, rfl, fun _ member => (List.not_mem_nil member).elim, front, ?_⟩
        rw [← counted_of_run front number, work, isBefore]
        exact zero
      · have before' : middle.places[number]? = some (some (loop, .queue)) := by
          rw [places, List.getElem?_map, isBefore]
          exact congrArg some wasThere
        refine (earlier before').concat fun other same => ?_
        cases same
        exact foreign
  · have others : ∀ inner, action ≠ .context number inner := fun inner same => own ⟨inner, same⟩
    rw [places_of_others taken others] at here
    exact (earlier here).concat fun inner same => absurd same (others inner)

/-- In every state that can be reached, the work count of each context is the number of the live
objects that refer to it, and what such an object will subtract from is positive. When the loop of
`run_until_complete` ends without a `stop`, no object referred to its context at its last load. And
the loop ends with its next pass when no object does and nothing is queued. -/
theorem work_eq_live {count : Nat} {actions : List (GuardAction Handler)}
    (run : after step (fresh count) actions = some state) :
    (∀ number context, state.contexts[number]? = some context →
      context.workCount = state.live number ∧
      (∀ action next, context.step action = some next → context.Returns next →
        context.stopped = true ∨ ReadFree count number actions) ∧
      (context.place = some (.runUntilComplete, .top) → context.stopped = false →
        state.live number = 0 → context.pending = [] →
        after IoContext.step context
          [.advance .test, .advance .loadWork, .advance .checkPending] =
            some { context with place := none })) ∧
      ∀ guard number, state.alive guard = some ⟨some number⟩ →
        ∃ context, state.contexts[number]? = some context ∧ 0 < context.workCount := by
  have counted := counted_of_run run
  refine ⟨fun number context isContext => ?_, fun guard number isAlive => ?_⟩
  · have same : context.workCount = state.live number := by
      rw [← counted number, work, isContext]
      rfl
    refine ⟨same, fun action next taken returns => ?_, fun top running free empty => ?_⟩
    · obtain stopped | ⟨here, _⟩ := returns.cases taken
      · exact Or.inl stopped
      · have there : state.places[number]? = some (some (.runUntilComplete, .queue)) := by
          rw [places, List.getElem?_map, isContext]
          exact congrArg some here
        exact Or.inr (readFree_of_queue run there)
    · exact IoContext.leaves top running (same.trans free) empty
  · have inside := counted.inside isAlive number rfl
    refine ⟨_, List.getElem?_eq_getElem inside, ?_⟩
    have positive := live_pos isAlive
    rw [← counted number, work_inside inside] at positive
    exact positive

/-- A guard of the first context is copied, the copy is assigned to itself and released, and the
guard takes over what one of the second context is moved from. -/
theorem work_eq_live_moved : ∃ state : WorkGuards Nat, state.live 0 = 0 ∧ state.live 1 = 1 ∧
    ∀ number context, state.contexts[number]? = some context →
      context.workCount = state.live number := by
  let actions : List (GuardAction Nat) :=
    [.construct 0, .copyConstruct 0, .construct 1, .copyAssign 1 1, .reset 1, .moveAssign 0 2,
      .destroy 2]
  let state : WorkGuards Nat :=
    { contexts := [{}, { workCount := 1 }], guards := [some ⟨some 1⟩, some ⟨none⟩, none] }
  have run : after step (fresh 2) actions = some state := by decide
  exact ⟨state, by decide, by decide, fun number context isContext =>
    ((work_eq_live run).1 number context isContext).1⟩

end Steps

end WorkGuards

end AsyncNet.Io
