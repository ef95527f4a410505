/-
This file is about the frames of one task. Its coroutines are a chain: each awaits the one before
it, whose handle is in its `Awaiter` and whose continuation it is. Every other frame has not been
started and is in one variable of one coroutine of the chain. When the coroutine of the task is
destroyed, the chain and the variables are destroyed with it, each frame once.
-/

import AsyncNet.Coroutine.Tasks
import Mathlib.Data.List.Nodup

namespace AsyncNet.Coroutine

open Library

universe u

variable {Operation Response Failure Value : Type u}

/-! ### The chain of a task -/

/-- The variables hold tasks that have not been started. -/
def Holds (frames : Frames Operation Response Failure Value) :
    Bindings Nat Handle → Bindings Nat (Program Operation Response Failure Value) → Prop :=
  Bindings.Match fun handle task => frames handle = some (Frame.called task)

/-- The coroutines from the one that awaits this one to that of the task itself. The list is that
of their handles and of those in their variables. -/
inductive Awaited (frames : Frames Operation Response Failure Value) (root : Handle) :
    Handle → Option Handle → List (Caller Operation Response Failure Value) → List Handle → Prop
  | root : Awaited frames root root none [] []
  | caller {awaited handle : Handle} {continuation : Option Handle} {tasks : Bindings Nat Handle}
      {caller : Caller Operation Response Failure Value}
      {callers : List (Caller Operation Response Failure Value)} {handles : List Handle}
      (found : frames handle = some
        { point := .task awaited caller.next, tasks := tasks, continuation := continuation })
      (holds : Holds frames tasks caller.held) (distinct : Bindings.Distinct tasks)
      (later : Awaited frames root handle continuation callers handles) :
      Awaited frames root awaited (some handle) (caller :: callers)
        (handle :: (tasks.map Prod.snd ++ handles))

/-- The coroutine at the end of the chain. -/
structure Last (frames : Frames Operation Response Failure Value) (root handle : Handle)
    (point : Point Operation Response Failure Value)
    (held : Bindings Nat (Program Operation Response Failure Value))
    (callers : List (Caller Operation Response Failure Value)) (handles : List Handle) :
    Prop where
  chain : ∃ tasks continuation others,
    frames handle = some { point := point, tasks := tasks, continuation := continuation } ∧
    Holds frames tasks held ∧ Bindings.Distinct tasks ∧
    Awaited frames root handle continuation callers others ∧
    handles = handle :: (tasks.map Prod.snd ++ others)

/-- The frames of a task are those of the stack. -/
def Stands (frames : Frames Operation Response Failure Value) (root handle : Handle)
    (handles : List Handle) : Config Operation Response Failure Value → Prop
  | .running _ held callers => Last frames root handle .running held callers handles
  | .waiting _ next held callers => Last frames root handle (.operation next) held callers handles
  | .finished result =>
      frames root = some { point := .final, result := some result } ∧ handles = [root]
  | .undefined => False

section Chains

variable {frames after : Frames Operation Response Failure Value} {root handle : Handle}
  {handles : List Handle}

theorem Holds.congr {tasks : Bindings Nat Handle}
    {held : Bindings Nat (Program Operation Response Failure Value)}
    (holds : Holds frames tasks held)
    (same : ∀ handle ∈ tasks.map Prod.snd, after handle = frames handle) :
    Holds after tasks held := by
  induction holds with
  | nil => exact .nil
  | cons first _ inductionHypothesis =>
    exact .cons ⟨first.1, (same _ List.mem_cons_self).trans first.2⟩
      (inductionHypothesis fun handle member => same handle (List.mem_cons_of_mem _ member))

theorem Awaited.congr {continuation : Option Handle}
    {callers : List (Caller Operation Response Failure Value)}
    (chain : Awaited frames root handle continuation callers handles)
    (same : ∀ handle ∈ handles, after handle = frames handle) :
    Awaited after root handle continuation callers handles := by
  induction chain with
  | root => exact .root
  | caller found holds distinct _ inductionHypothesis =>
    refine .caller ?_ (holds.congr fun handle member => same handle ?_) distinct
      (inductionHypothesis fun handle member => same handle ?_)
    · rw [same _ List.mem_cons_self]
      exact found
    · exact List.mem_cons_of_mem _ (List.mem_append_left _ member)
    · exact List.mem_cons_of_mem _ (List.mem_append_right _ member)

theorem Stands.congr {config : Config Operation Response Failure Value}
    (stands : Stands frames root handle handles config)
    (same : ∀ handle ∈ handles, after handle = frames handle) :
    Stands after root handle handles config := by
  have last : ∀ {point held callers}, Last frames root handle point held callers handles →
      Last after root handle point held callers handles := by
    rintro point held callers ⟨tasks, continuation, others, found, holds, distinct, chain, rfl⟩
    refine ⟨tasks, continuation, others, ?_, holds.congr fun handle member => same handle ?_,
      distinct, chain.congr fun handle member => same handle ?_, rfl⟩
    · rw [same _ List.mem_cons_self]
      exact found
    · exact List.mem_cons_of_mem _ (List.mem_append_left _ member)
    · exact List.mem_cons_of_mem _ (List.mem_append_right _ member)
  cases config with
  | running program held callers => exact last stands
  | waiting operation next held callers => exact last stands
  | finished result =>
    obtain ⟨found, rfl⟩ := stands
    refine ⟨?_, rfl⟩
    rw [same _ List.mem_cons_self]
    exact found
  | undefined => exact stands

theorem Holds.live {tasks : Bindings Nat Handle}
    {held : Bindings Nat (Program Operation Response Failure Value)}
    (holds : Holds frames tasks held) :
    ∀ handle ∈ tasks.map Prod.snd, ∃ task, frames handle = some (Frame.called task) := by
  induction holds with
  | nil => nofun
  | cons first _ inductionHypothesis =>
    intro handle member
    cases member with
    | head => exact ⟨_, first.2⟩
    | tail _ member => exact inductionHypothesis handle member

theorem Holds.read {tasks : Bindings Nat Handle}
    {held : Bindings Nat (Program Operation Response Failure Value)}
    (holds : Holds frames tasks held)
    (name : Nat) {awaited : Handle} (known : Bindings.read name tasks = some awaited) :
    ∃ task, Bindings.read name held = some task ∧
      frames awaited = some (Frame.called task) := by
  have matched := Bindings.Match.read holds name
  rw [known] at matched
  generalize Bindings.read name held = other at matched
  cases matched with
  | some related => exact ⟨_, rfl, related⟩

theorem Awaited.live {continuation : Option Handle}
    {callers : List (Caller Operation Response Failure Value)}
    (chain : Awaited frames root handle continuation callers handles) :
    ∀ handle ∈ handles, frames handle ≠ none := by
  induction chain with
  | root => nofun
  | caller found holds _ _ inductionHypothesis =>
    intro handle member
    rcases List.mem_cons.mp member with rfl | member
    · rw [found]
      exact nofun
    · rcases List.mem_append.mp member with member | member
      · obtain ⟨task, held⟩ := holds.live handle member
        rw [held]
        exact nofun
      · exact inductionHypothesis handle member

theorem Stands.live {config : Config Operation Response Failure Value}
    (stands : Stands frames root handle handles config) :
    ∀ handle ∈ handles, frames handle ≠ none := by
  have last : ∀ {point held callers}, Last frames root handle point held callers handles →
      ∀ handle ∈ handles, frames handle ≠ none := by
    rintro point held callers ⟨tasks, continuation, others, found, holds, -, chain, rfl⟩ other
      member
    rcases List.mem_cons.mp member with rfl | member
    · rw [found]
      exact nofun
    · rcases List.mem_append.mp member with member | member
      · obtain ⟨task, held⟩ := holds.live other member
        rw [held]
        exact nofun
      · exact chain.live other member
  cases config with
  | running program held callers => exact last stands
  | waiting operation next held callers => exact last stands
  | finished result =>
    obtain ⟨found, rfl⟩ := stands
    intro other member
    rw [List.mem_singleton.mp member, found]
    exact nofun
  | undefined => exact stands.elim

end Chains

/-! ### What is destroyed -/

/-- The frames without these. -/
def without (handles : List Handle) (frames : Frames Operation Response Failure Value) :
    Frames Operation Response Failure Value :=
  fun handle => if handle ∈ handles then none else frames handle

section Destroys

variable {frames : Frames Operation Response Failure Value} {root handle : Handle}
  {handles : List Handle}

theorem without_nil : without [] frames = frames := by
  funext handle
  exact if_neg List.not_mem_nil

theorem update_without (handle : Handle) (handles : List Handle) :
    Function.update (without handles frames) handle none = without (handle :: handles) frames := by
  funext other
  unfold without
  by_cases same : other = handle
  · rw [same, Function.update_self, if_pos List.mem_cons_self]
  · rw [Function.update_of_ne same]
    simp only [List.mem_cons, same, false_or]

theorem without_without (first second : List Handle) :
    without second (without first frames) = without (first ++ second) frames := by
  funext other
  unfold without
  by_cases member : other ∈ second
  · rw [if_pos member, if_pos (List.mem_append_right _ member)]
  · rw [if_neg member]
    simp only [List.mem_append, member, or_false]

theorem without_of_not_mem (other : handle ∉ handles) :
    without handles frames handle = frames handle :=
  if_neg other

theorem destroy_frame {frame : Frame Operation Response Failure Value}
    (found : frames handle = some frame) (suspended : frame.point.isRunning = false) {depth : Nat}
    {after : Frames Operation Response Failure Value}
    (each : frame.owned.foldlM (destroy depth) frames = .ok after) :
    destroy (depth + 1) frames handle = .ok (Function.update after handle none) := by
  rw [destroy, frameOf, found]
  show (if frame.point.isRunning = true then Except.error Misuse.notSuspended
    else do
      let frames ← frame.owned.foldlM (destroy depth) frames
      return Function.update frames handle none) = _
  rw [suspended, each]
  rfl

/-- A coroutine at its end owns nothing. -/
theorem destroy_final {frame : Frame Operation Response Failure Value}
    (found : frames handle = some frame) (suspended : frame.point.isRunning = false)
    (owned : frame.owned = []) (depth : Nat) :
    destroy (depth + 1) frames handle = .ok (without [handle] frames) := by
  have each : frame.owned.foldlM (destroy depth) frames = .ok frames := by
    rw [owned]
    rfl
  rw [destroy_frame found suspended each, ← update_without, without_nil]

/-- A task that has not been started owns nothing. -/
theorem destroy_called {task : Program Operation Response Failure Value}
    (found : frames handle = some (Frame.called task)) (depth : Nat) :
    destroy (depth + 1) frames handle = .ok (without [handle] frames) :=
  destroy_final found rfl rfl depth

theorem destroyEach_called (depth : Nat) {handles : List Handle}
    (called : ∀ handle ∈ handles, ∃ task, frames handle = some (Frame.called task))
    (nodup : handles.Nodup) :
    handles.foldlM (destroy (depth + 1)) frames = .ok (without handles frames) := by
  induction handles generalizing frames with
  | nil =>
    rw [without_nil]
    rfl
  | cons handle handles inductionHypothesis =>
    obtain ⟨absent, nodup⟩ := List.nodup_cons.mp nodup
    obtain ⟨task, found⟩ := called handle List.mem_cons_self
    rw [List.foldlM_cons, destroy_called found]
    show handles.foldlM (destroy (depth + 1)) (without [handle] frames) = _
    rw [inductionHypothesis (fun other member => ?_) nodup, without_without]
    · rfl
    · obtain ⟨task, found⟩ := called other (List.mem_cons_of_mem _ member)
      refine ⟨task, (without_of_not_mem fun same => absent ?_).trans found⟩
      rw [← List.mem_singleton.mp same]
      exact member

/-- When the coroutine that is awaited can be destroyed with what it owns, so can all that await
it. -/
theorem Awaited.destroy {continuation : Option Handle}
    {callers : List (Caller Operation Response Failure Value)}
    (chain : Awaited frames root handle continuation callers handles) {inner : List Handle}
    {least : Nat} (nodup : (inner ++ handles).Nodup)
    (destroys : ∀ depth, least ≤ depth →
      destroy (depth + 1) frames handle = .ok (without inner frames)) :
    ∀ depth, least + callers.length ≤ depth →
      destroy (depth + 1) frames root = .ok (without (inner ++ handles) frames) := by
  induction chain generalizing inner least with
  | root =>
    intro depth bound
    rw [List.append_nil]
    exact destroys depth bound
  | @caller awaited handle continuation tasks caller callers handles found holds _ chain
      inductionHypothesis =>
    have apart := List.nodup_append.mp nodup
    have rest := List.nodup_append.mp (List.nodup_cons.mp apart.2.1).2
    have others : ∀ depth, least + 1 ≤ depth →
        Coroutine.destroy (depth + 1) frames handle =
          .ok (without (inner ++ handle :: tasks.map Prod.snd) frames) := by
      intro depth bound
      obtain ⟨depth, rfl⟩ := Nat.exists_eq_add_of_lt (Nat.lt_of_lt_of_le (Nat.succ_pos _) bound)
      rw [Nat.zero_add] at bound ⊢
      have each : (tasks.map Prod.snd).foldlM (Coroutine.destroy (depth + 1))
          (without inner frames) = .ok (without (tasks.map Prod.snd) (without inner frames)) :=
        destroyEach_called depth (fun other member => by
          obtain ⟨task, called⟩ := holds.live other member
          refine ⟨task, (without_of_not_mem fun same => ?_).trans called⟩
          exact apart.2.2 other same other (List.mem_cons_of_mem _
            (List.mem_append_left _ member)) rfl) rest.1
      have both : (awaited :: tasks.map Prod.snd).foldlM (Coroutine.destroy (depth + 1)) frames =
          .ok (without (inner ++ tasks.map Prod.snd) frames) := by
        rw [List.foldlM_cons, destroys depth (Nat.le_of_succ_le_succ bound)]
        show (tasks.map Prod.snd).foldlM (Coroutine.destroy (depth + 1)) (without inner frames) = _
        rw [each, without_without]
      rw [destroy_frame found rfl both, update_without]
      congr 1
      funext other
      unfold without
      simp only [List.mem_cons, List.mem_append, or_left_comm]
    intro depth bound
    rw [inductionHypothesis (by simpa [List.append_assoc] using nodup) others depth (by
      rw [List.length_cons] at bound
      omega)]
    simp only [List.append_assoc, List.cons_append]

theorem Awaited.length_le {continuation : Option Handle}
    {callers : List (Caller Operation Response Failure Value)}
    (chain : Awaited frames root handle continuation callers handles) :
    callers.length ≤ handles.length := by
  induction chain with
  | root => exact Nat.le_refl 0
  | caller _ _ _ _ inductionHypothesis =>
    simp only [List.length_cons, List.length_append]
    omega

/-- A task that does not have control is destroyed with all its coroutines and their variables. -/
theorem Stands.destroy {config : Config Operation Response Failure Value}
    (stands : Stands frames root handle handles config) (settled : config.settled = true)
    (nodup : handles.Nodup) {depth : Nat} (bound : handles.length ≤ depth) :
    destroy (depth + 1) frames root = .ok (without handles frames) := by
  cases config with
  | running program held callers => cases settled
  | waiting operation next held callers =>
    obtain ⟨tasks, continuation, others, found, holds, -, chain, rfl⟩ := stands
    have apart := List.nodup_append.mp (List.nodup_cons.mp nodup).2
    have destroys : ∀ depth, 1 ≤ depth → Coroutine.destroy (depth + 1) frames handle =
        .ok (without (handle :: tasks.map Prod.snd) frames) := by
      intro depth bound
      obtain ⟨depth, rfl⟩ := Nat.exists_eq_add_of_lt bound
      rw [Nat.zero_add, destroy_frame found rfl (destroyEach_called depth holds.live apart.1),
        update_without]
      rfl
    refine chain.destroy (show (handle :: tasks.map Prod.snd ++ others).Nodup from nodup) destroys
      depth ?_
    have short := chain.length_le
    simp only [List.length_cons, List.length_append] at bound
    omega
  | finished result =>
    obtain ⟨found, rfl⟩ := stands
    exact destroy_final found rfl rfl depth
  | undefined => exact stands.elim

end Destroys

end AsyncNet.Coroutine
