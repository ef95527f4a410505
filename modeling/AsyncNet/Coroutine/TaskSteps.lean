/-
This file is about the steps of the coroutine that has control. Each is a step of the machine with
a stack of programs: `co_await` pushes the coroutine that awaits, and the end of a coroutine pops
the one that is its continuation and destroys the frame. The frames of the other tasks are left
alone.
-/

import AsyncNet.Coroutine.TaskChains

namespace AsyncNet.Coroutine

open Library

universe u

variable {Operation Response Failure Value : Type u}

/-! ### Steps -/

/-- The frames after a step of the task that had the first frames and then has the second ones. -/
structure Keeps (frames : Frames Operation Response Failure Value) (handles : List Handle)
    (after : Frames Operation Response Failure Value) (kept : List Handle) : Prop where
  same : ∀ handle, handle ∉ handles → handle ∉ kept → after handle = frames handle
  freed : ∀ handle ∈ handles, handle ∉ kept → after handle = none
  new : ∀ handle ∈ kept, handle ∉ handles → frames handle = none

theorem Keeps.trans {frames after last : Frames Operation Response Failure Value}
    {handles kept rest : List Handle} (first : Keeps frames handles after kept)
    (second : Keeps after kept last rest) : Keeps frames handles last rest where
  same handle before later := by
    by_cases between : handle ∈ kept
    · rw [second.freed handle between later, first.new handle between before]
    · rw [second.same handle between later, first.same handle before between]
  freed handle before later := by
    by_cases between : handle ∈ kept
    · exact second.freed handle between later
    · rw [second.same handle between later]
      exact first.freed handle before between
  new handle later before := by
    by_cases between : handle ∈ kept
    · exact first.new handle between before
    · rw [← first.same handle before between]
      exact second.new handle later between

/-- Where no frame has been, there is none after a step whose new handles are below the bound. -/
theorem Keeps.unused {frames after : Frames Operation Response Failure Value}
    {handles kept : List Handle} (keeps : Keeps frames handles after kept) {bound : Handle}
    (unused : ∀ handle, bound ≤ handle → frames handle = none)
    (below : ∀ handle ∈ kept, handle < bound) (handle : Handle) (fresh : bound ≤ handle) :
    after handle = none := by
  have outside : handle ∉ kept := fun member => Nat.not_lt.mpr fresh (below handle member)
  by_cases member : handle ∈ handles
  · exact keeps.freed handle member outside
  · exact (keeps.same handle member outside).trans (unused handle fresh)

/-- Who has control. -/
def controlOf (handle : Handle) : Config Operation Response Failure Value →
    Option (Handle × Program Operation Response Failure Value)
  | .running program _ _ => some (handle, program)
  | _ => none

/-- The operation that is waited for. -/
def submittedOf (handle : Handle) :
    Config Operation Response Failure Value → Option (Operation × Handle)
  | .waiting operation _ _ _ => some (operation, handle)
  | _ => none

/-- The machine runs the task, which is where the stack is. -/
structure Driven (machine : Machine Operation Response Failure Value) (root handle : Handle)
    (handles : List Handle) (config : Config Operation Response Failure Value) : Prop where
  stands : Stands machine.frames root handle handles config
  nodup : handles.Nodup
  unused : ∀ handle, machine.fresh ≤ handle → machine.frames handle = none
  control : machine.control = controlOf handle config
  submitted : machine.operations machine.current = submittedOf handle config

/-- A step changes nothing of the other tasks. -/
structure Turn (machine next : Machine Operation Response Failure Value)
    (handles kept : List Handle) : Prop where
  keeps : Keeps machine.frames handles next.frames kept
  tasks : next.tasks = machine.tasks
  current : next.current = machine.current
  operations : ∀ task, task ≠ machine.current → next.operations task = machine.operations task

theorem Turn.trans {machine next last : Machine Operation Response Failure Value}
    {handles kept rest : List Handle} (first : Turn machine next handles kept)
    (second : Turn next last kept rest) : Turn machine last handles rest where
  keeps := first.keeps.trans second.keeps
  tasks := second.tasks.trans first.tasks
  current := second.current.trans first.current
  operations task other := (second.operations task (first.current ▸ other)).trans
    (first.operations task other)

section Steps

variable {machine : Machine Operation Response Failure Value} {root handle : Handle}
  {handles : List Handle} {held : Bindings Nat (Program Operation Response Failure Value)}
  {callers : List (Caller Operation Response Failure Value)}

theorem foldlM_destroyFrame (handles : List Handle) :
    handles.foldlM Machine.destroyFrame machine =
      (handles.foldlM (destroy (machine.fresh + 1)) machine.frames).map fun frames =>
        { machine with frames := frames } := by
  induction handles generalizing machine with
  | nil => rfl
  | cons handle handles inductionHypothesis =>
    rw [List.foldlM_cons, List.foldlM_cons, Machine.destroyFrame]
    cases destroy (machine.fresh + 1) machine.frames handle with
    | error misuse => rfl
    | ok frames =>
      exact inductionHypothesis

theorem resume_initial {body : Program Operation Response Failure Value}
    {continuation : Option Handle} (found : machine.frames handle = some
      { point := .initial body, continuation := continuation }) :
    machine.resume handle = .ok (machine.run handle
      { point := .initial body, continuation := continuation } body) := by
  rw [Machine.resume, frameOf, found]
  rfl

/-- The awaited coroutine is at its end. Its frame is destroyed. -/
theorem resume_task {task : Handle} {tasks : Bindings Nat Handle}
    {continuation before : Option Handle}
    {next : Except Failure Value → Program Operation Response Failure Value}
    {result : Except Failure Value}
    (found : machine.frames handle = some
      { point := .task task next, tasks := tasks, continuation := continuation })
    (final : machine.frames task = some
      { point := .final, continuation := before, result := some result }) :
    machine.resume handle =
      .ok ({ machine with frames := without [task] machine.frames }.run handle
        { point := .task task next, tasks := tasks, continuation := continuation }
        (next result)) := by
  have stored : promiseResult machine.frames task = .ok result := by
    rw [promiseResult, frameOf, final]
    rfl
  rw [Machine.resume, frameOf, found]
  show machine.awaitResume handle task _ next = _
  rw [Machine.awaitResume, stored, Machine.destroyFrame, destroy_final final rfl rfl]
  rfl

/-- The body of a coroutine is at its end, and its variables have been destroyed. -/
theorem finish_eq {tasks : Bindings Nat Handle} {continuation : Option Handle}
    (holds : Holds machine.frames tasks held) (nodup : (tasks.map Prod.snd).Nodup)
    (found : machine.frames handle = some
      { point := .running, tasks := tasks, continuation := continuation })
    (result : Except Failure Value) :
    machine.advance handle (.finish result) =
      ({ machine with frames := without (tasks.map Prod.snd) machine.frames }.setFrame handle
        { point := .final, continuation := continuation, result := some result }).finalSuspend
          continuation := by
  have destroyed : (tasks.map Prod.snd).foldlM Machine.destroyFrame machine =
      .ok { machine with frames := without (tasks.map Prod.snd) machine.frames } := by
    rw [foldlM_destroyFrame, destroyEach_called machine.fresh holds.live nodup]
    rfl
  rw [Machine.advance, frameOf, found]
  show Machine.finish machine handle _ result = _
  rw [Machine.finish]
  dsimp only
  rw [destroyed]
  rfl

/-- The handles of a task are below the bound. -/
theorem Driven.below {config : Config Operation Response Failure Value}
    (driven : Driven machine root handle handles config) :
    ∀ other ∈ handles, other < machine.fresh := fun other member =>
  Nat.lt_of_not_le fun fresh => driven.stands.live other member (driven.unused other fresh)

/-- The task is at its end. -/
theorem driven_finish (result : Except Failure Value)
    (driven : Driven machine root handle handles (.running (.finish result) held [])) :
    ∃ next, machine.advance handle (.finish result) = .ok next ∧
      Driven next root root [root] (.finished result) ∧ Turn machine next handles [root] := by
  have below := driven.below
  obtain ⟨tasks, continuation, others, found, holds, -, chain, rfl⟩ := driven.stands
  cases chain
  obtain ⟨absent, nodup⟩ := List.nodup_cons.mp driven.nodup
  rw [List.append_nil] at absent nodup
  have keeps : Keeps machine.frames (root :: (tasks.map Prod.snd ++ []))
      (Function.update (without (tasks.map Prod.snd) machine.frames) root
        (some { point := .final, continuation := none, result := some result })) [root] := by
    rw [List.append_nil]
    refine ⟨fun other before _ => ?_, fun other before after => ?_,
      fun other after before => absurd (List.mem_singleton.mp after ▸ List.mem_cons_self) before⟩
    · exact (Function.update_of_ne (List.ne_of_not_mem_cons before) _ _).trans
        (without_of_not_mem (List.not_mem_of_not_mem_cons before))
    · have differs : other ≠ root := fun same => after (List.mem_singleton.mpr same)
      exact (Function.update_of_ne differs _ _).trans
        (if_pos ((List.mem_cons.mp before).resolve_left differs))
  exact ⟨_, finish_eq holds nodup found result, ⟨⟨Function.update_self .., rfl⟩,
    List.nodup_singleton root, keeps.unused driven.unused fun other member =>
      below other (List.mem_singleton.mp member ▸ List.mem_cons_self), rfl, driven.submitted⟩,
    ⟨keeps, rfl, rfl, fun _ _ => rfl⟩⟩

/-- A coroutine is at its end, and the one that awaits it goes on. -/
theorem driven_return (result : Except Failure Value)
    (caller : Caller Operation Response Failure Value)
    (driven : Driven machine root handle handles
      (.running (.finish result) held (caller :: callers))) :
    ∃ next last kept, machine.advance handle (.finish result) = .ok next ∧
      Driven next root last kept (.running (caller.next result) caller.held callers) ∧
      Turn machine next handles kept := by
  have below := driven.below
  obtain ⟨tasks, continuation, others, found, holds, -, chain, rfl⟩ := driven.stands
  cases chain with
  | @caller _ last continuation saved _ _ rest awaits kept distinct later =>
    obtain ⟨absent, apart⟩ := List.nodup_cons.mp driven.nodup
    obtain ⟨nodup, whole, disjoint⟩ := List.nodup_append.mp apart
    set handles := last :: (saved.map Prod.snd ++ rest) with chained
    set final : Frames Operation Response Failure Value :=
      Function.update (without (tasks.map Prod.snd) machine.frames) handle
        (some { point := .final, continuation := some last, result := some result }) with ended
    have away : ∀ other ∈ handles, final other = machine.frames other := fun other member => by
      rw [ended, Function.update_of_ne
        (ne_of_mem_of_not_mem (List.mem_append_right _ member) absent)]
      exact without_of_not_mem fun early => disjoint other early other member rfl
    have stored : final handle = some
        { point := .final, continuation := some last, result := some result } :=
      Function.update_self ..
    have resumed : Machine.resume { machine with frames := final, control := none } last = .ok _ :=
      resume_task ((away last List.mem_cons_self).trans awaits) stored
    set after : Frames Operation Response Failure Value :=
      Function.update (without [handle] final) last
        (some { point := .running, tasks := saved, continuation := continuation }) with turned
    have still : ∀ other ∈ handles, other ≠ last → after other = machine.frames other :=
      fun other member differs => by
        rw [turned, Function.update_of_ne differs, without_of_not_mem fun same => ?_]
        · exact away other member
        · exact absent (List.mem_singleton.mp same ▸
            List.mem_append_right (tasks.map Prod.snd) member)
    have keeps : Keeps machine.frames (handle :: (tasks.map Prod.snd ++ handles)) after
        handles := by
      refine ⟨fun other before _ => ?_, fun other before away => ?_, fun other after before =>
        absurd (List.mem_cons_of_mem _ (List.mem_append_right _ after)) before⟩
      · have outside := List.not_mem_of_not_mem_cons before
        have early := fun member => outside (List.mem_append_left _ member)
        have late := List.ne_of_not_mem_cons fun member => outside (List.mem_append_right _ member)
        have differs := List.ne_of_not_mem_cons before
        rw [turned, Function.update_of_ne late,
          without_of_not_mem fun same => differs (List.mem_singleton.mp same), ended,
          Function.update_of_ne differs, without_of_not_mem early]
      · rw [turned, Function.update_of_ne (List.ne_of_not_mem_cons away)]
        by_cases same : other = handle
        · exact if_pos (List.mem_singleton.mpr same)
        · rw [without_of_not_mem fun member => same (List.mem_singleton.mp member), ended,
            Function.update_of_ne same]
          refine if_pos ?_
          rcases List.mem_append.mp ((List.mem_cons.mp before).resolve_left same) with
            member | member
          · exact member
          · exact absurd member away
    obtain ⟨alone, between⟩ := List.nodup_cons.mp whole
    refine ⟨_, last, handles, (finish_eq holds nodup found result).trans resumed,
      ⟨⟨saved, continuation, rest, Function.update_self .., ?_, distinct, ?_, rfl⟩, whole,
        keeps.unused driven.unused fun other member =>
          below other (List.mem_cons_of_mem _ (List.mem_append_right _ member)), rfl,
        driven.submitted⟩, ⟨keeps, rfl, rfl, fun _ _ => rfl⟩⟩
    · exact kept.congr fun other member => still other
        (List.mem_cons_of_mem _ (List.mem_append_left _ member))
        (ne_of_mem_of_not_mem (List.mem_append_left _ member) alone)
    · exact later.congr fun other member => still other
        (List.mem_cons_of_mem _ (List.mem_append_right _ member))
        (ne_of_mem_of_not_mem (List.mem_append_right _ member) alone)

/-- An operation is submitted, and control is back at the event loop. -/
theorem driven_perform (operation : Operation)
    (next : Response → Program Operation Response Failure Value)
    (driven : Driven machine root handle handles
      (.running (.perform operation next) held callers)) :
    ∃ after, machine.advance handle (.perform operation next) = .ok after ∧
      Driven after root handle handles (.waiting operation next held callers) ∧
      Turn machine after handles handles := by
  have below := driven.below
  obtain ⟨tasks, continuation, others, found, holds, distinct, chain, rfl⟩ := driven.stands
  have absent := (List.nodup_cons.mp driven.nodup).1
  set after : Frames Operation Response Failure Value := Function.update machine.frames handle
    (some { point := .operation next, tasks := tasks, continuation := continuation }) with changed
  have still : ∀ other, other ≠ handle → after other = machine.frames other :=
    fun other differs => Function.update_of_ne differs _ _
  have keeps : Keeps machine.frames (handle :: (tasks.map Prod.snd ++ others)) after
      (handle :: (tasks.map Prod.snd ++ others)) :=
    ⟨fun other before _ => still other (List.ne_of_not_mem_cons before),
      fun _ before away => absurd before away, fun _ after away => absurd after away⟩
  refine ⟨{ machine with
      frames := after
      control := none
      operations := Function.update machine.operations machine.current (some (operation, handle)) },
    ?_, ⟨⟨tasks, continuation, others, Function.update_self .., ?_, distinct, ?_, rfl⟩,
    driven.nodup, keeps.unused driven.unused below, rfl, Function.update_self ..⟩,
    ⟨keeps, rfl, rfl, fun task differs => Function.update_of_ne differs _ _⟩⟩
  · rw [Machine.advance, frameOf, found]
    rfl
  · exact holds.congr fun other member => still other
      (ne_of_mem_of_not_mem (List.mem_append_left _ member) absent)
  · exact chain.congr fun other member => still other
      (ne_of_mem_of_not_mem (List.mem_append_right _ member) absent)

theorem destroyHeld_eq {content : Option Handle}
    (called : ∀ old, content = some old → ∃ task, machine.frames old = some (Frame.called task)) :
    machine.destroyHeld content =
      .ok { machine with frames := without content.toList machine.frames } := by
  cases content with
  | none =>
    rw [Machine.destroyHeld, Option.toList_none, without_nil]
  | some old =>
    obtain ⟨task, found⟩ := called old rfl
    rw [Machine.destroyHeld, Machine.destroyFrame, destroy_called found]
    rfl

/-- The variables of the coroutine that has control have been written. What has been created and
not dropped is in them. -/
theorem last_write (created dropped : List Handle) (written : Bindings Nat Handle)
    {tasks : Bindings Nat Handle} {continuation : Option Handle} {others : List Handle}
    {frames : Frames Operation Response Failure Value}
    {newHeld : Bindings Nat (Program Operation Response Failure Value)}
    (chain : Awaited machine.frames root handle continuation callers others)
    (nodup : (handle :: (tasks.map Prod.snd ++ others)).Nodup)
    (live : ∀ other ∈ handle :: (tasks.map Prod.snd ++ others), machine.frames other ≠ none)
    (new : ∀ other ∈ created, machine.frames other = none) (once : created.Nodup)
    (off : ∀ other, other ∉ created → frames other = machine.frames other)
    (perm : (dropped ++ written.map Prod.snd).Perm (created ++ tasks.map Prod.snd))
    (holds : Holds frames written newHeld) (distinct : Bindings.Distinct written)
    {after : Frames Operation Response Failure Value}
    (changed : after = Function.update (without dropped frames) handle
      (some { point := .running, tasks := written, continuation := continuation })) :
    Last after root handle .running newHeld callers
        (handle :: (written.map Prod.snd ++ others)) ∧
      (handle :: (written.map Prod.snd ++ others)).Nodup ∧
      Keeps machine.frames (handle :: (tasks.map Prod.snd ++ others)) after
        (handle :: (written.map Prod.snd ++ others)) := by
  have apart : (created ++ handle :: (tasks.map Prod.snd ++ others)).Nodup :=
    List.nodup_append.mpr ⟨once, nodup, fun other member another among same =>
      live another among (same ▸ new other member)⟩
  have whole : (dropped ++ handle :: (written.map Prod.snd ++ others)).Nodup := by
    refine (List.Perm.nodup_iff ?_).mpr apart
    refine (List.perm_middle.trans (.cons handle ?_)).trans List.perm_middle.symm
    rw [← List.append_assoc, ← List.append_assoc]
    exact perm.append_right others
  obtain ⟨-, kept, dropsApart⟩ := List.nodup_append.mp whole
  have absent := (List.nodup_cons.mp kept).1
  have member_iff : ∀ other, other ∈ dropped ∨ other ∈ written.map Prod.snd ↔
      other ∈ created ∨ other ∈ tasks.map Prod.snd := fun other => by
    rw [← List.mem_append, ← List.mem_append]
    exact perm.mem_iff
  have still : ∀ other ∈ written.map Prod.snd ++ others, after other = frames other :=
    fun other member => by
      rw [changed, Function.update_of_ne (ne_of_mem_of_not_mem member absent)]
      exact without_of_not_mem fun drop =>
        dropsApart other drop other (List.mem_cons_of_mem _ member) rfl
  refine ⟨⟨written, continuation, others, ?_, holds.congr fun other member => still other
    (List.mem_append_left _ member), distinct, chain.congr fun other member => ?_, rfl⟩, kept,
    fun other before away => ?_, fun other before away => ?_, fun other member before => ?_⟩
  · rw [changed]
    exact Function.update_self ..
  · rw [still other (List.mem_append_right _ member)]
    refine off other fun early => ?_
    exact live other (List.mem_cons_of_mem _ (List.mem_append_right _ member)) (new other early)
  · rw [changed, Function.update_of_ne (List.ne_of_not_mem_cons before)]
    have outside := List.not_mem_of_not_mem_cons before
    have later := List.not_mem_of_not_mem_cons away
    by_cases early : other ∈ created
    · rw [new other early]
      exact if_pos (((member_iff other).mpr (.inl early)).resolve_right fun member =>
        later (List.mem_append_left _ member))
    · rw [without_of_not_mem fun drop => ?_]
      · exact off other early
      · rcases (member_iff other).mp (.inl drop) with member | member
        · exact early member
        · exact outside (List.mem_append_left _ member)
  · have later := List.not_mem_of_not_mem_cons away
    have differs := List.ne_of_not_mem_cons away
    rw [changed, Function.update_of_ne differs]
    refine if_pos ?_
    rcases List.mem_append.mp ((List.mem_cons.mp before).resolve_left differs) with member | member
    · exact ((member_iff other).mpr (.inr member)).resolve_right fun member =>
        later (List.mem_append_left _ member)
    · exact absurd (List.mem_append_right _ member) later
  · have outside := List.not_mem_of_not_mem_cons before
    have differs := List.ne_of_not_mem_cons before
    rcases List.mem_append.mp ((List.mem_cons.mp member).resolve_left differs) with member | member
    · exact new other (((member_iff other).mp (.inr member)).resolve_right fun member =>
        outside (List.mem_append_left _ member))
    · exact absurd (List.mem_append_right _ member) outside

/-- A coroutine is called and its `Task` assigned to a variable. -/
theorem driven_assign (name : Nat) (task next : Program Operation Response Failure Value)
    (driven : Driven machine root handle handles (.running (.assign name task next) held callers)) :
    ∃ after kept, machine.advance handle (.assign name task next) = .ok after ∧
      Driven after root handle kept
        (.running next (Bindings.write name (some task) held) callers) ∧
      Turn machine after handles kept := by
  have below := driven.below
  have live := driven.stands.live
  obtain ⟨tasks, continuation, others, found, holds, distinct, chain, rfl⟩ := driven.stands
  have unused := driven.unused machine.fresh (Nat.le_refl _)
  set frames : Frames Operation Response Failure Value :=
    Function.update machine.frames machine.fresh (some (Frame.called task)) with called
  have off : ∀ other, other ∉ [machine.fresh] → frames other = machine.frames other :=
    fun other differs => Function.update_of_ne
      (fun same => differs (List.mem_singleton.mpr same)) ..
  have present : Holds frames tasks held := holds.congr fun other member => off other fun same => by
    obtain ⟨task, known⟩ := holds.live other member
    rw [List.mem_singleton.mp same, unused] at known
    cases known
  obtain ⟨last, nodup, keeps⟩ := last_write [machine.fresh] (Bindings.read name tasks).toList
    (Bindings.write name (some machine.fresh) tasks) chain driven.nodup live
    (fun other member => by rw [List.mem_singleton.mp member]; exact unused)
    (List.nodup_singleton _) off
    (Bindings.perm_write name (some machine.fresh) tasks distinct)
    (Bindings.Match.write present name (.some (Function.update_self ..)))
    (distinct.write name _) rfl
  refine ⟨Machine.run
      { machine.call task with frames := without (Bindings.read name tasks).toList frames } handle
      { point := .running
        tasks := Bindings.write name (some machine.fresh) tasks
        continuation := continuation } next,
    handle :: ((Bindings.write name (some machine.fresh) tasks).map Prod.snd ++ others), ?_,
    ⟨last, nodup, keeps.unused (fun other fresh =>
      driven.unused other (Nat.le_of_succ_le fresh)) fun other member => ?_, rfl,
    driven.submitted⟩, ⟨keeps, rfl, rfl, fun _ _ => rfl⟩⟩
  · have drops : (machine.call task).destroyHeld (Bindings.read name tasks) = .ok
        { machine.call task with
          frames := without (Bindings.read name tasks).toList frames } :=
      destroyHeld_eq fun old known => by
        obtain ⟨task, -, called⟩ := Holds.read present name known
        exact ⟨task, called⟩
    rw [Machine.advance, frameOf, found]
    show (do
      let called ← (machine.call task).destroyHeld (Bindings.read name tasks)
      return called.run handle _ next) = _
    rw [drops]
    rfl
  · by_cases before : other ∈ handle :: (tasks.map Prod.snd ++ others)
    · exact Nat.lt_succ_of_lt (below other before)
    · rcases List.mem_cons.mp member with same | member
      · exact absurd (same ▸ List.mem_cons_self) before
      · rcases List.mem_append.mp member with member | member
        · rcases List.mem_cons.mp member with same | member
          · rw [same]
            exact Nat.lt_succ_self _
          · refine absurd (List.mem_cons_of_mem _ (List.mem_append_left _ ?_)) before
            exact (List.filter_sublist.map Prod.snd).subset member
        · exact absurd (List.mem_cons_of_mem _ (List.mem_append_right _ member)) before

/-- A `Task` is moved from one variable to another. -/
theorem driven_move (target source : Nat) (next : Program Operation Response Failure Value)
    (driven : Driven machine root handle handles
      (.running (.move target source next) held callers)) :
    ∃ after kept, machine.advance handle (.move target source next) = .ok after ∧
      Driven after root handle kept
        (.running next (Bindings.move target source held) callers) ∧
      Turn machine after handles kept := by
  have live := driven.stands.live
  obtain ⟨tasks, continuation, others, found, holds, distinct, chain, rfl⟩ := driven.stands
  set dropped := if target = source then none else Bindings.read target tasks with drop
  have perm := Bindings.perm_move target source tasks distinct
  obtain ⟨last, nodup, keeps⟩ := last_write [] dropped.toList
    (Bindings.move target source tasks) chain driven.nodup live nofun List.nodup_nil
    (fun _ _ => rfl) perm (Bindings.Match.move holds target source)
    (distinct.move target source) rfl
  refine ⟨Machine.run { machine with frames := without dropped.toList machine.frames } handle
      { point := .running
        tasks := Bindings.move target source tasks
        continuation := continuation } next,
    handle :: ((Bindings.move target source tasks).map Prod.snd ++ others), ?_,
    ⟨last, nodup, keeps.unused driven.unused fun other member => ?_, rfl,
    driven.submitted⟩, ⟨keeps, rfl, rfl, fun _ _ => rfl⟩⟩
  · have drops : machine.destroyHeld dropped = .ok
        { machine with frames := without dropped.toList machine.frames } :=
      destroyHeld_eq fun old known => by
        rw [drop] at known
        by_cases same : target = source
        · rw [if_pos same] at known
          cases known
        · rw [if_neg same] at known
          obtain ⟨task, -, called⟩ := Holds.read holds target known
          exact ⟨task, called⟩
    rw [Machine.advance, frameOf, found]
    show (do
      let moved ← machine.destroyHeld dropped
      return moved.run handle _ next) = _
    rw [drops]
    rfl
  · by_contra beyond
    have dead := driven.unused other (Nat.le_of_not_lt beyond)
    by_cases before : other ∈ handle :: (tasks.map Prod.snd ++ others)
    · exact live other before dead
    · rcases List.mem_cons.mp member with same | member
      · exact before (same ▸ List.mem_cons_self)
      · refine before (List.mem_cons_of_mem _ (List.mem_append.mpr ?_))
        exact (List.mem_append.mp member).imp_left fun member =>
          perm.mem_iff.mp (List.mem_append_right _ member)

/-- A task is awaited: it has control, and the coroutine that awaits it is its continuation. -/
theorem driven_await (name : Nat)
    (next : Except Failure Value → Program Operation Response Failure Value)
    {task : Program Operation Response Failure Value}
    (known : Bindings.read name held = some task)
    (driven : Driven machine root handle handles (.running (.await name next) held callers)) :
    ∃ after awaited kept, machine.advance handle (.await name next) = .ok after ∧
      Driven after root awaited kept
        (.running task [] ({ next := next, held := Bindings.clear name held } :: callers)) ∧
      Turn machine after handles kept := by
  have below := driven.below
  obtain ⟨tasks, continuation, others, found, holds, distinct, chain, rfl⟩ := driven.stands
  obtain ⟨awaited, present, called⟩ : ∃ awaited, Bindings.read name tasks = some awaited ∧
      machine.frames awaited = some (Frame.called task) := by
    have matched := Bindings.Match.read holds name
    rw [known] at matched
    generalize Bindings.read name tasks = other at matched
    cases matched with
    | some related => exact ⟨_, rfl, related⟩
  set left := Bindings.clear name tasks with cleared
  have perm : (awaited :: handle :: (left.map Prod.snd ++ others)).Perm
      (handle :: (tasks.map Prod.snd ++ others)) := by
    have split := Bindings.perm_read name tasks distinct
    rw [present] at split
    exact (List.Perm.swap ..).trans (((split.append_right others).symm).cons handle)
  have nodup := perm.nodup_iff.mpr driven.nodup
  obtain ⟨apart, rest⟩ := List.nodup_cons.mp nodup
  have absent := (List.nodup_cons.mp rest).1
  have differs : handle ≠ awaited := (List.ne_of_not_mem_cons apart).symm
  set suspended : Frame Operation Response Failure Value :=
    { point := .task awaited next, tasks := left, continuation := continuation } with waits
  set after : Frames Operation Response Failure Value :=
    Function.update (Function.update (Function.update machine.frames awaited
      (some { point := .initial task, continuation := some handle })) handle (some suspended))
      awaited (some { point := .running, continuation := some handle }) with changed
  have still : ∀ other, other ≠ awaited → other ≠ handle → after other = machine.frames other :=
    fun other first second => by
      rw [changed, Function.update_of_ne first, Function.update_of_ne second,
        Function.update_of_ne first]
  have keeps : Keeps machine.frames (handle :: (tasks.map Prod.snd ++ others)) after
      (awaited :: handle :: (left.map Prod.snd ++ others)) :=
    ⟨fun other before away => still other (List.ne_of_not_mem_cons away)
      (List.ne_of_not_mem_cons before),
      fun other before away => absurd (perm.mem_iff.mpr before) away,
      fun other member before => absurd (perm.mem_iff.mp member) before⟩
  have outside : ∀ other ∈ left.map Prod.snd ++ others, after other = machine.frames other :=
    fun other member => still other
      (ne_of_mem_of_not_mem (List.mem_cons_of_mem _ member) apart)
      (ne_of_mem_of_not_mem member absent)
  have waiting : after handle = some
      { point := .task awaited next, tasks := left, continuation := continuation } :=
    (Function.update_of_ne differs _ _).trans (Function.update_self ..)
  refine ⟨{ machine with frames := after, control := some (awaited, task) }, awaited,
    awaited :: handle :: (left.map Prod.snd ++ others), ?_,
    ⟨⟨[], some handle, _, Function.update_self .., .nil, List.nodup_nil,
      .caller waiting ?_ ?_ ?_, rfl⟩,
      nodup, keeps.unused driven.unused fun other member => below other (perm.mem_iff.mp member),
      rfl, driven.submitted⟩, ⟨keeps, rfl, rfl, fun _ _ => rfl⟩⟩
  · rw [Machine.advance, frameOf, found]
    show Machine.awaitTask machine handle _ name next = _
    unfold Machine.awaitTask
    dsimp only
    rw [present]
    dsimp only
    rw [frameOf, called]
    exact resume_initial ((Function.update_of_ne differs.symm _ _).trans
      (Function.update_self ..))
  · exact Holds.congr (Bindings.Match.clear holds name) fun other member =>
      outside other (List.mem_append_left _ member)
  · exact distinct.clear name
  · exact chain.congr fun other member => outside other (List.mem_append_right _ member)

/-- A step of the coroutine that has control is the step of the stack. -/
theorem driven_advance (program : Program Operation Response Failure Value)
    (driven : Driven machine root handle handles (.running program held callers))
    (defined : (Config.running program held callers).meaning ≠ .undefined) :
    ∃ next last kept, machine.advance handle program = .ok next ∧
      Driven next root last kept (Config.running program held callers).step ∧
      Turn machine next handles kept := by
  cases program with
  | finish result =>
    cases callers with
    | nil =>
      obtain ⟨next, run, stands, turn⟩ := driven_finish result driven
      exact ⟨next, root, [root], run, stands, turn⟩
    | cons caller callers => exact driven_return result caller driven
  | perform operation next =>
    obtain ⟨after, run, stands, turn⟩ := driven_perform operation next driven
    exact ⟨after, handle, handles, run, stands, turn⟩
  | assign name task next =>
    obtain ⟨after, kept, run, stands, turn⟩ := driven_assign name task next driven
    exact ⟨after, handle, kept, run, stands, turn⟩
  | move target source next =>
    obtain ⟨after, kept, run, stands, turn⟩ := driven_move target source next driven
    exact ⟨after, handle, kept, run, stands, turn⟩
  | await name next =>
    rw [← Config.meaning_step] at defined
    rw [Config.step] at defined ⊢
    cases known : Bindings.read name held with
    | none =>
      rw [known] at defined
      exact absurd rfl defined
    | some task => exact driven_await name next known driven

/-- With enough fuel, the task is run up to its next wait or to its end. -/
theorem driven_drive (count : Nat) (config : Config Operation Response Failure Value)
    (driven : Driven machine root handle handles config) (defined : config.meaning ≠ .undefined)
    (settled : (Config.step^[count] config).settled = true) :
    ∃ next last kept, (∀ fuel, count ≤ fuel → machine.drive fuel = .ok next) ∧
      Driven next root last kept (Config.step^[count] config) ∧ Turn machine next handles kept := by
  induction count generalizing machine handle handles config with
  | zero =>
    have idle : machine.control = none := by
      rw [driven.control]
      cases config with
      | running program held callers => cases settled
      | _ => rfl
    refine ⟨machine, handle, handles, fun fuel _ => ?_, driven, ⟨fun _ _ _ => rfl,
      fun _ before away => absurd before away, fun _ member before => absurd member before⟩,
      rfl, rfl, fun _ _ => rfl⟩
    cases fuel with
    | zero =>
      rw [Machine.drive, idle]
      rfl
    | succ fuel =>
      rw [Machine.drive, idle]
  | succ count inductionHypothesis =>
    cases config with
    | running program held callers =>
      obtain ⟨between, last, kept, run, stands, turn⟩ := driven_advance program driven defined
      rw [← Config.meaning_step] at defined
      obtain ⟨next, final, rest, drives, follows, later⟩ := inductionHypothesis
        (Config.running program held callers).step stands defined settled
      refine ⟨next, final, rest, fun fuel enough => ?_, follows, turn.trans later⟩
      cases fuel with
      | zero => exact absurd enough (Nat.not_succ_le_zero count)
      | succ fuel =>
        rw [Machine.drive, driven.control]
        show (do Machine.drive fuel (← machine.advance handle program)) = _
        rw [run]
        exact drives fuel (Nat.le_of_succ_le_succ enough)
    | waiting operation next held callers =>
      obtain ⟨next, last, kept, drives, follows, turn⟩ :=
        inductionHypothesis (.waiting operation next held callers) driven defined settled
      exact ⟨next, last, kept, fun fuel enough => drives fuel (Nat.le_of_succ_le enough), follows,
        turn⟩
    | finished result =>
      obtain ⟨next, last, kept, drives, follows, turn⟩ :=
        inductionHypothesis (.finished result) driven defined settled
      exact ⟨next, last, kept, fun fuel enough => drives fuel (Nat.le_of_succ_le enough), follows,
        turn⟩
    | undefined => exact driven.stands.elim

end Steps

end AsyncNet.Coroutine
