/-
This file is about all tasks and every order of their events. The frames of the tasks are disjoint
and there are no others, so that an event of one task leaves the others where they are, and so that
a task that is destroyed takes with it just its own frames. From this, the coroutines do what their
bodies mean in direct style, no frame is used after it has been destroyed and none is destroyed
twice.
-/

import AsyncNet.Coroutine.TaskSteps
import Mathlib.Data.List.Lattice
import Mathlib.Data.List.Perm.Subperm

namespace AsyncNet.Coroutine

open Library

universe u

variable {Operation Response Failure Value : Type u}

/-! ### All tasks -/

/-- A task that has been started: its coroutine, the one at the end of its chain, the handles of
its frames, and where the stack is. -/
structure Entry (Operation Response Failure Value : Type u) where
  root : Handle
  last : Handle
  handles : List Handle
  config : Config Operation Response Failure Value

/-- The task waits or is done. -/
structure Fine (machine : Machine Operation Response Failure Value) (task : Nat)
    (entry : Entry Operation Response Failure Value) : Prop where
  stands : Stands machine.frames entry.root entry.last entry.handles entry.config
  settled : entry.config.settled = true
  nodup : entry.handles.Nodup
  submitted : machine.operations task = submittedOf entry.last entry.config

/-- Each frame belongs to one of the tasks or is in the list. -/
structure Keepers (machine : Machine Operation Response Failure Value)
    (entries : Nat → Option (Entry Operation Response Failure Value)) (handles : List Handle) :
    Prop where
  fine : ∀ task entry, entries task = some entry → Fine machine task entry
  apart : ∀ task other entry another, task ≠ other → entries task = some entry →
    entries other = some another → List.Disjoint entry.handles another.handles
  away : ∀ task entry, entries task = some entry → List.Disjoint entry.handles handles
  covered : ∀ handle, machine.frames handle ≠ none → handle ∈ handles ∨
    ∃ task entry, entries task = some entry ∧ handle ∈ entry.handles

section Entries

variable {machine next : Machine Operation Response Failure Value}
  {entries : Nat → Option (Entry Operation Response Failure Value)} {handles kept : List Handle}

theorem Keepers.keeps (keepers : Keepers machine entries handles)
    (keeps : Keeps machine.frames handles next.frames kept)
    (operations : ∀ task entry, entries task = some entry →
      next.operations task = machine.operations task) : Keepers next entries kept := by
  have outside : ∀ task entry, entries task = some entry → ∀ handle ∈ entry.handles,
      handle ∉ handles ∧ handle ∉ kept := fun task entry known handle member =>
    have away := fun before => keepers.away task entry known member before
    ⟨away, fun after =>
      (keepers.fine task entry known).stands.live handle member (keeps.new handle after away)⟩
  refine ⟨fun task entry known => ?_, keepers.apart, fun task entry known handle member after =>
    (outside task entry known handle member).2 after, fun handle live => ?_⟩
  · obtain ⟨stands, settled, nodup, submitted⟩ := keepers.fine task entry known
    refine ⟨stands.congr fun handle member => ?_, settled, nodup,
      (operations task entry known).trans submitted⟩
    obtain ⟨before, after⟩ := outside task entry known handle member
    exact keeps.same handle before after
  · by_cases after : handle ∈ kept
    · exact .inl after
    · have before : handle ∉ handles := fun before => live (keeps.freed handle before after)
      rw [keeps.same handle before after] at live
      exact .inr ((keepers.covered handle live).resolve_left before)

/-- One task is looked at. -/
theorem Keepers.focus (keepers : Keepers machine entries []) {task : Nat}
    {entry : Entry Operation Response Failure Value} (known : entries task = some entry) :
    Keepers machine (Function.update entries task none) entry.handles := by
  have elsewhere : ∀ other another, Function.update entries task none other = some another →
      other ≠ task ∧ entries other = some another := fun other another found => by
    by_cases same : other = task
    · rw [same, Function.update_self] at found
      cases found
    · rw [Function.update_of_ne same] at found
      exact ⟨same, found⟩
  refine ⟨fun other another found => keepers.fine other another (elsewhere other another found).2,
    fun first second one two differs left right =>
      keepers.apart first second one two differs (elsewhere first one left).2
        (elsewhere second two right).2,
    fun other another found => keepers.apart other task another entry
      (elsewhere other another found).1 (elsewhere other another found).2 known,
    fun handle live => ?_⟩
  obtain ⟨other, another, found, member⟩ := (keepers.covered handle live).resolve_left nofun
  by_cases same : other = task
  · rw [same, known] at found
    rw [Option.some.inj found]
    exact .inl member
  · exact .inr ⟨other, another, (Function.update_of_ne same _ _).trans found, member⟩

theorem Keepers.unfocus {task : Nat} {entry : Entry Operation Response Failure Value}
    (keepers : Keepers machine entries entry.handles) (fresh : entries task = none)
    (fine : Fine machine task entry) :
    Keepers machine (Function.update entries task (some entry)) [] := by
  have which : ∀ other another, Function.update entries task (some entry) other = some another →
      other = task ∧ another = entry ∨ other ≠ task ∧ entries other = some another :=
    fun other another found => by
      by_cases same : other = task
      · rw [same, Function.update_self] at found
        exact .inl ⟨same, (Option.some.inj found).symm⟩
      · rw [Function.update_of_ne same] at found
        exact .inr ⟨same, found⟩
  refine ⟨fun other another found => ?_, fun first second one two differs left right => ?_,
    fun _ _ _ => List.disjoint_nil_right _, fun handle live => .inr ?_⟩
  · rcases which other another found with ⟨rfl, rfl⟩ | ⟨-, found⟩
    · exact fine
    · exact keepers.fine other another found
  · rcases which first one left with ⟨rfl, rfl⟩ | ⟨-, leftKnown⟩
    · rcases which second two right with ⟨rfl, -⟩ | ⟨-, rightKnown⟩
      · exact absurd rfl differs
      · exact (keepers.away second two rightKnown).symm
    · rcases which second two right with ⟨-, rfl⟩ | ⟨-, rightKnown⟩
      · exact keepers.away first one leftKnown
      · exact keepers.apart first second one two differs leftKnown rightKnown
  · rcases keepers.covered handle live with member | ⟨other, another, found, member⟩
    · exact ⟨task, entry, Function.update_self .., member⟩
    · have differs : other ≠ task := by
        rintro rfl
        rw [fresh] at found
        cases found
      exact ⟨other, another, (Function.update_of_ne differs _ _).trans found, member⟩

end Entries

/-- The machine between two events. -/
structure Sound (machine : Machine Operation Response Failure Value)
    (world : World Operation Response Failure Value)
    (entries : Nat → Option (Entry Operation Response Failure Value)) : Prop where
  idle : machine.control = none
  keepers : Keepers machine entries []
  unused : ∀ handle, machine.fresh ≤ handle → machine.frames handle = none
  length : machine.tasks.length = world.length
  tasks : ∀ task : Nat, task < world.length →
    machine.tasks[task]? = some ((entries task).map Entry.root)
  meaning : ∀ task : Nat, task < world.length →
    world[task]? = some ((entries task).map fun entry => entry.config.meaning)
  past : ∀ task, world.length ≤ task → entries task = none
  unsubmitted : ∀ task, world.length ≤ task → machine.operations task = none

section Runs

variable {machine : Machine Operation Response Failure Value}
  {world after : World Operation Response Failure Value}
  {entries : Nat → Option (Entry Operation Response Failure Value)}

theorem sound_new : Sound ({} : Machine Operation Response Failure Value) [] fun _ => none where
  idle := rfl
  keepers := ⟨nofun, nofun, nofun, fun _ live => absurd rfl live⟩
  unused _ _ := rfl
  length := rfl
  tasks _ within := absurd within (Nat.not_lt_zero _)
  meaning _ within := absurd within (Nat.not_lt_zero _)
  past _ _ := rfl
  unsubmitted _ _ := rfl

/-- One task is run, up to its next wait or to its end. -/
theorem sound_drive (after : World Operation Response Failure Value) {task : Nat}
    {root last : Handle} {handles : List Handle}
    {config : Config Operation Response Failure Value}
    (keepers : Keepers machine entries handles) (fresh : entries task = none)
    (driven : Driven machine root last handles config) (current : machine.current = task)
    (defined : config.meaning ≠ .undefined) (length : machine.tasks.length = after.length)
    (tasks : ∀ other : Nat, other < after.length → machine.tasks[other]? =
      some (if other = task then some root else (entries other).map Entry.root))
    (meaning : ∀ other : Nat, other < after.length → after[other]? =
      some (if other = task then some config.meaning
        else (entries other).map fun entry => entry.config.meaning))
    (past : ∀ other, after.length ≤ other →
      other ≠ task ∧ entries other = none ∧ machine.operations other = none) :
    ∃ bound next, (∀ fuel, bound ≤ fuel → machine.drive fuel = .ok next) ∧
      ∃ entries, Sound next after entries := by
  obtain ⟨count, settled⟩ := config.settles
  obtain ⟨next, final, kept, drives, follows, turn⟩ :=
    driven_drive count config driven defined settled
  have later := keepers.keeps turn.keeps fun other entry known =>
    turn.operations other fun same => by
      rw [same, current, fresh] at known
      cases known
  refine ⟨count, next, drives, Function.update entries task
    (some { root := root, last := final, handles := kept, config := Config.step^[count] config }),
    ?_, later.unfocus fresh ⟨follows.stands, settled, follows.nodup, ?_⟩, follows.unused,
    (congrArg List.length turn.tasks).trans length, fun other within => ?_, fun other within => ?_,
    fun other beyond => (Function.update_of_ne (past other beyond).1 _ _).trans
      (past other beyond).2.1,
    fun other beyond => (turn.operations other fun same =>
      (past other beyond).1 (same.trans current)).trans (past other beyond).2.2⟩
  · rw [follows.control]
    generalize Config.step^[count] config = reached at settled
    cases reached with
    | running program held callers => cases settled
    | _ => rfl
  · rw [← current, ← turn.current]
    exact follows.submitted
  · rw [turn.tasks, tasks other within]
    by_cases same : other = task
    · rw [if_pos same, same, Function.update_self]
      rfl
    · rw [if_neg same, Function.update_of_ne same]
  · rw [meaning other within]
    by_cases same : other = task
    · rw [if_pos same, same, Function.update_self, Option.map_some, Config.meaning_steps]
    · rw [if_neg same, Function.update_of_ne same]

/-- A task is started. -/
theorem Sound.start (sound : Sound machine world entries)
    (body : Program Operation Response Failure Value)
    (step : World.step world (.start body) = some after) :
    ∃ bound next, (∀ fuel, bound ≤ fuel → machine.step fuel (.start body) = .ok next) ∧
      ∃ entries, Sound next after entries := by
  have unused := sound.unused machine.fresh (Nat.le_refl _)
  have equal := sound.length
  set started : Machine Operation Response Failure Value :=
    { machine.call body with
      tasks := machine.tasks ++ [some machine.fresh], current := machine.tasks.length } with begun
  set running := started.run machine.fresh (Frame.called body) body with runs
  have resumed : started.resume machine.fresh = .ok running :=
    resume_initial (Function.update_self ..)
  have still : ∀ other, other ≠ machine.fresh → running.frames other = machine.frames other :=
    fun other differs =>
      (Function.update_of_ne differs _ _).trans (Function.update_of_ne differs _ _)
  obtain ⟨resumption, meant, rfl⟩ := Option.map_eq_some_iff.mp step
  obtain ⟨defined, rfl⟩ := Resumption.meant_eq_some meant
  have keepers : Keepers running entries [machine.fresh] := sound.keepers.keeps
    ⟨fun other _ away => still other fun same => away (List.mem_singleton.mpr same), nofun,
      fun other member _ => by rw [List.mem_singleton.mp member]; exact unused⟩ fun _ _ _ => rfl
  have idle := sound.unsubmitted machine.tasks.length (Nat.le_of_eq equal.symm)
  have driven : Driven running machine.fresh machine.fresh [machine.fresh]
      (.running body [] []) :=
    ⟨⟨[], none, [], Function.update_self .., .nil, List.nodup_nil, .root, rfl⟩,
      List.nodup_singleton _, fun other fresh =>
        (still other (Nat.ne_of_gt fresh)).trans (sound.unused other (Nat.le_of_succ_le fresh)),
      rfl, idle⟩
  set later := world ++ [some (body.meaning fun _ => none)] with appended
  have longer : later.length = world.length + 1 := List.length_append
  have length : (machine.tasks ++ [some machine.fresh]).length = later.length := by
    rw [longer, List.length_append, equal]
    rfl
  have tasks : ∀ other : Nat, other < later.length →
      (machine.tasks ++ [some machine.fresh])[other]? = some (if other = machine.tasks.length
        then some machine.fresh else (entries other).map Entry.root) := by
    intro other within
    by_cases same : other = machine.tasks.length
    · rw [if_pos same, same, List.getElem?_concat_length]
    · have before : other < world.length := by omega
      rw [if_neg same, List.getElem?_append_left (equal ▸ before), sound.tasks other before]
  have meaning : ∀ other : Nat, other < later.length →
      later[other]? = some (if other = machine.tasks.length
        then some (Config.running body [] []).meaning
        else (entries other).map fun entry => entry.config.meaning) := by
    intro other within
    by_cases same : other = machine.tasks.length
    · rw [if_pos same, same, equal, appended, List.getElem?_concat_length]
      rfl
    · have before : other < world.length := by omega
      rw [if_neg same, appended, List.getElem?_append_left before, sound.meaning other before]
  obtain ⟨bound, next, drives, found, follows⟩ := sound_drive later keepers
    (sound.past _ (Nat.le_of_eq equal.symm)) driven rfl defined length tasks meaning
    fun other beyond => ⟨by omega, sound.past other (by omega), sound.unsubmitted other (by omega)⟩
  refine ⟨bound, next, fun fuel enough => ?_, found, follows⟩
  rw [Machine.step]
  show (do Machine.drive fuel (← started.resume machine.fresh)) = _
  rw [resumed]
  exact drives fuel enough

/-- The operation of a task is completed. -/
theorem Sound.complete (sound : Sound machine world entries) (task : Nat) (response : Response)
    (step : World.step world (.complete task response) = some after) :
    ∃ bound next, (∀ fuel, bound ≤ fuel → machine.step fuel (.complete task response) = .ok next) ∧
      ∃ entries, Sound next after entries := by
  unfold World.step at step
  dsimp only at step
  split at step
  · next operation continuing found =>
    obtain ⟨resumption, meant, rfl⟩ := Option.map_eq_some_iff.mp step
    obtain ⟨defined, rfl⟩ := Resumption.meant_eq_some meant
    have within : task < world.length := (List.getElem?_eq_some_iff.mp found).1
    have equal := sound.meaning task within
    rw [found] at equal
    obtain ⟨entry, known, means⟩ := Option.map_eq_some_iff.mp (Option.some.inj equal).symm
    obtain ⟨stands, settled, nodup, submitted⟩ := sound.keepers.fine task entry known
    obtain ⟨root, last, handles, config⟩ := entry
    dsimp only at means stands settled nodup submitted
    cases config with
    | running program held callers => cases settled
    | finished result => cases means
    | undefined => cases means
    | waiting operation next held callers =>
      obtain ⟨rfl, rfl⟩ := Resumption.perform.inj means
      have live := stands.live
      obtain ⟨tasks, continuation, others, present, holds, distinct, chain, rfl⟩ := stands
      have focused := sound.keepers.focus known
      have absent := (List.nodup_cons.mp nodup).1
      set completed : Machine Operation Response Failure Value :=
        { machine with
          operations := Function.update machine.operations task none, current := task } with begun
      set running := completed.run last
        { point := .operation next, tasks := tasks, continuation := continuation } (next response)
        with runs
      have answered : completed.answer last response = .ok running := by
        rw [Machine.answer, frameOf, present]
        rfl
      have still : ∀ other, other ≠ last → running.frames other = machine.frames other :=
        fun other differs => Function.update_of_ne differs _ _
      have keeps : Keeps machine.frames (last :: (tasks.map Prod.snd ++ others)) running.frames
          (last :: (tasks.map Prod.snd ++ others)) :=
        ⟨fun other before _ => still other (List.ne_of_not_mem_cons before),
          fun _ before away => absurd before away, fun _ member before => absurd member before⟩
      have keepers : Keepers running (Function.update entries task none)
          (last :: (tasks.map Prod.snd ++ others)) :=
        focused.keeps keeps fun other _ elsewhere => by
          refine Function.update_of_ne (fun same => ?_) _ _
          rw [same, Function.update_self] at elsewhere
          cases elsewhere
      have driven : Driven running root last (last :: (tasks.map Prod.snd ++ others))
          (.running (next response) held callers) :=
        ⟨⟨tasks, continuation, others, Function.update_self ..,
          holds.congr fun other member => still other
            (ne_of_mem_of_not_mem (List.mem_append_left _ member) absent), distinct,
          chain.congr fun other member => still other
            (ne_of_mem_of_not_mem (List.mem_append_right _ member) absent), rfl⟩, nodup,
          keeps.unused sound.unused fun other member => Nat.lt_of_not_le fun beyond =>
            live other member (sound.unused other beyond), rfl, Function.update_self ..⟩
      set later := world.set task (some (Config.running (next response) held callers).meaning)
        with changed
      have same : later.length = world.length := List.length_set
      have roots : ∀ other : Nat, other < later.length → machine.tasks[other]? =
          some (if other = task then some root
            else (Function.update entries task none other).map Entry.root) := by
        intro other within
        rw [sound.tasks other (same ▸ within)]
        by_cases here : other = task
        · rw [if_pos here, here, known]
          rfl
        · rw [if_neg here, Function.update_of_ne here]
      have meaning : ∀ other : Nat, other < later.length → later[other]? =
          some (if other = task then some (Config.running (next response) held callers).meaning
            else (Function.update entries task none other).map
              fun entry => entry.config.meaning) := by
        intro other within
        by_cases here : other = task
        · rw [if_pos here, here, changed, List.getElem?_set_self (here ▸ same ▸ within)]
        · rw [if_neg here, Function.update_of_ne here, changed,
            List.getElem?_set_ne (Ne.symm here), sound.meaning other (same ▸ within)]
      obtain ⟨bound, next, drives, found, follows⟩ := sound_drive later keepers
        (Function.update_self ..) driven rfl defined (sound.length.trans same.symm) roots meaning
        fun other beyond =>
          have differs : other ≠ task := fun here => absurd within (by omega)
          ⟨differs, (Function.update_of_ne differs _ _).trans (sound.past other (by omega)),
            (Function.update_of_ne differs _ _).trans (sound.unsubmitted other (by omega))⟩
      refine ⟨bound, next, fun fuel enough => ?_, found, follows⟩
      rw [Machine.step, submitted]
      show (do Machine.drive fuel (← completed.answer last response)) = _
      rw [answered]
      exact drives fuel enough
  · cases step

/-- A task is destroyed, and all its frames. -/
theorem Sound.destroy (sound : Sound machine world entries) (task : Nat) :
    ∃ next, (∀ fuel, machine.step fuel (.destroy task) = .ok next) ∧
      ∃ entries, Sound next (world.set task none) entries := by
  by_cases within : task < world.length
  · cases known : entries task with
    | none =>
      have found := sound.tasks task within
      have meaning := sound.meaning task within
      rw [known, Option.map_none] at found meaning
      refine ⟨machine, fun fuel => ?_, entries, ?_⟩
      · rw [Machine.step, found]
      · rw [← (List.getElem?_eq_some_iff.mp meaning).2, List.set_getElem_self]
        exact sound
    | some entry =>
      obtain ⟨stands, settled, nodup, -⟩ := sound.keepers.fine task entry known
      have found := sound.tasks task within
      rw [known, Option.map_some] at found
      have bound : entry.handles.length ≤ machine.fresh := by
        have subset : entry.handles ⊆ List.range machine.fresh := fun handle member =>
          List.mem_range.mpr (Nat.lt_of_not_le fun beyond =>
            stands.live handle member (sound.unused handle beyond))
        have short := (List.subperm_of_subset nodup subset).length_le
        rwa [List.length_range] at short
      set next : Machine Operation Response Failure Value :=
        { machine with
          frames := without entry.handles machine.frames
          tasks := machine.tasks.set task none } with destroyed
      have keeps : Keeps machine.frames entry.handles next.frames [] :=
        ⟨fun _ before _ => without_of_not_mem before, fun _ member _ => if_pos member,
          fun _ member => absurd member List.not_mem_nil⟩
      refine ⟨next, fun fuel => ?_, Function.update entries task none, sound.idle,
        (sound.keepers.focus known).keeps keeps fun _ _ _ => rfl, fun handle beyond => ?_, ?_,
        fun other bounded => ?_, fun other bounded => ?_, fun other beyond => ?_,
        fun other beyond => ?_⟩
      · rw [Machine.step, found]
        dsimp only
        rw [Machine.destroyFrame, stands.destroy settled nodup bound]
        rfl
      · refine keeps.unused sound.unused (fun _ member => ?_) handle beyond
        exact absurd member List.not_mem_nil
      · exact (List.length_set.trans sound.length).trans List.length_set.symm
      · rw [List.length_set] at bounded
        show (machine.tasks.set task none)[other]? = _
        by_cases here : other = task
        · rw [here, List.getElem?_set_self (sound.length ▸ within), Function.update_self]
          rfl
        · rw [List.getElem?_set_ne (Ne.symm here), Function.update_of_ne here,
            sound.tasks other bounded]
      · rw [List.length_set] at bounded
        by_cases here : other = task
        · rw [here, List.getElem?_set_self within, Function.update_self]
          rfl
        · rw [List.getElem?_set_ne (Ne.symm here), Function.update_of_ne here,
            sound.meaning other bounded]
      · rw [List.length_set] at beyond
        have differs : other ≠ task := fun here => absurd within (here ▸ Nat.not_lt.mpr beyond)
        rw [Function.update_of_ne differs]
        exact sound.past other beyond
      · rw [List.length_set] at beyond
        exact sound.unsubmitted other beyond
  · have beyond := Nat.le_of_not_lt within
    refine ⟨machine, fun fuel => ?_, entries, ?_⟩
    · rw [Machine.step, List.getElem?_eq_none (sound.length ▸ beyond)]
    · rw [List.set_eq_of_length_le beyond]
      exact sound

theorem Sound.step (sound : Sound machine world entries)
    (event : Event Operation Response Failure Value) (step : World.step world event = some after) :
    ∃ bound next, (∀ fuel, bound ≤ fuel → machine.step fuel event = .ok next) ∧
      ∃ entries, Sound next after entries := by
  cases event with
  | start body => exact sound.start body step
  | complete task response => exact sound.complete task response step
  | destroy task =>
    obtain ⟨next, run, follows⟩ := sound.destroy task
    obtain rfl := Option.some.inj step
    exact ⟨0, next, fun fuel _ => run fuel, follows⟩

theorem Sound.run (sound : Sound machine world entries)
    (events : List (Event Operation Response Failure Value))
    (run : events.foldlM World.step world = some after) :
    ∃ bound next, (∀ fuel, bound ≤ fuel → events.foldlM (Machine.step fuel) machine = .ok next) ∧
      ∃ entries, Sound next after entries := by
  induction events generalizing machine world entries with
  | nil =>
    obtain rfl := Option.some.inj run
    exact ⟨0, machine, fun _ _ => rfl, entries, sound⟩
  | cons event events inductionHypothesis =>
    rw [List.foldlM_cons] at run
    obtain ⟨between, first, later⟩ := Option.bind_eq_some_iff.mp run
    obtain ⟨bound, middle, steps, entries, sound⟩ := sound.step event first
    obtain ⟨limit, next, runs, follows⟩ := inductionHypothesis sound later
    refine ⟨max bound limit, next, fun fuel enough => ?_, follows⟩
    rw [List.foldlM_cons, steps fuel (Nat.le_trans (Nat.le_max_left ..) enough)]
    exact runs fuel (Nat.le_trans (Nat.le_max_right ..) enough)

end Runs

/-! ### The tasks follow the direct style -/

section Following

variable {frames : Frames Operation Response Failure Value} {root handle : Handle}
  {handles : List Handle}

theorem Owns.step {owner : Handle} (owns : Owns frames root owner)
    {frame : Frame Operation Response Failure Value} (found : frames owner = some frame)
    (member : handle ∈ frame.owned) : Owns frames root handle :=
  Relation.ReflTransGen.tail owns ⟨frame, found, member⟩

theorem Awaited.owns {continuation : Option Handle}
    {callers : List (Caller Operation Response Failure Value)}
    (chain : Awaited frames root handle continuation callers handles) :
    Owns frames root handle ∧ ∀ other ∈ handles, Owns frames root other := by
  induction chain with
  | root => exact ⟨.refl, nofun⟩
  | caller found holds _ _ inductionHypothesis =>
    obtain ⟨owner, others⟩ := inductionHypothesis
    refine ⟨owner.step found List.mem_cons_self, fun other member => ?_⟩
    rcases List.mem_cons.mp member with rfl | member
    · exact owner
    · rcases List.mem_append.mp member with member | member
      · exact owner.step found (List.mem_cons_of_mem _ member)
      · exact others other member

theorem Stands.owns {config : Config Operation Response Failure Value}
    (stands : Stands frames root handle handles config) (settled : config.settled = true) :
    ∀ other ∈ handles, Owns frames root other := by
  cases config with
  | running program held callers => cases settled
  | waiting operation next held callers =>
    obtain ⟨tasks, continuation, others, found, -, -, chain, rfl⟩ := stands
    obtain ⟨owner, rest⟩ := chain.owns
    intro other member
    rcases List.mem_cons.mp member with rfl | member
    · exact owner
    · rcases List.mem_append.mp member with member | member
      · exact owner.step found member
      · exact rest other member
  | finished result =>
    obtain ⟨-, rfl⟩ := stands
    intro other member
    rw [List.mem_singleton.mp member]
    exact .refl
  | undefined => exact stands.elim

theorem Sound.follows {machine : Machine Operation Response Failure Value}
    {world : World Operation Response Failure Value}
    {entries : Nat → Option (Entry Operation Response Failure Value)}
    (sound : Sound machine world entries) : machine.Follows world := by
  have entryOf : ∀ (task : Nat) resumption, world[task]? = some (some resumption) →
      ∃ entry, machine.tasks[task]? = some (some entry.root) ∧ Fine machine task entry ∧
        entry.config.meaning = resumption := by
    intro task resumption found
    have within := (List.getElem?_eq_some_iff.mp found).1
    have meaning := sound.meaning task within
    rw [found] at meaning
    obtain ⟨entry, known, means⟩ := Option.map_eq_some_iff.mp (Option.some.inj meaning).symm
    have root := sound.tasks task within
    rw [known] at root
    exact ⟨entry, root, sound.keepers.fine task entry known, means⟩
  refine ⟨sound.idle, sound.length, fun task result found => ?_,
    fun task operation next found => ?_, fun task found => ?_, fun handle live => ?_⟩
  · obtain ⟨entry, root, fine, means⟩ := entryOf task _ found
    obtain ⟨stands, settled, -, submitted⟩ := fine
    obtain ⟨first, last, handles, config⟩ := entry
    dsimp only at stands settled submitted means root
    cases config with
    | running program held callers => cases settled
    | waiting operation next held callers => cases means
    | finished other =>
      obtain rfl := Resumption.done.inj means
      exact ⟨first, root, stands.1, submitted⟩
    | undefined => cases means
  · obtain ⟨entry, root, fine, means⟩ := entryOf task _ found
    obtain ⟨stands, settled, -, submitted⟩ := fine
    obtain ⟨first, last, handles, config⟩ := entry
    dsimp only at stands settled submitted means root
    have owned := stands.owns settled
    cases config with
    | running program held callers => cases settled
    | waiting performed continuing held callers =>
      obtain ⟨rfl, -⟩ := Resumption.perform.inj means
      obtain ⟨tasks, continuation, others, -, -, -, -, rfl⟩ := stands
      exact ⟨first, last, root, owned last List.mem_cons_self, submitted⟩
    | finished other => cases means
    | undefined => cases means
  · have within := (List.getElem?_eq_some_iff.mp found).1
    have meaning := sound.meaning task within
    rw [found] at meaning
    rw [sound.tasks task within, Option.map_eq_none_iff.mp (Option.some.inj meaning).symm]
    rfl
  · obtain ⟨task, entry, known, member⟩ := (sound.keepers.covered handle live).resolve_left nofun
    have within : task < world.length := Nat.lt_of_not_le fun beyond => by
      rw [sound.past task beyond] at known
      cases known
    have root := sound.tasks task within
    rw [known] at root
    have fine := sound.keepers.fine task entry known
    exact ⟨task, entry.root, root, fine.stands.owns fine.settled handle member⟩

end Following

end AsyncNet.Coroutine
