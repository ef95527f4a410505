/-
This file is about the worker threads under `ThreadPolicy`. To tell a worker to stop clears its
flag `running`, and this flag is all that `is_alive` looks at. So when a sweep comes to ask,
none of its workers is alive, none is forced to stop, and so none is joined before its entry is
removed. An entry is removed without a joinable thread only in `reap`, which joins what has
cleared its flag.
-/

import AsyncNet.Executor.Reloads

namespace AsyncNet.Executor

open Library

variable {Rest : Type}

/-- The master with worker threads. -/
abbrev ThreadManager (Rest : Type) := ProcessManager Rest Thread.Handle Thread.Threads

/-! ### The property -/

/-- No entry has been removed while its thread was joinable. -/
def NoneJoinable (manager : ThreadManager Rest) : Prop :=
  ∀ h ∈ manager.removed, h.joinable = false

/-- A step is not the end of a reload, and if it is the end of `stop_all_workers`, there are no
entries left. -/
def stopsNone (manager : ThreadManager Rest) : MasterAction Rest Unit Nat → Bool
  | .advance _ =>
      match manager.place with
      | .erase (.old _) => false
      | .erase .all => manager.workers.isEmpty
      | _ => true
  | _ => true

def StopsNone (manager : ThreadManager Rest) (action : MasterAction Rest Unit Nat) : Prop :=
  stopsNone manager action = true

instance (manager : ThreadManager Rest) (action : MasterAction Rest Unit Nat) :
    Decidable (StopsNone manager action) :=
  inferInstanceAs (Decidable (_ = true))

/-! ### Threads -/

namespace Thread

/-- There may be more threads, and no flag has been set. -/
structure Later (world next : Threads) : Prop where
  length : world.length ≤ next.length
  stopped : ∀ h : Handle, h.thread < world.length → isRunning world h = false →
    isRunning next h = false

theorem later_self (world : Threads) : Later world world :=
  ⟨Nat.le_refl _, fun _ _ stopped => stopped⟩

theorem later_append (world more : Threads) : Later world (world ++ more) := by
  refine ⟨by rw [List.length_append]; omega, fun h inside stopped => ?_⟩
  unfold isRunning at stopped ⊢
  rw [List.getElem?_append_left inside]
  exact stopped

theorem later_modify (world : Threads) (thread : Nat) {change : WorkerThread → WorkerThread}
    (clears : ∀ found, (change found).running = false) :
    Later world (world.modify thread change) := by
  refine ⟨Nat.le_of_eq (List.length_modify _ _ _).symm, fun h _ stopped => ?_⟩
  unfold isRunning at stopped ⊢
  rw [List.getElem?_modify]
  cases found : world[h.thread]? with
  | none => rfl
  | some there =>
    rw [found] at stopped
    show (if thread = h.thread then change there else there).running = false
    split
    · exact clears there
    · exact stopped

/-- A thread whose flag has been cleared is not running. -/
theorem isRunning_signalStop (world : Threads) (h : Handle) :
    isRunning (signalStop world h) h = false := by
  unfold isRunning signalStop
  rw [List.getElem?_modify_eq]
  cases world[h.thread]? with
  | none => rfl
  | some found => rfl

end Thread

open Thread

/-! ### Entries -/

def MasterPlace.isReaping : MasterPlace Rest → Bool
  | .reaping _ => true
  | _ => false

/-- What is known of an entry: its thread is joinable, except that `reap` may just have joined it.
-/
structure EntrySound (world : Threads) (reaping : Bool) (entry : WorkerEntry Rest Handle) :
    Prop where
  known : entry.handle.thread < world.length
  stopped : entry.stopping = true → isRunning world entry.handle = false
  joinable : entry.handle.joinable = true ∨ reaping = true ∧ isRunning world entry.handle = false

theorem EntrySound.later {world next : Threads} {reaping : Bool} {entry : WorkerEntry Rest Handle}
    (sound : EntrySound world reaping entry) (later : Later world next) :
    EntrySound next reaping entry :=
  ⟨Nat.lt_of_lt_of_le sound.known later.length,
    fun stopping => later.stopped _ sound.known (sound.stopped stopping),
    sound.joinable.imp_right fun both => ⟨both.1, later.stopped _ sound.known both.2⟩⟩

theorem EntrySound.outside {world : Threads} {entry : WorkerEntry Rest Handle}
    (sound : EntrySound world false entry) (reaping : Bool) : EntrySound world reaping entry :=
  ⟨sound.known, sound.stopped, Or.inl (sound.joinable.resolve_right fun both => by cases both.1)⟩

/-- What is known of the place of the master: it never has to force a worker, and where it looks at
one for a reload, that is an old one. -/
def PlaceAimed (manager : ThreadManager Rest) : Prop :=
  match manager.place with
  | .poll (.old reload) index | .check (.old reload) index =>
      ∃ entry, manager.workers[index]? = some entry ∧
        entry.isSwept manager.currentGeneration (.old reload) = true
  | .forceKill _ _ | .forceWait _ _ => False
  | _ => True

structure ThreadSound (manager : ThreadManager Rest) : Prop where
  host : manager.HostSound
  entries : ∀ entry ∈ manager.workers, EntrySound manager.world manager.place.isReaping entry
  aimed : PlaceAimed manager

section Steps

variable {manager next : ThreadManager Rest}

/-- A worker at which a sweep looks after all have been told to stop is not running. -/
theorem ThreadSound.stopped (sound : ThreadSound manager) {sweep : Sweep Rest}
    (signalled : AllSignalled manager.tags manager.currentGeneration sweep) {index : Nat}
    {entry : WorkerEntry Rest Handle} (found : manager.workers[index]? = some entry)
    (mine : entry.isSwept manager.currentGeneration sweep = true) :
    isRunning manager.world entry.handle = false := by
  have member := List.mem_of_getElem? found
  exact (sound.entries entry member).stopped (signalled _ (List.mem_map_of_mem member) mine)

/-- The handle of an entry is put back as it was. -/
theorem setHandle_self {index : Nat} {entry : WorkerEntry Rest Handle}
    (found : manager.workers[index]? = some entry) :
    manager.setHandle index entry.handle = manager := by
  have same : (manager.workers.modify index fun other => { other with handle := entry.handle }) =
      manager.workers := by
    refine List.ext_getElem? fun place => ?_
    by_cases here : index = place
    · subst here
      rw [List.getElem?_modify_eq, found]
      rfl
    · exact List.getElem?_modify_ne _ _ here
  unfold ProcessManager.setHandle
  rw [same]

/-- `is_alive` only reads the flag. -/
theorem askAlive_eq {index : Nat} {entry : WorkerEntry Rest Handle}
    (found : manager.workers[index]? = some entry) (place : Bool → MasterPlace Rest) :
    manager.askAlive threadPolicy index entry.handle place =
      { manager with place := place (isRunning manager.world entry.handle) } := by
  show { manager.setHandle index entry.handle with
    world := manager.world, place := place (isRunning manager.world entry.handle) } = _
  rw [setHandle_self found]

/-- Only the place changes, and the threads may have gone on. -/
theorem ThreadSound.moved (sound : ThreadSound manager) (host : next.HostSound)
    (workers : next.workers = manager.workers) (later : Later manager.world next.world)
    (reaping : manager.place.isReaping = true → next.place.isReaping = true)
    (aimed : PlaceAimed next) : ThreadSound next := by
  refine ⟨host, fun entry member => ?_, aimed⟩
  have known := (sound.entries entry (workers ▸ member)).later later
  cases was : manager.place.isReaping with
  | false =>
    rw [was] at known
    exact known.outside _
  | true =>
    rw [was] at known
    rw [reaping was]
    exact known

theorem PlaceAimed.of_goes {place : MasterPlace Rest} (aimed : PlaceAimed manager)
    (goes : manager.Goes place) : PlaceAimed { manager with place } := by
  cases goes with
  | shutdownTest here requested => cases requested <;> trivial
  | waitAll here expired => cases expired <;> trivial
  | waitOld here found mine expired => cases expired <;> exact ⟨_, found, mine⟩
  | @polled sweep index here outside =>
    cases sweep with
    | all => trivial
    | old reload =>
      unfold PlaceAimed at aimed
      rw [here] at aimed
      obtain ⟨entry, found, _⟩ := aimed
      cases outside.symm.trans found
  | noReload | running | reloading | signalled | skipped | waited | passed | checked | exited
  | continued => trivial

theorem isReaping_of_goes {place : MasterPlace Rest} (goes : manager.Goes place) :
    manager.place.isReaping = false := by
  cases goes <;> simp_all [MasterPlace.isReaping]

/-- A worker that is polled or checked is not running, so that only the place changes. -/
theorem ThreadSound.asked {sweep : Sweep Rest} {index : Nat} {entry : WorkerEntry Rest Handle}
    (sound : ThreadSound manager) (here : manager.place = .poll sweep index ∨
      manager.place = .check sweep index) (found : manager.workers[index]? = some entry)
    (place : Bool → MasterPlace Rest) :
    manager.askAlive threadPolicy index entry.handle place = { manager with place := place false } ∧
      ∀ reload, sweep = .old reload →
        entry.isSwept manager.currentGeneration (.old reload) = true := by
  have known : AllSignalled manager.tags manager.currentGeneration sweep := by
    obtain here | here := here
    · exact (sound.host.at here).2
    · exact (sound.host.at here).2
  have mine : entry.isSwept manager.currentGeneration sweep = true := by
    cases sweep with
    | all => rfl
    | old reload =>
      have aimed := sound.aimed
      unfold PlaceAimed at aimed
      obtain here | here := here
      · rw [here] at aimed
        obtain ⟨other, there, swept⟩ := aimed
        cases found.symm.trans there
        exact swept
      · rw [here] at aimed
        obtain ⟨other, there, swept⟩ := aimed
        cases found.symm.trans there
        exact swept
  rw [askAlive_eq found, sound.stopped known found mine]
  exact ⟨rfl, fun reload same => same ▸ mine⟩

theorem ThreadSound.spawned (sound : ThreadSound manager) {i count : Nat}
    {reload : Option (Reload Rest)} (here : manager.place = .spawning i count reload)
    {entry : WorkerEntry Rest Handle} (host : next.HostSound)
    (workers : next.workers = manager.workers ++ [entry])
    (world : next.world = manager.world ++ [({} : WorkerThread)])
    (place : next.place = .spawning (i + 1) count reload)
    (thread : entry.handle = { thread := manager.world.length }) (fresh : entry.stopping = false) :
    ThreadSound next := by
  have outside : manager.place.isReaping = false := by rw [here]; rfl
  refine ⟨host, fun other member => ?_, ?_⟩
  · rw [workers] at member
    rw [world]
    obtain former | last := List.mem_append.mp member
    · have known := sound.entries other former
      rw [outside] at known
      exact (known.later (later_append _ _)).outside _
    · rw [List.mem_singleton.mp last]
      refine ⟨?_, ?_, Or.inl ?_⟩
      · rw [thread, List.length_append]
        exact Nat.lt_succ_self _
      · rw [fresh]
        exact fun wrong => by cases wrong
      · rw [thread]
  · unfold PlaceAimed
    rw [place]
    trivial

theorem ThreadSound.signalled (sound : ThreadSound manager) {sweep : Sweep Rest} {index : Nat}
    {entry : WorkerEntry Rest Handle} (here : manager.place = .signal sweep index)
    (found : manager.workers[index]? = some entry) (host : next.HostSound)
    (workers : next.workers =
      manager.workers.modify index fun entry => { entry with stopping := true })
    (world : next.world = signalStop manager.world entry.handle)
    (place : next.place = .signal sweep (index + 1)) : ThreadSound next := by
  have outside : manager.place.isReaping = false := by rw [here]; rfl
  have later : Later manager.world (signalStop manager.world entry.handle) :=
    later_modify _ _ fun _ => rfl
  refine ⟨host, fun other member => ?_, ?_⟩
  · rw [workers] at member
    rw [world]
    obtain ⟨there, inside⟩ := List.mem_iff_getElem?.mp member
    by_cases same : index = there
    · subst same
      rw [List.getElem?_modify_eq, found] at inside
      cases inside
      have known := sound.entries entry (List.mem_of_getElem? found)
      rw [outside] at known
      have after := (known.later later).outside next.place.isReaping
      exact ⟨after.known, fun _ => isRunning_signalStop manager.world entry.handle, after.joinable⟩
    · rw [List.getElem?_modify_ne _ _ same] at inside
      have known := sound.entries other (List.mem_of_getElem? inside)
      rw [outside] at known
      exact (known.later later).outside _
  · unfold PlaceAimed
    rw [place]
    trivial

/-- What a pass of `reap` finds: the end of the workers, one that runs or has been joined, or one
that it joins. -/
theorem reap_cases {world : Threads} {handles : List Handle} {passes : Nat}
    {pass : ReapPass Handle Threads} (reaped : reap world handles passes = some pass) :
    pass.world = world ∧
      (pass.again = false ∧ pass.change = none ∨ pass.again = true ∧ pass.change = none ∨
        ∃ h, handles[passes]? = some h ∧ isRunning world h = false ∧ pass.again = true ∧
          pass.change = some (passes, { h with joinable := false })) := by
  unfold reap at reaped
  split at reaped
  · cases reaped
    exact ⟨rfl, Or.inl ⟨rfl, rfl⟩⟩
  · rename_i h found
    split at reaped
    · rename_i stopped
      obtain ⟨joined, ended, rfl⟩ := Option.map_eq_some_iff.mp reaped
      unfold join at ended
      split at ended
      · cases ended
        have notRunning : isRunning world h = false := by
          have flag := (Bool.and_eq_true_iff.mp stopped).1
          cases running : isRunning world h with
          | false => rfl
          | true =>
            rw [running] at flag
            cases flag
        exact ⟨rfl, Or.inr (Or.inr ⟨h, found, notRunning, rfl, rfl⟩)⟩
      · cases ended
    · cases reaped
      exact ⟨rfl, Or.inr (Or.inl ⟨rfl, rfl⟩)⟩

/-- The entries after a pass of `reap`. -/
theorem ThreadSound.takePass {passes : Nat} {pass : ReapPass Handle Threads}
    (sound : ThreadSound manager) (here : manager.place = .reaping passes)
    (reaped : reap manager.world (manager.workers.map (·.handle)) passes = some pass) :
    ∀ entry ∈ (manager.takePass pass).workers,
      EntrySound (manager.takePass pass).world true entry := by
  have reaping : manager.place.isReaping = true := by rw [here]; rfl
  have known := sound.entries
  rw [reaping] at known
  obtain ⟨world, change⟩ := reap_cases reaped
  have still (none : pass.change = none) : ∀ entry ∈ (manager.takePass pass).workers,
      EntrySound (manager.takePass pass).world true entry := by
    unfold ProcessManager.takePass
    rw [none, world]
    exact known
  obtain ⟨_, none⟩ | ⟨_, none⟩ | ⟨h, found, stopped, _, joined⟩ := change
  · exact still none
  · exact still none
  · unfold ProcessManager.takePass
    rw [joined, world]
    intro other member
    obtain ⟨there, inside⟩ := List.mem_iff_getElem?.mp member
    have inside : (manager.workers.modify passes _)[there]? = some other := inside
    by_cases same : passes = there
    · subst same
      rw [List.getElem?_modify_eq] at inside
      obtain ⟨entry, before, rfl⟩ := Option.map_eq_some_iff.mp inside
      rw [List.getElem?_map, before] at found
      cases found
      have was := known entry (List.mem_of_getElem? before)
      exact ⟨was.known, fun _ => stopped, Or.inr ⟨rfl, stopped⟩⟩
    · rw [List.getElem?_modify_ne _ _ same] at inside
      exact known other (List.mem_of_getElem? inside)

/-- Every step keeps what is known of the worker threads. -/
theorem ThreadSound.moves (sound : ThreadSound manager)
    (moves : ProcessManager.Moves threadPolicy manager next) : ThreadSound next := by
  have host := sound.host.moves moves
  cases moves with
  | @event thread world happened =>
    have later : Later manager.world world := by
      obtain ⟨found, _, ended⟩ := Option.bind_eq_some_iff.mp happened
      split at ended
      · cases ended
      · cases ended
        exact later_modify _ _ fun _ => rfl
    exact sound.moved host rfl later id sound.aimed
  | start here =>
    exact sound.moved host rfl (later_self _)
      (fun was => by simp [here, MasterPlace.isReaping] at was)
      trivial
  | reload here returned =>
    exact sound.moved host rfl (later_self _)
      (fun was => by simp [here, MasterPlace.isReaping] at was)
      trivial
  | goes goes =>
    refine sound.moved host rfl (later_self _) (fun was => ?_) (sound.aimed.of_goes goes)
    rw [isReaping_of_goes goes] at was
    cases was
  | spawn here more spawned =>
    cases spawned
    exact sound.spawned here host rfl rfl rfl rfl rfl
  | signal here found mine => exact sound.signalled here found host rfl rfl rfl
  | @poll sweep index entry here found =>
    obtain ⟨same, mine⟩ := sound.asked (Or.inl here) found
      (ProcessManager.afterPoll sweep index)
    rw [same] at host ⊢
    refine sound.moved host rfl (later_self _)
      (fun was => by simp [here, MasterPlace.isReaping] at was) ?_
    cases sweep with
    | all => trivial
    | old reload => exact ⟨entry, found, mine reload rfl⟩
  | @check sweep index entry here found =>
    obtain ⟨same, mine⟩ := sound.asked (Or.inr here) found
      fun alive => if alive then .forceKill sweep index else sweep.next index
    rw [same] at host ⊢
    refine sound.moved host rfl (later_self _)
      (fun was => by simp [here, MasterPlace.isReaping] at was) ?_
    cases sweep <;> trivial
  | forceKill here _ | forceWait here _ _ =>
    have aimed := sound.aimed
    unfold PlaceAimed at aimed
    rw [here] at aimed
    exact aimed.elim
  | @erase sweep here =>
    obtain ⟨workers, _, world, place⟩ := manager.erase_spec threadPolicy sweep
    have outside : manager.place.isReaping = false := by rw [here]; rfl
    refine ⟨host, fun entry member => ?_, ?_⟩
    · rw [workers] at member
      have known := sound.entries entry (List.mem_filter.mp member).1
      rw [outside] at known
      rw [world]
      exact known.outside _
    · unfold PlaceAimed
      obtain place | place | place := place <;> rw [place] <;> trivial
  | @reapMore passes answer pass here reaped again =>
    exact ⟨host, sound.takePass here reaped, trivial⟩
  | @reapEnd passes answer pass here reaped done =>
    refine ⟨host, fun entry member => ?_, ?_⟩
    · obtain ⟨inside, stays⟩ := List.mem_filter.mp member
      have known := sound.takePass here reaped entry inside
      refine ⟨known.known, known.stopped, Or.inl ?_⟩
      obtain joinable | ⟨_, stopped⟩ := known.joinable
      · exact joinable
      · have left : (!(!isRunning (manager.takePass pass).world entry.handle &&
            !entry.handle.joinable)) = true := stays
        rw [stopped] at left
        cases joinable : entry.handle.joinable with
        | true => rfl
        | false =>
          rw [joinable] at left
          cases left
    · unfold PlaceAimed
      obtain place | place := (manager.takePass pass).place_remove threadPolicy.terminates
        (fun entry => threadPolicy.isGone (manager.takePass pass).world entry.handle) .emptyTest
      · rw [place]
        trivial
      · rw [place]
        trivial

/-! ### Removals -/

/-- A step that is not the end of a sweep removes no joinable thread. -/
theorem noneJoinable_moves (none : NoneJoinable manager)
    (moves : ProcessManager.Moves threadPolicy manager next)
    (elsewhere : ∀ sweep, manager.place ≠ .erase sweep) : NoneJoinable next := by
  cases moves with
  | event | start | reload | goes | spawn | signal | forceKill => exact none
  | poll | check | forceWait => exact none
  | erase here => exact absurd here (elsewhere _)
  | @reapMore _ _ pass =>
    unfold NoneJoinable ProcessManager.takePass
    split <;> exact none
  | @reapEnd _ _ pass =>
    have removed : (manager.takePass pass).removed = manager.removed := by
      unfold ProcessManager.takePass
      split <;> rfl
    intro h member
    obtain former | gone := List.mem_append.mp member
    · exact none h (removed ▸ former)
    · obtain ⟨entry, inside, rfl⟩ := List.mem_map.mp gone
      have isGone : (!isRunning (manager.takePass pass).world entry.handle &&
          !entry.handle.joinable) = true := (List.mem_filter.mp inside).2
      cases joinable : entry.handle.joinable with
      | false => rfl
      | true =>
        rw [joinable, Bool.not_true, Bool.and_false] at isGone
        cases isGone

/-- The end of a sweep removes joinable threads, unless it finds no entry to remove. -/
theorem noneJoinable_erase_iff (sound : ThreadSound manager) (none : NoneJoinable manager)
    {sweep : Sweep Rest} (here : manager.place = .erase sweep) :
    NoneJoinable (manager.erase threadPolicy sweep) ↔
      ∀ entry ∈ manager.workers, entry.isSwept manager.currentGeneration sweep = false := by
  obtain ⟨_, removed, _⟩ := manager.erase_spec threadPolicy sweep
  have joinable : ∀ entry ∈ manager.workers, entry.handle.joinable = true := by
    intro entry member
    have known := (sound.entries entry member).joinable
    rw [here] at known
    exact known.resolve_right fun both => by cases both.1
  unfold NoneJoinable
  rw [removed]
  constructor
  · intro still entry member
    by_contra swept
    have gone : entry ∈ manager.workers.filter (·.isSwept manager.currentGeneration sweep) :=
      List.mem_filter.mpr ⟨member, (Bool.not_eq_false _).mp swept⟩
    have wrong := still _ (List.mem_append_right _ (List.mem_map_of_mem gone))
    rw [joinable entry member] at wrong
    cases wrong
  · intro keeps h member
    obtain former | gone := List.mem_append.mp member
    · exact none h former
    · obtain ⟨entry, inside, rfl⟩ := List.mem_map.mp gone
      obtain ⟨member, swept⟩ := List.mem_filter.mp inside
      rw [keeps entry member] at swept
      cases swept

theorem noneJoinable_step_iff {action : MasterAction Rest Unit Nat} (sound : ThreadSound manager)
    (none : NoneJoinable manager) (taken : manager.step threadPolicy action = some next) :
    NoneJoinable next ↔ StopsNone manager action := by
  by_cases ends : ∃ sweep, manager.place = .erase sweep
  · obtain ⟨sweep, here⟩ := ends
    cases action with
    | event event =>
      obtain ⟨world, _, rfl⟩ := Option.map_eq_some_iff.mp taken
      exact iff_of_true none rfl
    | testShutdown requested | testReload requested | clock expired =>
      rw [ProcessManager.step, here] at taken
      cases taken
    | advance answer =>
      change manager.advance threadPolicy answer = some next at taken
      unfold ProcessManager.advance at taken
      rw [here] at taken
      cases taken
      rw [noneJoinable_erase_iff sound none here]
      unfold StopsNone stopsNone
      rw [here]
      cases sweep with
      | all =>
        show _ ↔ manager.workers.isEmpty = true
        rw [List.isEmpty_iff]
        constructor
        · intro keeps
          refine List.eq_nil_iff_forall_not_mem.mpr fun entry member => ?_
          cases keeps entry member
        · intro none entry member
          rw [none] at member
          cases member
      | old reload =>
        refine iff_of_false (fun keeps => ?_) fun wrong => by cases wrong
        obtain ⟨⟨coexist, _⟩, _⟩ := sound.host.at here
        obtain ⟨tag, member, old⟩ := coexist.old
        obtain ⟨entry, inside, rfl⟩ := List.mem_map.mp member
        have current := keeps entry inside
        exact old (of_decide_eq_false current |> Decidable.not_not.mp)
  · have elsewhere : ∀ sweep, manager.place ≠ .erase sweep := fun sweep here => ends ⟨sweep, here⟩
    refine iff_of_true
      (noneJoinable_moves none (ProcessManager.step_moves taken) elsewhere) ?_
    unfold StopsNone stopsNone
    split
    · split
      · rename_i here
        exact absurd here (elsewhere _)
      · rename_i here
        exact absurd here (elsewhere _)
      · rfl
    · rfl

end Steps

theorem threadSound_new (config : WorkerConfig Rest) (hardware : Nat) :
    ThreadSound { config, hardware, world := [] } :=
  ⟨ProcessManager.hostSound_new config hardware [], fun _ member => by (cases member), trivial⟩

/-- In a run no entry is removed while its thread is joinable, if and only if no reload comes to its
end and the shutdown finds no workers, since all have exited by themselves. -/
theorem noneJoinable_throughout_iff {config : WorkerConfig Rest} {hardware : Nat}
    {actions : List (MasterAction Rest Unit Nat)} {final : ThreadManager Rest}
    (run : after (ProcessManager.step threadPolicy) { config, hardware, world := [] } actions =
      some final) :
    (∀ front manager, front <+: actions →
        after (ProcessManager.step threadPolicy) { config, hardware, world := [] } front =
          some manager → NoneJoinable manager) ↔
      Heeds (ProcessManager.step threadPolicy) StopsNone { config, hardware, world := [] }
        actions := by
  have soundStep (manager : ThreadManager Rest) (action : MasterAction Rest Unit Nat)
      (next : ThreadManager Rest) (sound : ThreadSound manager)
      (taken : manager.step threadPolicy action = some next) : ThreadSound next :=
    sound.moves (ProcessManager.step_moves taken)
  have exactStep (manager : ThreadManager Rest) (action : MasterAction Rest Unit Nat)
      (next : ThreadManager Rest) (sound : ThreadSound manager) (none : NoneJoinable manager)
      (taken : manager.step threadPolicy action = some next) :
      NoneJoinable next ↔ StopsNone manager action := noneJoinable_step_iff sound none taken
  exact forall_front_iff_heeds soundStep exactStep (threadSound_new config hardware)
    (fun _ member => by cases member) run

/-- The only worker returns, is reaped, and the master comes to its end. -/
def exitRun : List (MasterAction Unit Unit Nat) :=
  [.advance (), .advance (), .advance (), .event 0, .testShutdown false, .testReload none,
    .advance (), .advance (), .advance (), .advance (), .clock false, .advance (), .advance (),
    .advance ()]

theorem noneJoinable_throughout_exit :
    let start : ThreadManager Unit := { config := ⟨1, 5, ()⟩, hardware := 8, world := [] }
    (after (ProcessManager.step threadPolicy) start exitRun).map (·.place) = some .finished ∧
      ∀ front manager, front <+: exitRun →
        after (ProcessManager.step threadPolicy) start front = some manager →
          NoneJoinable manager :=
  ⟨rfl, (noneJoinable_throughout_iff rfl).mpr (by decide)⟩

/-- The shutdown of a master with one worker, which returns when it is told to stop: its entry is
removed while its thread is joinable, and the process is terminated. -/
theorem not_noneJoinable_shutdown :
    ∃ manager : ThreadManager Unit, after (ProcessManager.step threadPolicy)
        { config := ⟨1, 5, ()⟩, hardware := 8, world := [] }
        [.advance (), .advance (), .advance (), .testShutdown true, .advance (), .advance (),
          .event 0, .clock false, .advance (), .advance (), .advance (), .advance (),
          .advance ()] = some manager ∧
      manager.removed = [{ thread := 0, joinable := true }] ∧ manager.place = .terminated ∧
      ¬ NoneJoinable manager := by
  refine ⟨_, rfl, rfl, rfl, fun none => ?_⟩
  have joinable := none { thread := 0, joinable := true } List.mem_cons_self
  cases joinable

end AsyncNet.Executor
