/-
This file is about what a reload of `process_manager` changes, under any policy. New workers are
spawned before the old ones are stopped, and when these have been removed there are as many as the
new configuration asks for, all of the new generation. But the master reads `config_`, to which it
carries over nothing but the number of workers, and that only at the end. So the workers are spawned
with the former configuration, and the other fields of the new one are lost.

What is known of the entries at a place of the master does not depend on their handles. It is stated
for their tags, which the policy cannot change.
-/

import AsyncNet.Executor.WorkerPolicies
import Mathlib.Data.List.Basic

namespace AsyncNet.Executor

open Library

variable {Rest Handle World Answer Event : Type}

/-! ### The property -/

/-- After a reload all workers are of the current generation, there are as many as the configuration
asks for, they have been spawned with it, and it is what the master reads from now on. -/
structure TakesEffect (next : ProcessManager Rest Handle World) (config : WorkerConfig Rest) :
    Prop where
  current : ∀ entry ∈ next.workers, entry.generation = next.currentGeneration
  number : next.workers.length = config.numWorkers
  spawned : ∀ entry ∈ next.workers, entry.config = config
  kept : next.config = config

/-! ### Tags -/

section Tags

variable (tags : List (WorkerTag Rest)) (generation : Nat) (config : WorkerConfig Rest)

/-- All workers are of the current generation. -/
def Settled : Prop := ∀ tag ∈ tags, tag.generation = generation

/-- During a reload there are old workers, and a number of new ones that have been spawned with
`config_`. -/
structure Coexist (count : Nat) : Prop where
  number : (tags.filter (·.generation = generation)).length = count
  spawned : ∀ tag ∈ tags, tag.generation = generation → tag.config = config
  old : ∃ tag ∈ tags, tag.generation ≠ generation

/-- What holds throughout a sweep. A reload does not touch `config_` before its end. -/
def SweepSound : Sweep Rest → Prop
  | .old reload =>
      Coexist tags generation config reload.newConfig.numWorkers ∧
        0 < reload.newConfig.numWorkers ∧ reload.newConfig = newConfig config reload.returned
  | .all => True

/-- The workers of a sweep have been told to stop, as far as an index. -/
def Signalled (sweep : Sweep Rest) (index : Nat) : Prop :=
  ∀ place < index, ∀ tag, tags[place]? = some tag → tag.isSwept generation sweep = true →
    tag.stopping = true

/-- All workers of a sweep have been told to stop. -/
def AllSignalled (sweep : Sweep Rest) : Prop :=
  ∀ tag ∈ tags, tag.isSwept generation sweep = true → tag.stopping = true

/-- What is known of the workers at a place of the master. -/
def PlaceSound : MasterPlace Rest → Prop
  | .ready => tags = []
  | .spawning i count none =>
      Settled tags generation ∧ tags.length = i ∧ i ≤ count ∧ 0 < count
  | .spawning i count (some reload) =>
      Coexist tags generation config i ∧ i ≤ count ∧ 0 < count ∧
        count = reload.newConfig.numWorkers ∧ reload.newConfig = newConfig config reload.returned
  | .shutdownTest | .reloadTest => Settled tags generation ∧ tags ≠ []
  | .signal sweep index =>
      SweepSound tags generation config sweep ∧ Signalled tags generation sweep index
  | .wait sweep _ | .poll sweep _ | .check sweep _ | .forceKill sweep _ | .forceWait sweep _
  | .erase sweep => SweepSound tags generation config sweep ∧ AllSignalled tags generation sweep
  | .reaping _ | .emptyTest => Settled tags generation
  | .finished | .terminated => True

end Tags

section Updates

variable {tags more : List (WorkerTag Rest)} {generation : Nat} {config : WorkerConfig Rest}

theorem Settled.sublist (settled : Settled tags generation) (fewer : more.Sublist tags) :
    Settled more generation := fun tag member => settled tag (fewer.subset member)

/-- The worker that has just been spawned. -/
def spawnedTag (generation : Nat) (config : WorkerConfig Rest) : WorkerTag Rest :=
  { generation, config }

theorem Settled.spawn (settled : Settled tags generation) (config : WorkerConfig Rest) :
    Settled (tags ++ [spawnedTag generation config]) generation := by
  intro tag member
  obtain former | last := List.mem_append.mp member
  · exact settled tag former
  · rw [List.mem_singleton.mp last]
    rfl

theorem Coexist.spawn {count : Nat} (coexist : Coexist tags generation config count) :
    Coexist (tags ++ [spawnedTag generation config]) generation config (count + 1) := by
  constructor
  · have last : [spawnedTag generation config].filter (·.generation = generation) =
        [spawnedTag generation config] := List.filter_cons_of_pos (by simp [spawnedTag])
    rw [List.filter_append, List.length_append, coexist.number, last]
    rfl
  · intro tag member current
    obtain former | last := List.mem_append.mp member
    · exact coexist.spawned tag former current
    · rw [List.mem_singleton.mp last]
      rfl
  · obtain ⟨tag, member, old⟩ := coexist.old
    exact ⟨tag, List.mem_append_left _ member, old⟩

/-- A reload begins: the workers that there are become old ones. -/
theorem Settled.coexist (settled : Settled tags generation) (some : tags ≠ [])
    {next : Nat} (differs : next ≠ generation) : Coexist tags next config 0 := by
  have old : ∀ tag ∈ tags, tag.generation ≠ next := fun tag member same =>
    differs (same.symm.trans (settled tag member))
  constructor
  · rw [List.length_eq_zero_iff, List.filter_eq_nil_iff]
    intro tag member current
    exact old tag member (of_decide_eq_true current)
  · exact fun tag member current => absurd current (old tag member)
  · obtain ⟨tag, member⟩ := List.exists_mem_of_ne_nil tags some
    exact ⟨tag, member, old tag member⟩

/-- A worker is told to stop. -/
def stopTag (tag : WorkerTag Rest) : WorkerTag Rest := { tag with stopping := true }

theorem mem_modify_stopTag {index : Nat} {tag : WorkerTag Rest}
    (member : tag ∈ tags.modify index stopTag) : tag ∈ tags ∨ ∃ old ∈ tags, tag = stopTag old := by
  obtain ⟨place, found⟩ := List.mem_iff_getElem?.mp member
  rw [List.getElem?_modify] at found
  obtain ⟨old, before, rfl⟩ := Option.map_eq_some_iff.mp found
  have isOld := List.mem_of_getElem? before
  split
  · exact Or.inr ⟨old, isOld, rfl⟩
  · exact Or.inl isOld

theorem filter_modify_stopTag (tags : List (WorkerTag Rest)) (index generation : Nat) :
    ((tags.modify index stopTag).filter (·.generation = generation)).length =
      (tags.filter (·.generation = generation)).length := by
  induction tags generalizing index with
  | nil => rw [List.modify_nil]
  | cons tag tags inductionHypothesis =>
    cases index with
    | zero =>
      rw [List.modify_zero_cons, List.filter_cons, List.filter_cons]
      show (if decide (tag.generation = generation) = true then _ else _ : List _).length = _
      split <;> rfl
    | succ index =>
      rw [List.modify_succ_cons, List.filter_cons, List.filter_cons]
      split
      · rw [List.length_cons, List.length_cons, inductionHypothesis]
      · exact inductionHypothesis index

theorem Coexist.stop {count : Nat} (coexist : Coexist tags generation config count) (index : Nat) :
    Coexist (tags.modify index stopTag) generation config count := by
  constructor
  · rw [filter_modify_stopTag]
    exact coexist.number
  · intro tag member current
    obtain former | ⟨old, former, rfl⟩ := mem_modify_stopTag member
    · exact coexist.spawned tag former current
    · exact coexist.spawned old former current
  · obtain ⟨tag, member, old⟩ := coexist.old
    obtain ⟨place, found⟩ := List.mem_iff_getElem?.mp member
    have after : (tags.modify index stopTag)[place]? = some (if index = place then stopTag tag
        else tag) := by
      rw [List.getElem?_modify, found]
      rfl
    refine ⟨_, List.mem_of_getElem? after, ?_⟩
    split <;> exact old

theorem SweepSound.stop {sweep : Sweep Rest} (sound : SweepSound tags generation config sweep)
    (index : Nat) : SweepSound (tags.modify index stopTag) generation config sweep := by
  cases sweep with
  | old reload => exact ⟨sound.1.stop index, sound.2⟩
  | all => trivial

/-- The worker at the index is told to stop, unless it need not be. -/
theorem Signalled.stop {sweep : Sweep Rest} {index : Nat}
    (signalled : Signalled tags generation sweep index) :
    Signalled (tags.modify index stopTag) generation sweep (index + 1) := by
  intro place below tag found swept
  rw [List.getElem?_modify] at found
  obtain ⟨old, before, rfl⟩ := Option.map_eq_some_iff.mp found
  by_cases same : index = place
  · rw [if_pos same]
    rfl
  · rw [if_neg same] at swept ⊢
    exact signalled place (by omega) old before swept

theorem Signalled.skip {sweep : Sweep Rest} {index : Nat}
    (signalled : Signalled tags generation sweep index) {tag : WorkerTag Rest}
    (found : tags[index]? = some tag)
    (stops : tag.isSwept generation sweep = true → tag.stopping = true) :
    Signalled tags generation sweep (index + 1) := by
  intro place below other there swept
  by_cases same : place = index
  · subst same
    cases found.symm.trans there
    exact stops swept
  · exact signalled place (by omega) other there swept

theorem Signalled.all {sweep : Sweep Rest} {index : Nat}
    (signalled : Signalled tags generation sweep index) (outside : tags[index]? = none) :
    AllSignalled tags generation sweep := by
  intro tag member swept
  obtain ⟨place, found⟩ := List.mem_iff_getElem?.mp member
  have inside := (List.getElem?_eq_some_iff.mp found).1
  have last := List.getElem?_eq_none_iff.mp outside
  exact signalled place (by omega) tag found swept

end Updates

/-! ### Steps -/

namespace ProcessManager

def tags (manager : ProcessManager Rest Handle World) : List (WorkerTag Rest) :=
  manager.workers.map (·.toWorkerTag)

/-- What is known of the master at every place. -/
structure HostSound (manager : ProcessManager Rest Handle World) : Prop where
  place : PlaceSound manager.tags manager.currentGeneration manager.config manager.place
  generation : manager.currentGeneration < 2 ^ 32
  positive : manager.place = .ready ∨ 0 < manager.config.numWorkers

section Steps

variable {manager next : ProcessManager Rest Handle World}

/-- The handle of an entry is changed. -/
theorem tags_setHandle (manager : ProcessManager Rest Handle World) (index : Nat)
    (handle : Handle) : (manager.setHandle index handle).tags = manager.tags := by
  refine List.ext_getElem? fun place => ?_
  show ((manager.workers.modify index _).map _)[place]? = (manager.workers.map _)[place]?
  rw [List.getElem?_map, List.getElem?_map, List.getElem?_modify]
  cases manager.workers[place]? with
  | none => rfl
  | some entry =>
    show some (if index = place then _ else entry).toWorkerTag = some entry.toWorkerTag
    split <;> rfl

theorem tags_takePass (manager : ProcessManager Rest Handle World) (pass : ReapPass Handle World) :
    (manager.takePass pass).tags = manager.tags := by
  unfold takePass
  split
  · rfl
  · exact manager.tags_setHandle _ _

theorem place_takePass (manager : ProcessManager Rest Handle World) (pass : ReapPass Handle World) :
    (manager.takePass pass).place = manager.place := by
  unfold takePass
  split <;> rfl

/-- Only the place changes, or the world and the handles as well. -/
theorem HostSound.moved (sound : manager.HostSound) (left : manager.place ≠ .ready)
    (tags : next.tags = manager.tags)
    (generation : next.currentGeneration = manager.currentGeneration)
    (config : next.config = manager.config)
    (place : PlaceSound manager.tags manager.currentGeneration manager.config next.place) :
    next.HostSound := by
  refine ⟨?_, generation ▸ sound.generation, Or.inr ?_⟩
  · rw [tags, generation, config]
    exact place
  · rw [config]
    exact sound.positive.resolve_left left

/-- What is known at a place, and that it is not the first. -/
theorem HostSound.at {place : MasterPlace Rest} (sound : manager.HostSound)
    (here : manager.place = place) :
    PlaceSound manager.tags manager.currentGeneration manager.config place := here ▸ sound.place

theorem getElem?_tags (manager : ProcessManager Rest Handle World) (index : Nat) :
    manager.tags[index]? = (manager.workers[index]?).map (·.toWorkerTag) := List.getElem?_map

theorem HostSound.start (sound : manager.HostSound) (here : manager.place = .ready) :
    manager.start.HostSound := by
  have positive : 0 < (resolveConfig manager.hardware manager.config).numWorkers := by
    unfold resolveConfig
    split
    · show 0 < if _ then _ else _
      split <;> omega
    · omega
  have none : manager.tags = [] := sound.at here
  refine ⟨⟨?_, ?_, Nat.zero_le _, positive⟩, ?_, Or.inr positive⟩
  · show Settled manager.tags 1
    rw [none]
    exact fun _ member => by cases member
  · show manager.tags.length = 0
    rw [none]
    rfl
  · exact (by decide : 1 < 2 ^ 32)

theorem HostSound.reload (sound : manager.HostSound) (here : manager.place = .reloadTest)
    (returned : Option (WorkerConfig Rest)) : (manager.testReload (some returned)).HostSound := by
  have positive := sound.positive.resolve_left (by simp [here])
  obtain ⟨settled, some⟩ : Settled manager.tags manager.currentGeneration ∧ manager.tags ≠ [] :=
    sound.at here
  have small := sound.generation
  have differs : (manager.currentGeneration + 1) % 2 ^ 32 ≠ manager.currentGeneration := by omega
  have more : 0 < (newConfig manager.config returned).numWorkers := by
    unfold newConfig
    split
    · exact positive
    · split
      · exact positive
      · omega
  exact ⟨⟨settled.coexist some differs, Nat.zero_le _, more, rfl, rfl⟩,
    Nat.mod_lt _ (by decide), Or.inr positive⟩

theorem HostSound.goes {place : MasterPlace Rest} (sound : manager.HostSound)
    (goes : manager.Goes place) :
    PlaceSound manager.tags manager.currentGeneration manager.config place := by
  cases goes with
  | shutdownTest here requested =>
    have known := sound.at here
    cases requested with
    | false => exact known
    | true => exact ⟨trivial, fun _ below => by cases below⟩
  | noReload here => exact (sound.at here).1
  | running here done =>
    obtain ⟨settled, length, most, some⟩ := sound.at here
    refine ⟨settled, ?_⟩
    rw [← List.length_pos_iff, length]
    omega
  | @reloading i count reload here done =>
    obtain ⟨coexist, most, some, same, new⟩ := sound.at here
    have all : i = reload.newConfig.numWorkers := by omega
    exact ⟨⟨all ▸ coexist, by omega, new⟩, fun _ below => by cases below⟩
  | @signalled _ index here outside =>
    have known := sound.at here
    have last : manager.tags[index]? = none := by rw [getElem?_tags, outside]; rfl
    exact ⟨known.1, known.2.all last⟩
  | @skipped _ index entry here found told =>
    have known := sound.at here
    have there : manager.tags[index]? = some entry.toWorkerTag := by
      rw [getElem?_tags, found]
      rfl
    exact ⟨known.1, known.2.skip there told⟩
  | waitAll here expired =>
    have known := sound.at here
    cases expired <;> exact known
  | waitOld here _ _ expired =>
    have known := sound.at here
    cases expired <;> exact known
  | waited here _ | passed here _ _ | polled here _ | checked here _ =>
    have known := sound.at here
    exact known
  | exited => exact ⟨trivial, fun _ below => by cases below⟩
  | continued here some =>
    exact ⟨sound.at here, fun none => some (List.map_eq_nil_iff.mp none)⟩

theorem HostSound.remove (sound : manager.HostSound) (left : manager.place ≠ .ready)
    (terminates : Handle → Bool) (isRemoved : WorkerEntry Rest Handle → Bool)
    (place : MasterPlace Rest)
    (known : PlaceSound ((manager.workers.filter (!isRemoved ·)).map (·.toWorkerTag))
      manager.currentGeneration manager.config place) :
    (manager.remove terminates isRemoved place).HostSound := by
  refine ⟨?_, sound.generation, Or.inr (sound.positive.resolve_left left)⟩
  unfold ProcessManager.remove
  dsimp only
  split
  · trivial
  · exact known

/-- The entries that a reload leaves. -/
theorem tags_filter_current (manager : ProcessManager Rest Handle World) (reload : Reload Rest) :
    (manager.workers.filter
        (!·.isSwept manager.currentGeneration (.old reload))).map (·.toWorkerTag) =
      manager.tags.filter (·.generation = manager.currentGeneration) := by
  rw [tags, List.filter_map]
  refine congrArg _ (List.filter_congr fun entry _ => ?_)
  show (!decide (entry.generation ≠ _)) = decide (entry.generation = _)
  by_cases current : entry.generation = manager.currentGeneration <;> simp [current]

/-- A worker is spawned. -/
theorem HostSound.spawn {i count : Nat} {reload : Option (Reload Rest)} (sound : manager.HostSound)
    (here : manager.place = .spawning i count reload) (more : i < count)
    (tags : next.tags = manager.tags ++ [spawnedTag manager.currentGeneration manager.config])
    (generation : next.currentGeneration = manager.currentGeneration)
    (config : next.config = manager.config) (place : next.place = .spawning (i + 1) count reload) :
    next.HostSound := by
  have known := sound.at here
  refine ⟨?_, generation ▸ sound.generation, Or.inr ?_⟩
  · rw [tags, generation, config, place]
    cases reload with
    | none =>
      obtain ⟨settled, length, _, some⟩ := known
      refine ⟨settled.spawn manager.config, ?_, more, some⟩
      rw [List.length_append, length]
      rfl
    | some reload =>
      obtain ⟨coexist, _, rest⟩ := known
      exact ⟨coexist.spawn, more, rest⟩
  · rw [config]
    exact sound.positive.resolve_left (by simp [here])

/-- A worker is told to stop. -/
theorem HostSound.signal {sweep : Sweep Rest} {index : Nat} (sound : manager.HostSound)
    (here : manager.place = .signal sweep index)
    (tags : next.tags = manager.tags.modify index stopTag)
    (generation : next.currentGeneration = manager.currentGeneration)
    (config : next.config = manager.config) (place : next.place = .signal sweep (index + 1)) :
    next.HostSound := by
  obtain ⟨swept, signalled⟩ := sound.at here
  refine ⟨?_, generation ▸ sound.generation, Or.inr ?_⟩
  · rw [tags, generation, config, place]
    exact ⟨swept.stop index, signalled.stop⟩
  · rw [config]
    exact sound.positive.resolve_left (by simp [here])

/-- The tags after an entry has been told to stop. -/
theorem tags_modify_stopping (manager : ProcessManager Rest Handle World) (index : Nat) :
    (manager.workers.modify index fun entry => { entry with stopping := true }).map
      (·.toWorkerTag) = manager.tags.modify index stopTag := by
  refine List.ext_getElem? fun place => ?_
  rw [ProcessManager.tags, List.getElem?_map, List.getElem?_modify, List.getElem?_modify,
    List.getElem?_map]
  cases manager.workers[place]? with
  | none => rfl
  | some entry =>
    show some (if index = place then _ else entry).toWorkerTag =
      some (if index = place then stopTag entry.toWorkerTag else entry.toWorkerTag)
    split <;> rfl

variable {policy : WorkerPolicy Handle World Answer Event}

theorem HostSound.erase {sweep : Sweep Rest} (sound : manager.HostSound)
    (here : manager.place = .erase sweep) : (manager.erase policy sweep).HostSound := by
  have left : manager.place ≠ .ready := by simp [here]
  have known := sound.at here
  unfold ProcessManager.erase
  cases sweep with
  | all => exact sound.remove left _ _ _ trivial
  | old reload =>
    obtain ⟨⟨_, some, _⟩, _⟩ := known
    have settled : Settled (manager.tags.filter (·.generation = manager.currentGeneration))
        manager.currentGeneration :=
      fun tag member => of_decide_eq_true (List.mem_filter.mp member).2
    have removed := sound.remove left policy.terminates
      (fun entry => entry.isSwept manager.currentGeneration (.old reload)) (.reaping 0)
      (by
        rw [manager.tags_filter_current reload]
        exact settled)
    dsimp only
    split
    · exact removed
    · rename_i goesOn
      refine ⟨?_, removed.generation, Or.inr some⟩
      have place := removed.place
      unfold ProcessManager.remove at goesOn place ⊢
      dsimp only at goesOn place ⊢
      split
      · trivial
      · rename_i stays
        rw [if_neg stays] at place
        exact place

theorem HostSound.takePass {passes : Nat} (sound : manager.HostSound)
    (here : manager.place = .reaping passes) (pass : ReapPass Handle World) :
    (manager.takePass pass).HostSound ∧
      Settled (manager.takePass pass).tags (manager.takePass pass).currentGeneration := by
  have left : manager.place ≠ .ready := by simp [here]
  have middle : (manager.takePass pass).HostSound := by
    refine sound.moved left (manager.tags_takePass pass) ?_ ?_ ?_
    · unfold ProcessManager.takePass
      split <;> rfl
    · unfold ProcessManager.takePass
      split <;> rfl
    · rw [manager.place_takePass pass]
      exact sound.place
  exact ⟨middle, middle.at ((manager.place_takePass pass).trans here)⟩

/-- Every step keeps what is known of the master. -/
theorem HostSound.moves (sound : manager.HostSound) (moves : Moves policy manager next) :
    next.HostSound := by
  cases moves with
  | event => exact ⟨sound.place, sound.generation, sound.positive⟩
  | start here => exact sound.start here
  | reload here returned => exact sound.reload here returned
  | goes goes =>
    exact sound.moved goes.ne_ready rfl rfl rfl (sound.goes goes)
  | spawn here more =>
    exact sound.spawn here more (List.map_append ..) rfl rfl rfl
  | @signal sweep index entry here found mine =>
    exact sound.signal here (manager.tags_modify_stopping index) rfl rfl rfl
  | @poll sweep index entry here found =>
    have known := sound.at here
    refine sound.moved (by simp [here]) (manager.tags_setHandle index _) rfl rfl ?_
    show PlaceSound _ _ _ (afterPoll sweep index _)
    generalize (policy.isAlive manager.world entry.handle).1 = alive
    cases sweep <;> cases alive <;> exact known
  | @check sweep index entry here found =>
    have known := sound.at here
    refine sound.moved (by simp [here]) (manager.tags_setHandle index _) rfl rfl ?_
    show PlaceSound _ _ _ (if (policy.isAlive manager.world entry.handle).1 then _ else _)
    generalize (policy.isAlive manager.world entry.handle).1 = alive
    cases sweep <;> cases alive <;> exact known
  | forceKill here _ =>
    have known := sound.at here
    exact sound.moved (by simp [here]) rfl rfl rfl known
  | @forceWait sweep index entry handle world here found ended =>
    have known := sound.at here
    refine sound.moved (by simp [here]) (manager.tags_setHandle index handle) rfl rfl ?_
    cases sweep <;> exact known
  | erase here => exact sound.erase here
  | @reapMore passes answer pass here reaped again =>
    obtain ⟨middle, settled⟩ := sound.takePass here pass
    have left : (manager.takePass pass).place ≠ .ready := by simp [place_takePass, here]
    exact middle.moved left rfl rfl rfl settled
  | @reapEnd passes answer pass here reaped done =>
    obtain ⟨middle, settled⟩ := sound.takePass here pass
    have left : (manager.takePass pass).place ≠ .ready := by simp [place_takePass, here]
    exact middle.remove left _ _ _ (settled.sublist (List.filter_sublist.map _))

end Steps

/-! ### Runs -/

theorem hostSound_new (config : WorkerConfig Rest) (hardware : Nat) (world : World) :
    ({ config, hardware, world } : ProcessManager Rest Handle World).HostSound :=
  ⟨rfl, Nat.two_pow_pos 32, Or.inl rfl⟩

theorem hostSound {policy : WorkerPolicy Handle World Answer Event} {config : WorkerConfig Rest}
    {hardware : Nat} {world : World} {actions : List (MasterAction Rest Answer Event)}
    {manager : ProcessManager Rest Handle World}
    (run : after (step policy) { config, hardware, world } actions = some manager) :
    manager.HostSound :=
  after_invariant HostSound (fun _ _ _ sound taken => sound.moves (step_moves taken))
    (hostSound_new config hardware world) run

/-- The end of a reload leaves the workers that have been spawned for it. -/
theorem erase_old (policy : WorkerPolicy Handle World Answer Event)
    (manager : ProcessManager Rest Handle World) (reload : Reload Rest) :
    (manager.erase policy (.old reload)).tags =
        manager.tags.filter (·.generation = manager.currentGeneration) ∧
      (manager.erase policy (.old reload)).currentGeneration = manager.currentGeneration ∧
      ((manager.erase policy (.old reload)).config = manager.config ∨
        (manager.erase policy (.old reload)).config =
          { manager.config with numWorkers := reload.newConfig.numWorkers }) := by
  have left := manager.tags_filter_current reload
  unfold erase
  dsimp only
  split
  · exact ⟨left, rfl, Or.inl rfl⟩
  · exact ⟨left, rfl, Or.inr rfl⟩

/-- In every run a reload ends with as many workers as the new configuration asks for, all of the
current generation. It takes effect if and only if the new configuration is the former one. -/
theorem reload_takesEffect_iff {policy : WorkerPolicy Handle World Answer Event}
    {config : WorkerConfig Rest} {hardware : Nat} {world : World}
    {actions : List (MasterAction Rest Answer Event)}
    {manager next : ProcessManager Rest Handle World} {reload : Reload Rest} {answer : Answer}
    (run : after (step policy) { config, hardware, world } actions = some manager)
    (here : manager.place = .erase (.old reload))
    (taken : manager.step policy (.advance answer) = some next) :
    reload.newConfig = newConfig manager.config reload.returned ∧
      (∀ entry ∈ next.workers, entry.generation = next.currentGeneration) ∧
      next.workers.length = reload.newConfig.numWorkers ∧
      (TakesEffect next reload.newConfig ↔ reload.newConfig = manager.config) := by
  have sound := hostSound run
  obtain ⟨⟨coexist, some, new⟩, _⟩ : SweepSound manager.tags manager.currentGeneration
    manager.config (.old reload) ∧ _ := sound.at here
  change manager.advance policy answer = Option.some next at taken
  unfold advance at taken
  rw [here] at taken
  cases taken
  obtain ⟨tags, generation, kept⟩ := erase_old policy manager reload
  have member {entry : WorkerEntry Rest Handle}
      (inside : entry ∈ (manager.erase policy (.old reload)).workers) :
      entry.toWorkerTag ∈ manager.tags ∧ entry.generation = manager.currentGeneration := by
    have tag := List.mem_map_of_mem (f := (·.toWorkerTag)) inside
    rw [show List.map _ _ = _ from tags, List.mem_filter] at tag
    exact ⟨tag.1, of_decide_eq_true tag.2⟩
  have current : ∀ entry ∈ (manager.erase policy (.old reload)).workers,
      entry.generation = (manager.erase policy (.old reload)).currentGeneration :=
    fun entry inside => (member inside).2.trans generation.symm
  have number : (manager.erase policy (.old reload)).workers.length =
      reload.newConfig.numWorkers := by
    rw [← coexist.number, ← tags, ProcessManager.tags, List.length_map]
  have spawned : ∀ entry ∈ (manager.erase policy (.old reload)).workers,
      entry.config = manager.config :=
    fun entry inside => coexist.spawned _ (member inside).1 (member inside).2
  refine ⟨new, current, number, ?_⟩
  constructor
  · intro takes
    have nonempty : (manager.erase policy (.old reload)).workers ≠ [] := by
      rw [← List.length_pos_iff, number]
      exact some
    obtain ⟨entry, inside⟩ := List.exists_mem_of_ne_nil _ nonempty
    exact (takes.spawned entry inside).symm.trans (spawned entry inside)
  · intro same
    refine ⟨current, number, fun entry inside => (spawned entry inside).trans same.symm, ?_⟩
    obtain unchanged | changed := kept
    · exact unchanged.trans same.symm
    · rw [changed, same]

/-- A master with one forked worker reloads, up to where the old worker is removed, which exits when
it is told to stop. -/
def reloadRun (returned : WorkerConfig Unit) : List (MasterAction Unit (Option Nat) Nat) :=
  [.advance none, .advance (some 100), .advance none, .testShutdown false,
    .testReload (some (some returned)), .advance (some 101), .advance none, .advance none,
    .advance none, .advance none, .event 0, .clock false, .advance none, .advance none,
    .clock false, .clock false]

/-- The master at the end of that run. -/
def reloading (returned : WorkerConfig Unit) :
    ProcessManager Unit Fork.Handle Fork.Processes where
  config := ⟨1, 5, ()⟩
  hardware := 8
  world := ⟨[⟨100, .reaped⟩, ⟨101, .running⟩], [(100, some 0)]⟩
  workers := [⟨⟨1, true, ⟨1, 5, ()⟩⟩, ⟨0, some 0⟩, 0⟩, ⟨⟨2, false, ⟨1, 5, ()⟩⟩, ⟨101, some 1⟩, 0⟩]
  currentGeneration := 2
  place := .erase (.old ⟨some returned, newConfig ⟨1, 5, ()⟩ (some returned)⟩)

/-- The configuration is returned as it was, with the number of workers left open. -/
theorem reload_takesEffect_same :
    after (step forkPolicy) { config := ⟨1, 5, ()⟩, hardware := 8, world := {} }
        (reloadRun ⟨0, 5, ()⟩) = some (reloading ⟨0, 5, ()⟩) ∧
      TakesEffect ((reloading ⟨0, 5, ()⟩).erase forkPolicy
        (.old ⟨some ⟨0, 5, ()⟩, ⟨1, 5, ()⟩⟩)) ⟨1, 5, ()⟩ := by
  have run : after (step forkPolicy) { config := ⟨1, 5, ()⟩, hardware := 8, world := {} }
      (reloadRun ⟨0, 5, ()⟩) = some (reloading ⟨0, 5, ()⟩) := rfl
  have step : (reloading ⟨0, 5, ()⟩).step forkPolicy (.advance none) =
      some ((reloading ⟨0, 5, ()⟩).erase forkPolicy
        (.old ⟨some ⟨0, 5, ()⟩, ⟨1, 5, ()⟩⟩)) := rfl
  exact ⟨run, (reload_takesEffect_iff run rfl step).2.2.2.mpr rfl⟩

/-- A longer timeout is returned: the worker is spawned with the former one, and the master keeps
it. -/
theorem not_takesEffect_timeout :
    let next := (reloading ⟨1, 30, ()⟩).erase forkPolicy
      (.old ⟨some ⟨1, 30, ()⟩, ⟨1, 30, ()⟩⟩)
    after (step forkPolicy) { config := ⟨1, 5, ()⟩, hardware := 8, world := {} }
        (reloadRun ⟨1, 30, ()⟩) = some (reloading ⟨1, 30, ()⟩) ∧
      (reloading ⟨1, 30, ()⟩).step forkPolicy (.advance none) = some next ∧
      next.workers.map (·.config.gracefulTimeout) = [5] ∧ next.config.gracefulTimeout = 5 ∧
      ¬ TakesEffect next ⟨1, 30, ()⟩ := by
  intro next
  have timeout : next.config.gracefulTimeout = 5 := rfl
  refine ⟨rfl, rfl, rfl, timeout, fun takes => ?_⟩
  rw [takes.kept] at timeout
  cases timeout

end ProcessManager

end AsyncNet.Executor
