/-
This file is about the forked workers under `ForkPolicy`. A child is reaped in three ways, and each
clears the pid of its entry, so that a pid in an entry is that of a child which has not been reaped.
No two entries have the same child, and no two children that have not been reaped have the same pid,
so the search of `reap` for the pid of a child finds its own entry. From this it follows that every
signal goes to a child of the master, and that an entry without a pid, and no other is ever removed,
is one whose child has been reaped.
-/

import AsyncNet.Executor.Reloads

namespace AsyncNet.Executor

open Library

variable {Rest : Type}

/-- The master with forked workers. -/
abbrev ForkManager (Rest : Type) := ProcessManager Rest Fork.Handle Fork.Processes

namespace Fork

/-! ### Children -/

namespace Processes

/-- A child that has not been reaped, with its pid. -/
def Unreaped (world : Processes) (child pid : Nat) : Prop :=
  ∃ found, world.children[child]? = some found ∧ found.pid = pid ∧ found.status ≠ .reaped

/-- A child that has been reaped. -/
def Reaped (world : Processes) (child : Nat) : Prop :=
  ∃ found, world.children[child]? = some found ∧ found.status = .reaped

/-- Children that have not been reaped have different pids, none of them zero, and every signal has
gone to one that had not. -/
structure Sound (world : Processes) : Prop where
  distinct : ∀ first second pid, world.Unreaped first pid → world.Unreaped second pid →
    first = second
  positive : ∀ child pid, world.Unreaped child pid → pid ≠ 0
  signals : ∀ signal ∈ world.signals, signal.2 ≠ none

/-- What happens to the children that there are: none is reaped but one, if any, and what has been
reaped stays so. -/
structure Evolves (reaped : Option Nat) (world next : Processes) : Prop where
  unreaped : ∀ child pid, reaped ≠ some child → world.Unreaped child pid → next.Unreaped child pid
  reaped : ∀ child, world.Reaped child → next.Reaped child

variable {world next : Processes}

theorem unreaped_of_find {pid child : Nat} (found : world.find pid = some child) :
    world.Unreaped child pid := by
  obtain ⟨inside, holds, _⟩ := List.findIdx?_eq_some_iff_getElem.mp found
  have both := of_decide_eq_true holds
  exact ⟨_, List.getElem?_eq_getElem inside, both.1, both.2⟩

theorem Sound.find (sound : world.Sound) {pid child : Nat} (unreaped : world.Unreaped child pid) :
    world.find pid = some child := by
  cases search : world.find pid with
  | some other => rw [sound.distinct other child pid (unreaped_of_find search) unreaped]
  | none =>
    obtain ⟨found, inside, same, alive⟩ := unreaped
    have not := List.findIdx?_eq_none_iff.mp search found (List.mem_of_getElem? inside)
    exact absurd ⟨same, alive⟩ (of_decide_eq_false not)

theorem not_reaped_of_unreaped {child pid : Nat} (unreaped : world.Unreaped child pid) :
    ¬ world.Reaped child := by
  rintro ⟨other, there, reaped⟩
  obtain ⟨found, inside, _, alive⟩ := unreaped
  cases inside.symm.trans there
  exact alive reaped

theorem unreaped_unique {child pid other : Nat} (one : world.Unreaped child pid)
    (two : world.Unreaped child other) : pid = other := by
  obtain ⟨found, inside, rfl, _⟩ := one
  obtain ⟨again, there, rfl, _⟩ := two
  cases inside.symm.trans there
  rfl

theorem evolves_self (world : Processes) : Evolves none world world :=
  ⟨fun _ _ _ unreaped => unreaped, fun _ gone => gone⟩

/-- A child changes, without getting another pid or coming back. -/
theorem Sound.modify (sound : world.Sound) {child : Nat} {change : Child → Child}
    (children : next.children = world.children.modify child change)
    (signals : next.signals = world.signals) (pid : ∀ found, (change found).pid = found.pid)
    (stays : ∀ found, world.children[child]? = some found → found.status = .reaped →
      (change found).status = .reaped) : next.Sound := by
  have before {other number : Nat} (unreaped : next.Unreaped other number) :
      world.Unreaped other number := by
    obtain ⟨found, inside, same, alive⟩ := unreaped
    rw [children] at inside
    by_cases here : child = other
    · subst here
      rw [List.getElem?_modify_eq] at inside
      obtain ⟨old, there, rfl⟩ := Option.map_eq_some_iff.mp inside
      exact ⟨old, there, (pid old).symm.trans same, fun gone => alive (stays old there gone)⟩
    · rw [List.getElem?_modify_ne _ _ here] at inside
      exact ⟨found, inside, same, alive⟩
  refine ⟨fun first second number one two => ?_, fun other number unreaped => ?_, ?_⟩
  · exact sound.distinct first second number (before one) (before two)
  · exact sound.positive other number (before unreaped)
  · rw [signals]
    exact sound.signals

theorem evolves_modify {child : Nat} {change : Child → Child} {reaped : Option Nat}
    (children : next.children = world.children.modify child change)
    (pid : ∀ found, (change found).pid = found.pid)
    (stays : ∀ found, world.children[child]? = some found → found.status = .reaped →
      (change found).status = .reaped)
    (alive : reaped ≠ some child → ∀ found, found.status ≠ .reaped →
      (change found).status ≠ .reaped) : Evolves reaped world next := by
  constructor
  · rintro other number differs ⟨found, inside, same, unreaped⟩
    by_cases here : child = other
    · subst here
      refine ⟨change found, ?_, (pid found).trans same, alive differs found unreaped⟩
      rw [children, List.getElem?_modify_eq, inside]
      rfl
    · refine ⟨found, ?_, same, unreaped⟩
      rw [children, List.getElem?_modify_ne _ _ here]
      exact inside
  · rintro other ⟨found, inside, gone⟩
    by_cases here : child = other
    · subst here
      refine ⟨change found, ?_, stays found inside gone⟩
      rw [children, List.getElem?_modify_eq, inside]
      rfl
    · refine ⟨found, ?_, gone⟩
      rw [children, List.getElem?_modify_ne _ _ here]
      exact inside

/-! ### Steps of the children -/

theorem Sound.reaped (sound : world.Sound) (child : Nat) : (world.reaped child).Sound :=
  sound.modify rfl rfl (fun _ => rfl) fun _ _ _ => rfl

theorem evolves_reaped (world : Processes) (child : Nat) :
    Evolves (some child) world (world.reaped child) :=
  evolves_modify rfl (fun _ => rfl) (fun _ _ _ => rfl) fun differs => absurd rfl differs

theorem reaped_reaped {child pid : Nat} (unreaped : world.Unreaped child pid) :
    (world.reaped child).Reaped child := by
  obtain ⟨found, inside, _⟩ := unreaped
  refine ⟨{ found with status := .reaped }, ?_, rfl⟩
  show (world.children.modify child _)[child]? = _
  rw [List.getElem?_modify_eq, inside]
  rfl

theorem exits_spec {child : Nat} (sound : world.Sound) (exited : exits world child = some next) :
    next.Sound ∧ Evolves none world next := by
  obtain ⟨found, inside, exited⟩ := Option.bind_eq_some_iff.mp exited
  split at exited
  · rename_i running
    cases exited
    have runs (other : Child) (there : world.children[child]? = some other)
        (gone : other.status = .reaped) : ChildStatus.exited = .reaped := by
      cases inside.symm.trans there
      rw [running] at gone
      cases gone
    refine ⟨sound.modify rfl rfl (fun _ => rfl) runs, ?_⟩
    exact evolves_modify rfl (fun _ => rfl) runs fun _ _ _ wrong => by cases wrong
  · cases exited

/-- A signal to the pid of a child that has not been reaped. -/
theorem Sound.signal (sound : world.Sound) {h : Handle}
    (owned : h.pid ≠ 0 → ∃ child, world.Unreaped child h.pid) :
    (signal world h).Sound ∧ Evolves none world (signal world h) := by
  unfold Fork.signal
  split
  · rename_i some
    obtain ⟨child, unreaped⟩ := owned some
    refine ⟨⟨sound.distinct, sound.positive, fun signal member => ?_⟩,
      ⟨fun _ _ _ unreaped => unreaped, fun _ gone => gone⟩⟩
    obtain former | last := List.mem_append.mp member
    · exact sound.signals signal former
    · rw [List.mem_singleton.mp last]
      show world.find h.pid ≠ none
      rw [sound.find unreaped]
      exact Option.some_ne_none child
  · exact ⟨sound, evolves_self world⟩

/-- A child is forked, with a pid that no other has. -/
theorem Sound.fork (sound : world.Sound) {pid : Nat} (positive : pid ≠ 0)
    (free : world.find pid = none) (forked : next = { world with
      children := world.children ++ [{ pid }] }) :
    next.Sound ∧ Evolves none world next ∧ next.Unreaped world.children.length pid := by
  subst forked
  have last : (world.children ++ [({ pid } : Child)])[world.children.length]? =
      some { pid } := List.getElem?_concat_length
  have cases {child number : Nat}
      (unreaped : Unreaped { world with children := world.children ++ [{ pid }] } child number) :
      world.Unreaped child number ∨ child = world.children.length ∧ number = pid := by
    obtain ⟨found, inside, same, alive⟩ := unreaped
    have below := (List.getElem?_eq_some_iff.mp inside).1
    rw [List.length_append, List.length_singleton] at below
    by_cases new : child = world.children.length
    · subst new
      cases last.symm.trans inside
      exact Or.inr ⟨rfl, same.symm⟩
    · rw [List.getElem?_append_left (by omega)] at inside
      exact Or.inl ⟨found, inside, same, alive⟩
  have absent (child : Nat) : ¬ world.Unreaped child pid := by
    intro unreaped
    rw [sound.find unreaped] at free
    cases free
  refine ⟨⟨?_, ?_, sound.signals⟩, ⟨?_, ?_⟩, ⟨_, last, rfl, fun wrong => by cases wrong⟩⟩
  · intro first second number one two
    obtain oldFirst | ⟨isNew, same⟩ := cases one
    · obtain oldSecond | ⟨_, same⟩ := cases two
      · exact sound.distinct first second number oldFirst oldSecond
      · exact absurd (same ▸ oldFirst) (absent first)
    · obtain oldSecond | ⟨alsoNew, _⟩ := cases two
      · exact absurd (same ▸ oldSecond) (absent second)
      · exact isNew.trans alsoNew.symm
  · intro child number unreaped
    obtain old | ⟨_, rfl⟩ := cases unreaped
    · exact sound.positive child number old
    · exact positive
  · rintro child number _ ⟨found, inside, facts⟩
    have below := (List.getElem?_eq_some_iff.mp inside).1
    exact ⟨found, (List.getElem?_append_left below).trans inside, facts⟩
  · rintro child ⟨found, inside, gone⟩
    have below := (List.getElem?_eq_some_iff.mp inside).1
    exact ⟨found, (List.getElem?_append_left below).trans inside, gone⟩

end Processes

/-! ### Handles -/

open Processes

/-- A pid in a handle is that of its own child, which has not been reaped. Where there is none the
child, if any, has been reaped. -/
structure HandleSound (world : Processes) (h : Handle) : Prop where
  owns : h.pid ≠ 0 → ∃ child, h.child = some child ∧ world.Unreaped child h.pid
  cleared : h.pid = 0 → ∀ child, h.child = some child → world.Reaped child

/-- The handles of the entries, no two of which have the same child. -/
structure Owned (world : Processes) (handles : List Handle) : Prop where
  system : world.Sound
  each : ∀ h ∈ handles, HandleSound world h
  apart : (handles.map (·.child)).Pairwise fun one two => one = none ∨ one ≠ two

/-- A step of the master or of the children. -/
structure Keeps (world next : Processes) (handles : List Handle) : Prop where
  owned : Owned next handles
  reaped : ∀ child, world.Reaped child → next.Reaped child

section Handles

variable {world next : Processes} {handles : List Handle} {h : Handle} {index child : Nat}

theorem HandleSound.evolves {reaped : Option Nat} (sound : HandleSound world h)
    (evolves : Evolves reaped world next)
    (other : ∀ child, h.child = some child → reaped ≠ some child) : HandleSound next h := by
  constructor
  · intro some
    obtain ⟨child, own, unreaped⟩ := sound.owns some
    exact ⟨child, own, evolves.unreaped child h.pid (other child own) unreaped⟩
  · exact fun none child own => evolves.reaped child (sound.cleared none child own)

theorem Owned.evolves (owned : Owned world handles) (sound : next.Sound)
    (evolves : Evolves none world next) : Keeps world next handles := by
  refine ⟨⟨sound, fun h member => ?_, owned.apart⟩, evolves.reaped⟩
  exact (owned.each h member).evolves evolves fun child _ wrong =>
    Option.some_ne_none child wrong.symm

theorem Owned.sublist {fewer : List Handle} (owned : Owned world handles)
    (left : fewer.Sublist handles) : Owned world fewer :=
  ⟨owned.system, fun h member => owned.each h (left.subset member),
    owned.apart.sublist (left.map _)⟩

theorem Owned.keeps (owned : Owned world handles) : Keeps world world handles :=
  ⟨owned, fun _ gone => gone⟩

/-- An entry has the child of no other. -/
theorem Owned.index_unique (owned : Owned world handles) {other : Nat} {also : Handle}
    (found : handles[index]? = some h) (own : h.child = some child)
    (there : handles[other]? = some also) (alsoOwn : also.child = some child) :
    index = other := by
  have pairs := List.pairwise_iff_getElem.mp owned.apart
  have reads {place : Nat} {one : Handle} (found : handles[place]? = some one) :
      ∃ inside : place < (handles.map (·.child)).length,
        (handles.map (·.child))[place] = one.child := by
    obtain ⟨inside, same⟩ := List.getElem?_eq_some_iff.mp found
    refine ⟨by rwa [List.length_map], ?_⟩
    rw [List.getElem_map, same]
  obtain ⟨inside, one⟩ := reads found
  obtain ⟨alsoInside, two⟩ := reads there
  by_contra differs
  obtain before | after := Nat.lt_or_gt_of_ne differs
  · have differ := pairs index other inside alsoInside before
    rw [one, two, own, alsoOwn] at differ
    exact differ.elim (Option.some_ne_none child) (fun wrong => wrong rfl)
  · have differ := pairs other index alsoInside inside after
    rw [one, two, own, alsoOwn] at differ
    exact differ.elim (Option.some_ne_none child) (fun wrong => wrong rfl)

theorem modify_found (found : handles[index]? = some h) :
    handles.modify index (fun _ => h) = handles := by
  refine List.ext_getElem? fun place => ?_
  by_cases same : index = place
  · subst same
    rw [List.getElem?_modify_eq, found]
    rfl
  · rw [List.getElem?_modify_ne _ _ same]

/-- The handle of an entry is cleared and its child, if it has not been reaped, is reaped. -/
theorem Owned.clear (owned : Owned world handles) (found : handles[index]? = some h)
    (own : h.child = some child) (unreaped : world.Unreaped child h.pid) :
    Keeps world (world.reaped child) (handles.modify index fun _ => { h with pid := 0 }) := by
  have evolves := evolves_reaped world child
  refine ⟨⟨owned.system.reaped child, fun also member => ?_, ?_⟩, evolves.reaped⟩
  · obtain ⟨place, there⟩ := List.mem_iff_getElem?.mp member
    by_cases same : index = place
    · subst same
      rw [List.getElem?_modify_eq, found] at there
      cases there
      refine ⟨fun wrong => absurd rfl wrong, fun _ other alsoOwn => ?_⟩
      cases own.symm.trans alsoOwn
      exact reaped_reaped unreaped
    · rw [List.getElem?_modify_ne _ _ same] at there
      refine (owned.each also (List.mem_of_getElem? there)).evolves evolves ?_
      intro other alsoOwn reapedIt
      cases reapedIt
      exact same (owned.index_unique found own there alsoOwn)
  · have children : (handles.modify index fun _ => { h with pid := 0 }).map (·.child) =
        handles.map (·.child) := by
      refine List.ext_getElem? fun place => ?_
      rw [List.getElem?_map, List.getElem?_map]
      by_cases same : index = place
      · subst same
        rw [List.getElem?_modify_eq, found]
        rfl
      · rw [List.getElem?_modify_ne _ _ same]
    rw [children]
    exact owned.apart

/-! ### Calls of the policy -/

theorem Owned.signal (owned : Owned world handles) (member : h ∈ handles) :
    Keeps world (Fork.signal world h) handles := by
  have known := owned.system.signal fun some =>
    ((owned.each h member).owns some).imp fun child facts => facts.2
  exact owned.evolves known.1 known.2

theorem Owned.spawn {answer : Option Nat} (owned : Owned world handles)
    (spawned : Fork.spawn world answer = some (h, next)) : Keeps world next (handles ++ [h]) := by
  have extend {next : Processes} {h : Handle} (keeps : Keeps world next handles)
      (sound : HandleSound next h)
      (new : ∀ child, h.child = some child → ∀ other ∈ handles, other.child ≠ some child) :
      Keeps world next (handles ++ [h]) := by
    refine ⟨⟨keeps.owned.system, fun also member => ?_, ?_⟩, keeps.reaped⟩
    · obtain former | last := List.mem_append.mp member
      · exact keeps.owned.each also former
      · rw [List.mem_singleton.mp last]
        exact sound
    · rw [List.map_append, List.pairwise_append]
      refine ⟨keeps.owned.apart, List.pairwise_singleton _ _, fun one inside two isLast => ?_⟩
      obtain ⟨other, member, rfl⟩ := List.mem_map.mp inside
      rw [List.mem_singleton.mp isLast]
      refine or_iff_not_imp_left.mpr fun some same => ?_
      obtain ⟨child, own⟩ := Option.ne_none_iff_exists'.mp some
      exact new child (same.symm.trans own) other member own
  cases answer with
  | none =>
    cases spawned
    exact extend owned.keeps ⟨fun wrong => absurd rfl wrong, fun _ _ wrong => by cases wrong⟩
      fun _ wrong => by cases wrong
  | some pid =>
    rw [Fork.spawn] at spawned
    split at spawned
    · rename_i allowed
      cases spawned
      obtain ⟨sound, evolves, unreaped⟩ := owned.system.fork allowed.1 allowed.2 rfl
      refine extend (owned.evolves sound evolves)
        ⟨fun _ => ⟨_, rfl, unreaped⟩, fun none => absurd none allowed.1⟩ ?_
      intro child own other member alsoOwn
      cases own
      -- A handle has a child that has been forked before.
      have outside : world.children[world.children.length]? = none :=
        List.getElem?_eq_none (Nat.le_refl _)
      have known := owned.each other member
      by_cases none : other.pid = 0
      · obtain ⟨_, inside, _⟩ := known.cleared none _ alsoOwn
        cases outside.symm.trans inside
      · obtain ⟨forked, own, _, inside, _⟩ := known.owns none
        cases own.symm.trans alsoOwn
        cases outside.symm.trans inside
    · cases spawned

/-- The own child of a handle is what the system finds with its pid. -/
theorem Owned.find (owned : Owned world handles) (member : h ∈ handles) (some : h.pid ≠ 0) :
    ∃ child, h.child = Option.some child ∧ world.Unreaped child h.pid ∧
      world.find h.pid = Option.some child := by
  obtain ⟨child, own, unreaped⟩ := (owned.each h member).owns some
  exact ⟨child, own, unreaped, owned.system.find unreaped⟩

theorem Owned.isAlive (owned : Owned world handles) (found : handles[index]? = some h) :
    Keeps world (Fork.isAlive world h).2.2
        (handles.modify index fun _ => (Fork.isAlive world h).2.1) ∧
      ((Fork.isAlive world h).1 = false → (Fork.isAlive world h).2.1.pid = 0) := by
  unfold Fork.isAlive
  split
  · rename_i none
    rw [modify_found found]
    exact ⟨owned.keeps, fun _ => none⟩
  · rename_i some
    obtain ⟨child, own, unreaped, finds⟩ := owned.find (List.mem_of_getElem? found) some
    rw [finds]
    dsimp only
    split
    · exact ⟨owned.clear found own unreaped, fun _ => rfl⟩
    · rw [modify_found found]
      exact ⟨owned.keeps, fun wrong => by cases wrong⟩

theorem Owned.forceWait {handle : Handle} (owned : Owned world handles)
    (found : handles[index]? = some h) (ended : Fork.forceWait world h = some (handle, next)) :
    Keeps world next (handles.modify index fun _ => handle) ∧ handle.pid = 0 := by
  unfold Fork.forceWait at ended
  split at ended
  · rename_i none
    cases ended
    rw [modify_found found]
    exact ⟨owned.keeps, none⟩
  · rename_i some
    obtain ⟨child, own, unreaped, finds⟩ := owned.find (List.mem_of_getElem? found) some
    rw [finds] at ended
    dsimp only at ended
    split at ended
    · cases ended
      exact ⟨owned.clear found own unreaped, rfl⟩
    · cases ended

/-- The handles after a pass of the loop in `reap`. -/
def changed (handles : List Handle) : Option (Nat × Handle) → List Handle
  | none => handles
  | some (index, handle) => handles.modify index fun _ => handle

theorem Owned.reap {answer : Option Nat} {pass : ReapPass Handle Processes}
    (owned : Owned world handles) (passes : Nat)
    (reaped : Fork.reap world handles passes answer = some pass) :
    Keeps world pass.world (changed handles pass.change) := by
  cases answer with
  | none =>
    rw [Fork.reap] at reaped
    split at reaped
    · cases reaped
      exact owned.keeps
    · cases reaped
  | some pid =>
    rw [Fork.reap] at reaped
    cases finds : world.find pid with
    | none =>
      rw [finds] at reaped
      cases reaped
    | some child =>
      rw [finds] at reaped
      dsimp only at reaped
      split at reaped
      · cases reaped
        have unreaped := unreaped_of_find finds
        have positive := owned.system.positive child pid unreaped
        have evolves := evolves_reaped world child
        dsimp only
        rw [clearPid]
        cases search : handles.findIdx? (·.pid = pid) with
        | none =>
          -- No entry has this child: one with a pid has another child, one without has a child
          -- that has been reaped.
          refine ⟨⟨owned.system.reaped child, fun h member => ?_, owned.apart⟩, evolves.reaped⟩
          have differs : h.pid ≠ pid :=
            of_decide_eq_false (List.findIdx?_eq_none_iff.mp search h member)
          refine (owned.each h member).evolves evolves fun other own reapedIt => ?_
          cases reapedIt
          by_cases none : h.pid = 0
          · exact not_reaped_of_unreaped unreaped ((owned.each h member).cleared none _ own)
          · obtain ⟨_, same, mine⟩ := (owned.each h member).owns none
            cases own.symm.trans same
            exact differs (unreaped_unique mine unreaped)
        | some index =>
          obtain ⟨inside, holds, _⟩ := List.findIdx?_eq_some_iff_getElem.mp search
          have found := List.getElem?_eq_getElem inside
          have same : handles[index].pid = pid := of_decide_eq_true holds
          have member := List.mem_of_getElem? found
          obtain ⟨mine, own, alsoUnreaped⟩ := (owned.each _ member).owns (same ▸ positive)
          rw [same] at alsoUnreaped
          have isMine := owned.system.distinct mine child pid alsoUnreaped unreaped
          rw [Option.bind_some, found]
          exact owned.clear found (isMine ▸ own) (same.symm ▸ unreaped)
      · cases reaped

end Handles

end Fork

namespace ProcessManager

/-! ### The property -/

/-- Every signal has gone to a child that had not been reaped, and goes to the child of the entry
that has its pid. The child of an entry that has been removed has been reaped. -/
structure Hygienic (manager : ForkManager Rest) : Prop where
  signals : ∀ signal ∈ manager.world.signals, signal.2 ≠ none
  own : ∀ entry ∈ manager.workers, entry.handle.pid ≠ 0 → ∃ child,
    entry.handle.child = some child ∧ manager.world.find entry.handle.pid = some child
  removed : ∀ h ∈ manager.removed, ∀ child, h.child = some child → manager.world.Reaped child

/-! ### Entries that have been cleared -/

section Cleared

variable (workers : List (WorkerEntry Rest Fork.Handle)) (generation : Nat)

/-- The entries of a sweep have been cleared, as far as an index. -/
def Cleared (sweep : Sweep Rest) (index : Nat) : Prop :=
  ∀ place < index, ∀ entry, workers[place]? = some entry →
    entry.isSwept generation sweep = true → entry.handle.pid = 0

/-- What is known of the entries at a place of the master. The loops of `stop_old_workers` clear an
entry before they go on to the next. -/
def PlaceCleared : MasterPlace Rest → Prop
  | .wait (.old reload) index | .poll (.old reload) index =>
      Cleared workers generation (.old reload) index
  | .check sweep index | .forceKill sweep index | .forceWait sweep index =>
      Cleared workers generation sweep index
  | .erase sweep =>
      ∀ entry ∈ workers, entry.isSwept generation sweep = true → entry.handle.pid = 0
  | _ => True

end Cleared

section Steps

variable {workers : List (WorkerEntry Rest Fork.Handle)} {generation index : Nat}
  {sweep : Sweep Rest} {entry : WorkerEntry Rest Fork.Handle}

theorem cleared_zero (workers : List (WorkerEntry Rest Fork.Handle)) (generation : Nat)
    (sweep : Sweep Rest) : Cleared workers generation sweep 0 := fun _ below => by cases below

theorem Cleared.succ (cleared : Cleared workers generation sweep index)
    (found : workers[index]? = some entry)
    (gone : entry.isSwept generation sweep = true → entry.handle.pid = 0) :
    Cleared workers generation sweep (index + 1) := by
  intro place below other there swept
  by_cases same : place = index
  · subst same
    cases found.symm.trans there
    exact gone swept
  · exact cleared place (by omega) other there swept

theorem Cleared.all (cleared : Cleared workers generation sweep index)
    (outside : workers[index]? = none) : PlaceCleared workers generation (.erase sweep) := by
  intro entry member swept
  obtain ⟨place, found⟩ := List.mem_iff_getElem?.mp member
  have inside := (List.getElem?_eq_some_iff.mp found).1
  have last := List.getElem?_eq_none_iff.mp outside
  exact cleared place (by omega) entry found swept

/-- An entry further on changes. -/
theorem Cleared.modify (cleared : Cleared workers generation sweep index)
    (change : WorkerEntry Rest Fork.Handle → WorkerEntry Rest Fork.Handle) :
    Cleared (workers.modify index change) generation sweep index := by
  intro place below other there swept
  rw [List.getElem?_modify_ne _ _ (by omega)] at there
  exact cleared place below other there swept

/-- The entry at the index is cleared. -/
theorem Cleared.clear (cleared : Cleared workers generation sweep index)
    (found : workers[index]? = some entry) {handle : Fork.Handle} (gone : handle.pid = 0) :
    Cleared (workers.modify index fun entry => { entry with handle := handle }) generation sweep
      (index + 1) := by
  have changed : (workers.modify index fun entry => { entry with handle := handle })[index]? =
      some { entry with handle := handle } := by
    rw [List.getElem?_modify_eq, found]
    rfl
  exact (cleared.modify _).succ changed fun _ => gone

/-- An entry is polled. -/
theorem cleared_afterPoll (cleared : PlaceCleared workers generation (.poll sweep index))
    (change : WorkerEntry Rest Fork.Handle → WorkerEntry Rest Fork.Handle) (alive : Bool) :
    PlaceCleared (workers.modify index change) generation (afterPoll sweep index alive) := by
  cases sweep with
  | old reload =>
    have known : Cleared workers generation (.old reload) index := cleared
    cases alive with
    | true => exact known.modify change
    | false => exact known.modify change
  | all => cases alive <;> trivial

theorem Cleared.next (cleared : Cleared workers generation sweep (index + 1)) :
    PlaceCleared workers generation (sweep.next index) := by
  cases sweep with
  | old reload => exact cleared
  | all => exact cleared

/-! ### Steps of the master -/

variable {manager next : ForkManager Rest}

/-- What is known of the master at every place. -/
structure ForkSound (manager : ForkManager Rest) : Prop where
  host : manager.HostSound
  owned : Fork.Owned manager.world (manager.workers.map (·.handle))
  cleared : PlaceCleared manager.workers manager.currentGeneration manager.place
  removed : ∀ h ∈ manager.removed, ∀ child, h.child = some child → manager.world.Reaped child

theorem handles_modify (workers : List (WorkerEntry Rest Fork.Handle)) (index : Nat)
    (handle : Fork.Handle) :
    (workers.modify index fun entry => { entry with handle := handle }).map (·.handle) =
      (workers.map (·.handle)).modify index fun _ => handle := by
  refine List.ext_getElem? fun place => ?_
  rw [List.getElem?_map, List.getElem?_modify, List.getElem?_modify, List.getElem?_map]
  cases workers[place]? with
  | none => rfl
  | some entry =>
    show some (if index = place then _ else entry).handle =
      some (if index = place then handle else entry.handle)
    split <;> rfl

theorem handles_stop (workers : List (WorkerEntry Rest Fork.Handle)) (index : Nat) :
    (workers.modify index fun entry => { entry with stopping := true }).map (·.handle) =
      workers.map (·.handle) := by
  refine List.ext_getElem? fun place => ?_
  rw [List.getElem?_map, List.getElem?_modify, List.getElem?_map]
  cases workers[place]? with
  | none => rfl
  | some entry =>
    show some (if index = place then _ else entry).handle = some entry.handle
    split <;> rfl

theorem handles_takePass (manager : ForkManager Rest)
    (pass : ReapPass Fork.Handle Fork.Processes) :
    (manager.takePass pass).workers.map (·.handle) =
      Fork.changed (manager.workers.map (·.handle)) pass.change := by
  unfold takePass
  split
  · rename_i none
    rw [none]
    rfl
  · rename_i index handle some
    rw [some]
    exact handles_modify manager.workers index handle

theorem world_takePass (manager : ForkManager Rest)
    (pass : ReapPass Fork.Handle Fork.Processes) :
    (manager.takePass pass).world = pass.world := by
  unfold takePass
  split <;> rfl

theorem removed_takePass (manager : ForkManager Rest)
    (pass : ReapPass Fork.Handle Fork.Processes) :
    (manager.takePass pass).removed = manager.removed := by
  unfold takePass
  split <;> rfl

theorem getElem?_handles (found : workers[index]? = some entry) :
    (workers.map (·.handle))[index]? = some entry.handle := by
  rw [List.getElem?_map, found]
  rfl

/-- A step that removes no entry. -/
theorem ForkSound.kept (sound : manager.ForkSound) (host : next.HostSound)
    (keeps : Fork.Keeps manager.world next.world (next.workers.map (·.handle)))
    (cleared : PlaceCleared next.workers next.currentGeneration next.place)
    (removed : next.removed = manager.removed) : next.ForkSound := by
  refine ⟨host, keeps.owned, cleared, ?_⟩
  rw [removed]
  exact fun h member child own => keeps.reaped child (sound.removed h member child own)

/-- Entries without a pid are removed. -/
theorem ForkSound.remove (sound : manager.ForkSound) (host : next.HostSound)
    {isRemoved : WorkerEntry Rest Fork.Handle → Bool}
    (gone : ∀ entry ∈ manager.workers, isRemoved entry = true → entry.handle.pid = 0)
    (world : next.world = manager.world)
    (workers : next.workers = manager.workers.filter (!isRemoved ·))
    (removed : next.removed =
      manager.removed ++ (manager.workers.filter isRemoved).map (·.handle))
    (cleared : PlaceCleared next.workers next.currentGeneration next.place) :
    next.ForkSound := by
  refine ⟨host, ?_, cleared, ?_⟩
  · rw [world, workers]
    exact sound.owned.sublist (List.filter_sublist.map _)
  · rw [world, removed]
    intro h member child own
    obtain former | last := List.mem_append.mp member
    · exact sound.removed h former child own
    · obtain ⟨entry, inside, rfl⟩ := List.mem_map.mp last
      obtain ⟨there, isRemoved⟩ := List.mem_filter.mp inside
      have handle := sound.owned.each _ (List.mem_map_of_mem there)
      exact handle.cleared (gone entry there isRemoved) child own

theorem ForkSound.at {place : MasterPlace Rest} (sound : manager.ForkSound)
    (here : manager.place = place) :
    PlaceCleared manager.workers manager.currentGeneration place := here ▸ sound.cleared

theorem ForkSound.goes {place : MasterPlace Rest} (sound : manager.ForkSound)
    (goes : manager.Goes place) :
    PlaceCleared manager.workers manager.currentGeneration place := by
  cases goes with
  | shutdownTest _ requested => cases requested <;> trivial
  | noReload | running | reloading | skipped | exited | continued => trivial
  | @signalled sweep =>
    cases sweep with
    | old reload => exact cleared_zero _ _ _
    | all => trivial
  | waitAll _ expired =>
    cases expired with
    | false => trivial
    | true => exact cleared_zero _ _ _
  | waited here outside =>
    have known := sound.at here
    exact known.all outside
  | waitOld here _ _ expired =>
    have known := sound.at here
    cases expired <;> exact known
  | @passed reload index entry here found other =>
    have known : Cleared _ _ (.old reload) index := sound.at here
    have told : AllSignalled _ _ (.old reload) := (sound.host.at here).2
    refine known.succ found fun swept => absurd ⟨swept, ?_⟩ other
    exact told _ (List.mem_map_of_mem (List.mem_of_getElem? found)) swept
  | polled => exact cleared_zero _ _ _
  | checked here outside =>
    have known := sound.at here
    exact known.all outside

/-- The handle of an entry at the index of a sweep is changed by the policy. -/
theorem ForkSound.setHandle (sound : manager.ForkSound) (host : next.HostSound)
    {handle : Fork.Handle} (workers : next.workers = (manager.setHandle index handle).workers)
    (keeps : Fork.Keeps manager.world next.world
      ((manager.workers.map (·.handle)).modify index fun _ => handle))
    (cleared : PlaceCleared (manager.setHandle index handle).workers manager.currentGeneration
      next.place)
    (generation : next.currentGeneration = manager.currentGeneration)
    (removed : next.removed = manager.removed) : next.ForkSound := by
  refine sound.kept host ?_ ?_ removed
  · rw [workers]
    show Fork.Keeps _ _ ((manager.workers.modify index _).map _)
    rw [handles_modify]
    exact keeps
  · rw [workers, generation]
    exact cleared

/-- Every step keeps what is known of the master. -/
theorem ForkSound.moves (sound : manager.ForkSound) (moves : Moves forkPolicy manager next) :
    next.ForkSound := by
  have host := sound.host.moves moves
  cases moves with
  | @event event world happened =>
    have known := Fork.Processes.exits_spec sound.owned.system happened
    exact sound.kept host (sound.owned.evolves known.1 known.2) sound.cleared rfl
  | start here => exact sound.kept host sound.owned.keeps trivial rfl
  | reload here returned => exact sound.kept host sound.owned.keeps trivial rfl
  | goes goes => exact sound.kept host sound.owned.keeps (sound.goes goes) rfl
  | spawn here more spawned =>
    refine sound.kept host ?_ trivial rfl
    dsimp only
    rw [List.map_append]
    exact sound.owned.spawn spawned
  | @signal sweep index entry here found mine =>
    refine sound.kept host ?_ trivial rfl
    dsimp only
    rw [handles_stop]
    exact sound.owned.signal (List.mem_of_getElem? (getElem?_handles found))
  | @poll sweep index entry here found =>
    obtain ⟨keeps, gone⟩ := sound.owned.isAlive (getElem?_handles found)
    refine sound.setHandle host rfl keeps ?_ rfl rfl
    exact cleared_afterPoll (sound.at here) _ _
  | @check sweep index entry here found =>
    obtain ⟨keeps, gone⟩ := sound.owned.isAlive (getElem?_handles found)
    have known : Cleared _ _ sweep index := sound.at here
    refine sound.setHandle host rfl keeps ?_ rfl rfl
    show PlaceCleared _ _ (if (Fork.isAlive manager.world entry.handle).1 then _ else _)
    cases alive : (Fork.isAlive manager.world entry.handle).1 with
    | true => exact known.modify _
    | false => exact (known.clear found (gone alive)).next
  | @forceKill sweep index entry here found =>
    have known : Cleared _ _ sweep index := sound.at here
    refine sound.kept host ?_ known rfl
    exact sound.owned.signal (List.mem_of_getElem? (getElem?_handles found))
  | @forceWait sweep index entry handle world here found ended =>
    obtain ⟨keeps, gone⟩ := sound.owned.forceWait (getElem?_handles found) ended
    have known : Cleared _ _ sweep index := sound.at here
    exact sound.setHandle host rfl keeps (known.clear found gone).next rfl rfl
  | @erase sweep here =>
    have known := sound.at here
    obtain ⟨workers, removed, world, place⟩ := erase_spec forkPolicy manager sweep
    refine sound.remove host known world workers removed ?_
    obtain ended | finished | goesOn := place
    · rw [ended]
      trivial
    · rw [finished]
      trivial
    · rw [goesOn]
      trivial
  | @reapMore passes answer pass here reaped again =>
    refine sound.kept host ?_ trivial (removed_takePass manager pass)
    rw [world_takePass, handles_takePass]
    exact sound.owned.reap passes reaped
  | @reapEnd passes answer pass here reaped done =>
    have middle : (manager.takePass pass).ForkSound := by
      refine sound.kept (sound.host.takePass here pass).1 ?_ ?_ (removed_takePass manager pass)
      · rw [world_takePass, handles_takePass]
        exact sound.owned.reap passes reaped
      · rw [place_takePass, here]
        trivial
    refine middle.remove host (fun entry _ gone => of_decide_eq_true gone) rfl rfl rfl ?_
    obtain ended | goesOn := place_remove (manager.takePass pass) forkPolicy.terminates
      (fun entry => forkPolicy.isGone (manager.takePass pass).world entry.handle) .emptyTest
    · rw [ended]
      trivial
    · rw [goesOn]
      trivial

end Steps

/-! ### Runs -/

theorem forkSound_new (config : WorkerConfig Rest) (hardware : Nat) :
    ForkSound ({ config, hardware, world := {} } : ForkManager Rest) := by
  have none (child pid : Nat) : ¬ ({} : Fork.Processes).Unreaped child pid := by
    rintro ⟨_, inside, _⟩
    cases inside
  refine ⟨hostSound_new config hardware _, ⟨⟨?_, ?_, ?_⟩, ?_, .nil⟩, trivial, ?_⟩
  · exact fun first _ pid unreaped => absurd unreaped (none first pid)
  · exact fun child pid unreaped => absurd unreaped (none child pid)
  · exact fun _ member => by cases member
  · exact fun _ member => by cases member
  · exact fun _ member => by cases member

theorem ForkSound.pidsOwned {manager : ForkManager Rest} (sound : manager.ForkSound) :
    manager.Hygienic := by
  refine ⟨sound.owned.system.signals, fun entry member some => ?_, sound.removed⟩
  obtain ⟨child, own, _, finds⟩ := sound.owned.find (List.mem_map_of_mem member) some
  exact ⟨child, own, finds⟩

/-- In every run of the master, whatever happens to its children and whenever, no signal goes to a
pid that has been reaped, and no entry is removed before its child has been reaped. -/
theorem hygienic {config : WorkerConfig Rest} {hardware : Nat}
    {actions : List (MasterAction Rest (Option Nat) Nat)} {manager : ForkManager Rest}
    (run : after (step forkPolicy) { config, hardware, world := {} } actions = some manager) :
    manager.Hygienic :=
  (after_invariant ForkSound (fun _ _ _ sound taken => sound.moves (step_moves taken))
    (forkSound_new config hardware) run).pidsOwned

/-- The run of a reload, at the end of which the old worker, which has been reaped, is to be
removed. -/
theorem hygienic_reloading : (reloading ⟨1, 5, ()⟩).Hygienic :=
  have run : after (step forkPolicy) { config := ⟨1, 5, ()⟩, hardware := 8, world := {} }
      (reloadRun ⟨1, 5, ()⟩) = some (reloading ⟨1, 5, ()⟩) := rfl
  hygienic run

end ProcessManager

end AsyncNet.Executor
