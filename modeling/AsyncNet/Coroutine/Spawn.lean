/-
This file models how a spawned coroutine hands over to the coroutine that awaits it, as in
`coroutine/spawn.hpp`: the steps of `SpawnPromise::FinalAwaiter` on one side, those of
`JoinHandle::Awaiter` on the other. The flag `done` is stored outside of the mutex that guards
`waiter`, so what has to be excluded is that the awaiting coroutine reads the flag too early and
is then not found, or goes on by itself and is found as well.

It is not found only if its section comes after the one that takes `waiter`, which comes after the
store of the flag; then it reads the flag and goes on. This is what the invariant says.
-/

import AsyncNet.Library.Schedules

namespace AsyncNet.Coroutine

open Library

/-! ### The two coroutines -/

/-- `SpawnState`. A `JoinHandle` gives its state away when it is awaited, so that only one coroutine
can be the waiter. The result is a value or an exception. -/
structure SpawnState (Failure Value : Type) where
  done : Bool := false
  waiter : Bool := false
  result : Option (Except Failure Value) := none
  deriving DecidableEq

/-- Where the spawned coroutine is. -/
inductive Spawned where
  | running
  /-- After `return_value` or `unhandled_exception`. -/
  | returned
  /-- In `FinalAwaiter`, after the store of `done`. -/
  | stored
  /-- In `FinalAwaiter`, after the section, with the handle it has taken. -/
  | taken (waiter : Bool)
  | finished
  deriving DecidableEq

/-- Where the awaiting coroutine is. -/
inductive Awaiting where
  | before
  /-- After `await_ready` has returned `false`. -/
  | suspending
  | suspended
  | continued
  /-- The coroutine is at its end. -/
  | ended
  deriving DecidableEq

/-- The two coroutines and what they share. The last field records what `await_resume` has found,
each time that the awaiting coroutine has gone on. -/
structure Join (Failure Value : Type) where
  state : SpawnState Failure Value := {}
  spawned : Spawned := .running
  awaiting : Awaiting := .before
  continuations : List (Option (Except Failure Value)) := []
  deriving DecidableEq

/-- The steps of the two coroutines. -/
inductive JoinAction (Failure Value : Type) where
  /-- `return_value` or `unhandled_exception`. -/
  | complete (result : Except Failure Value)
  /-- The store of `done`. -/
  | storeDone
  /-- The section of `FinalAwaiter::await_suspend`. -/
  | takeWaiter
  /-- The end of `FinalAwaiter::await_suspend`. -/
  | resumeWaiter
  | awaitReady
  /-- The section of `Awaiter::await_suspend`. -/
  | awaitSuspend
  /-- The awaiting coroutine comes to its end. -/
  | endAwaiting

variable {Failure Value : Type}

namespace Join

/-- The awaiting coroutine goes on, with `await_resume`. -/
def continueAwaiting (join : Join Failure Value) : Join Failure Value :=
  { join with
    awaiting := .continued, continuations := join.continuations ++ [join.state.result] }

/-- `Awaiter::await_ready`. -/
def awaitReady (join : Join Failure Value) : Join Failure Value :=
  if join.state.done then join.continueAwaiting else { join with awaiting := .suspending }

/-- `Awaiter::await_suspend`. -/
def awaitSuspend (join : Join Failure Value) : Join Failure Value :=
  if join.state.done then join.continueAwaiting
  else { join with state := { join.state with waiter := true }, awaiting := .suspended }

/-- The end of `FinalAwaiter::await_suspend`: `if (w && !w.done()) w.resume()`. -/
def resumeWaiter (join : Join Failure Value) (waiter : Bool) : Join Failure Value :=
  let join := { join with spawned := .finished }
  if waiter ∧ join.awaiting ≠ .ended then join.continueAwaiting else join

/-- A step of one of the coroutines, if it is there. -/
def step (join : Join Failure Value) : JoinAction Failure Value → Option (Join Failure Value)
  | .complete result =>
      if join.spawned = .running then
        some { join with state := { join.state with result := some result }, spawned := .returned }
      else none
  | .storeDone =>
      if join.spawned = .returned then
        some { join with state := { join.state with done := true }, spawned := .stored }
      else none
  | .takeWaiter =>
      if join.spawned = .stored then
        some { join with
          state := { join.state with waiter := false }, spawned := .taken join.state.waiter }
      else none
  | .resumeWaiter =>
      match join.spawned with
      | .taken waiter => some (join.resumeWaiter waiter)
      | _ => none
  | .awaitReady => if join.awaiting = .before then some join.awaitReady else none
  | .awaitSuspend => if join.awaiting = .suspending then some join.awaitSuspend else none
  | .endAwaiting =>
      if join.awaiting = .continued then some { join with awaiting := .ended } else none

/-! ### What the hand-over guarantees -/

/-- The awaiting coroutine goes on once at most, and then finds the result that has been stored.
When the spawned coroutine has finished, it is not suspended, and when it also has taken all of its
own steps, it has gone on. -/
structure HandedOver (join : Join Failure Value) : Prop where
  once : join.continuations.length ≤ 1
  late : ∀ found ∈ join.continuations, found.isSome ∧ found = join.state.result
  awake : join.spawned = .finished → join.awaiting ≠ .suspended
  exactly : join.spawned = .finished → join.awaiting ≠ .before → join.awaiting ≠ .suspending →
    join.continuations.length = 1

end Join

/-! ### The invariant -/

/-- The result has been stored. -/
def Spawned.hasReturned : Spawned → Bool
  | .running => false
  | _ => true

/-- The flag has been stored. -/
def Spawned.hasStored : Spawned → Bool
  | .running | .returned => false
  | _ => true

/-- The waiter has been looked for. -/
def Spawned.hasTaken : Spawned → Bool
  | .taken _ | .finished => true
  | _ => false

/-- The coroutine has gone on after the await. -/
def Awaiting.hasContinued : Awaiting → Bool
  | .continued | .ended => true
  | _ => false

namespace Join

/-- A coroutine that is suspended is the waiter or has been taken, and it alone is. One that has
gone on has done so after the flag was stored. -/
structure Sound (join : Join Failure Value) : Prop where
  result : join.state.result.isSome = join.spawned.hasReturned
  done : join.state.done = join.spawned.hasStored
  waiter : join.state.waiter = true ↔ join.awaiting = .suspended ∧ join.spawned.hasTaken = false
  taken : join.spawned.hasTaken = true →
    (join.spawned = .taken true ↔ join.awaiting = .suspended)
  late : join.awaiting.hasContinued = true → join.spawned.hasStored = true
  continuations : join.continuations =
    if join.awaiting.hasContinued then [join.state.result] else []

theorem sound_new : ({} : Join Failure Value).Sound :=
  ⟨rfl, rfl, ⟨nofun, nofun⟩, nofun, nofun, rfl⟩

variable {join next : Join Failure Value}

/-- A coroutine that has not gone on can do so when the flag has been stored. -/
theorem Sound.continueAwaiting (sound : join.Sound) (fresh : join.awaiting.hasContinued = false)
    (clear : join.awaiting ≠ .suspended) (stored : join.spawned.hasStored = true) :
    join.continueAwaiting.Sound := by
  have empty : join.continuations = [] := by
    rw [sound.continuations, fresh]
    rfl
  have untaken (taken : join.spawned.hasTaken = true) : join.spawned ≠ .taken true :=
    fun waits => clear ((sound.taken taken).mp waits)
  refine ⟨sound.result, sound.done, ?_, fun taken => ?_, fun _ => stored, ?_⟩
  · exact iff_of_false (fun set => clear (sound.waiter.mp set).1) nofun
  · exact iff_of_false (untaken taken) nofun
  · show join.continuations ++ [join.state.result] = [join.state.result]
    rw [empty]
    rfl

theorem Sound.awaitReady (sound : join.Sound) (here : join.awaiting = .before) :
    join.awaitReady.Sound := by
  have fresh : join.awaiting.hasContinued = false := by rw [here]; rfl
  have clear : join.awaiting ≠ .suspended := by rw [here]; nofun
  rw [Join.awaitReady]
  split
  · rename_i done
    exact sound.continueAwaiting fresh clear (sound.done.symm.trans done)
  · refine ⟨sound.result, sound.done, ?_, fun taken => ?_, nofun, ?_⟩
    · exact iff_of_false (fun set => clear (sound.waiter.mp set).1) nofun
    · exact iff_of_false (fun waits => clear ((sound.taken taken).mp waits)) nofun
    · show join.continuations = []
      rw [sound.continuations, fresh]
      rfl

/-- If the flag has not been stored, the waiter has not been looked for, and it will be found. -/
theorem Sound.awaitSuspend (sound : join.Sound) (here : join.awaiting = .suspending) :
    join.awaitSuspend.Sound := by
  have fresh : join.awaiting.hasContinued = false := by rw [here]; rfl
  have clear : join.awaiting ≠ .suspended := by rw [here]; nofun
  rw [Join.awaitSuspend]
  split
  · rename_i done
    exact sound.continueAwaiting fresh clear (sound.done.symm.trans done)
  · rename_i early
    have untaken : join.spawned.hasTaken = false := by
      have unstored := sound.done
      cases spawned : join.spawned with
      | running | returned | stored => rfl
      | taken waiter | finished =>
        rw [spawned] at unstored
        exact absurd unstored early
    refine ⟨sound.result, sound.done, ?_, fun taken => ?_, nofun, ?_⟩
    · exact iff_of_true rfl ⟨rfl, untaken⟩
    · exact absurd (untaken.symm.trans taken) nofun
    · show join.continuations = []
      rw [sound.continuations, fresh]
      rfl

/-- A waiter that has been taken is suspended, and goes on now. -/
theorem Sound.resumeWaiter (sound : join.Sound) {waiter : Bool}
    (here : join.spawned = .taken waiter) : (join.resumeWaiter waiter).Sound := by
  have taken := sound.taken (by rw [here]; rfl)
  have result : join.state.result.isSome = true := sound.result.trans (by rw [here]; rfl)
  have done : join.state.done = true := sound.done.trans (by rw [here]; rfl)
  have unset : join.state.waiter ≠ true := by
    intro set
    have untaken := (sound.waiter.mp set).2
    rw [here] at untaken
    cases untaken
  rw [Join.resumeWaiter]
  cases waiter with
  | true =>
    have suspended : join.awaiting = .suspended := taken.mp here
    rw [if_pos ⟨rfl, by rw [suspended]; nofun⟩]
    refine ⟨result, done, iff_of_false unset nofun, fun _ => ⟨nofun, nofun⟩, fun _ => rfl, ?_⟩
    show join.continuations ++ [join.state.result] = [join.state.result]
    rw [sound.continuations, suspended]
    rfl
  | false =>
    have awake : join.awaiting ≠ .suspended := by
      intro suspended
      have waits := taken.mpr suspended
      rw [here] at waits
      cases waits
    rw [if_neg (fun both => Bool.false_ne_true both.1)]
    refine ⟨result, done, ?_, fun _ => ?_, fun _ => rfl, sound.continuations⟩
    · exact iff_of_false unset fun both => awake both.1
    · exact iff_of_false nofun awake

theorem Sound.step (sound : join.Sound) {action : JoinAction Failure Value}
    (taken : join.step action = some next) : next.Sound := by
  cases action with
  | complete result =>
    rw [Join.step] at taken
    split at taken
    · rename_i here
      cases taken
      have unset := sound.waiter
      have late := sound.late
      rw [here] at unset late
      have fresh : join.awaiting.hasContinued = false :=
        Bool.eq_false_iff.mpr fun continued => Bool.false_ne_true (late continued)
      refine ⟨rfl, ?_, unset, nofun, fun continued => ?_, ?_⟩
      · show join.state.done = false
        rw [sound.done, here]
        rfl
      · exact absurd (fresh.symm.trans continued) nofun
      · show join.continuations = if join.awaiting.hasContinued then _ else _
        rw [sound.continuations, fresh]
        rfl
    · cases taken
  | storeDone =>
    rw [Join.step] at taken
    split at taken
    · rename_i here
      cases taken
      have result := sound.result
      have unset := sound.waiter
      rw [here] at result unset
      exact ⟨result, rfl, unset, nofun, fun _ => rfl, sound.continuations⟩
    · cases taken
  | takeWaiter =>
    rw [Join.step] at taken
    split at taken
    · rename_i here
      cases taken
      have result := sound.result
      have done := sound.done
      have unset := sound.waiter
      rw [here] at result done unset
      refine ⟨result, done, ⟨nofun, nofun⟩, fun _ => ?_, fun _ => rfl, sound.continuations⟩
      show Spawned.taken join.state.waiter = .taken true ↔ _
      rw [Spawned.taken.injEq, unset]
      exact and_iff_left rfl
    · cases taken
  | resumeWaiter =>
    rw [Join.step] at taken
    split at taken
    · rename_i waiter here
      cases taken
      exact sound.resumeWaiter here
    · cases taken
  | awaitReady =>
    rw [Join.step] at taken
    split at taken
    · rename_i here
      cases taken
      exact sound.awaitReady here
    · cases taken
  | awaitSuspend =>
    rw [Join.step] at taken
    split at taken
    · rename_i here
      cases taken
      exact sound.awaitSuspend here
    · cases taken
  | endAwaiting =>
    rw [Join.step] at taken
    split at taken
    · rename_i here
      cases taken
      have unset := sound.waiter
      have untaken := sound.taken
      have late := sound.late
      have found := sound.continuations
      rw [here] at unset untaken late found
      refine ⟨sound.result, sound.done, ?_, fun taken => ?_, late, found⟩
      · exact iff_of_false (fun set => nomatch (unset.mp set).1) nofun
      · exact iff_of_false (fun waits => nomatch (untaken taken).mp waits) nofun
    · cases taken

theorem Sound.handsOver (sound : join.Sound) : join.HandedOver := by
  have awake (finished : join.spawned = .finished) : join.awaiting ≠ .suspended := by
    intro suspended
    have waits := (sound.taken (by rw [finished]; rfl)).mpr suspended
    rw [finished] at waits
    cases waits
  have found := sound.continuations
  refine ⟨?_, fun seen member => ?_, awake, fun finished begun tested => ?_⟩
  · rw [found]
    split
    · exact Nat.le_refl 1
    · exact Nat.zero_le 1
  · rw [found] at member
    split at member
    · rename_i continued
      obtain rfl := List.mem_singleton.mp member
      refine ⟨sound.result.trans ?_, rfl⟩
      have stored := sound.late continued
      cases spawned : join.spawned with
      | running =>
        rw [spawned] at stored
        cases stored
      | returned | stored | taken _ | finished => rfl
    · cases member
  · have continued : join.awaiting.hasContinued = true := by
      cases awaiting : join.awaiting with
      | before => exact absurd awaiting begun
      | suspending => exact absurd awaiting tested
      | suspended => exact absurd awaiting (awake finished)
      | continued | ended => rfl
    rw [found, if_pos continued]
    rfl

end Join

end AsyncNet.Coroutine
