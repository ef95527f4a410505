/-
This file models the timers of `io_context`: `post_at`, which puts an entry into the priority queue
`timers_`, and `process_timers`, which takes out what has expired and calls it. A step of
`process_timers` reads the clock, takes the callbacks in one section under the mutex, and calls them
outside of it, so that any thread, and any callback, can post timers in between, and several
threads can be in `process_timers` at once.

A callback is moved out of the first entry of the queue before that entry is taken out. What is
removed is the entry with the empty function and no other one, since moving leaves its deadline.
-/

import AsyncNet.Io.IoContext
import AsyncNet.Library.PriorityQueue
import Mathlib.Data.List.Flatten
import Mathlib.Data.List.Nodup
import Mathlib.Data.List.Range

namespace AsyncNet.Io

open Library

/-! ### The queue -/

/-- The `std::function` of a timer, which is empty after it has been moved from. A callback is named
by the number of the call of `post_at` that has brought it. -/
abbrev Callback := Option Nat

/-- `timers_`. -/
abbrev TimerQueue := PriorityQueue fun entry : TimerEntry Callback => entry.deadline

/-- What is left of an entry when its callback has been moved out of it. -/
def TimerEntry.moveOut (entry : TimerEntry Callback) : TimerEntry Callback :=
  { entry with callback := none }

/-- The loop of `process_timers` under the mutex, which stops at the size of the queue at the
latest: the callbacks that have expired, and the queue without them. -/
def takeExpired (now : Nat) : Nat → TimerQueue → List Callback × TimerQueue
  | 0, timers => ([], timers)
  | fuel + 1, timers =>
      match timers.top with
      | none => ([], timers)
      | some first =>
          if first.deadline ≤ now then
            let (expired, timers) :=
              takeExpired now fuel (timers.modifyTop TimerEntry.moveOut fun _ => rfl).pop
            (first.callback :: expired, timers)
          else ([], timers)

/-! ### The steps -/

/-- A call of a callback, with the time at which it was made. -/
structure TimerCall where
  time : Nat
  callback : Callback
  deriving DecidableEq

/-- A call of `process_timers`: the time it has read, whether it has been in its section, the
callbacks in its vector that it has not called, and a record of those that it has called. -/
structure Pass where
  now : Nat
  taken : Bool := false
  expired : List Callback := []
  called : List TimerCall := []
  deriving DecidableEq

/-- The steady clock, the queue of timers and the calls of `process_timers`, in the order in which
they have begun. The last field records the deadlines that have been posted. -/
structure Timers where
  clock : Nat := 0
  timers : TimerQueue := .empty
  passes : List Pass := []
  deadlines : List Nat := []

inductive TimerAction where
  | tick (time : Nat)
  | postAt (deadline : Nat)
  /-- A thread calls `process_timers`, which reads the clock. -/
  | begin
  /-- The section of a call of `process_timers`. -/
  | take (number : Nat)
  /-- A call of `process_timers` calls its next callback. -/
  | call (number : Nat)
  deriving DecidableEq

namespace Timers

/-- `post_at`. -/
def postAt (timers : Timers) (deadline : Nat) : Timers :=
  { timers with
    timers := timers.timers.push ⟨deadline, some timers.deadlines.length⟩
    deadlines := timers.deadlines ++ [deadline] }

/-- The section of `process_timers`. -/
def take (timers : Timers) (number : Nat) (pass : Pass) : Timers :=
  let (expired, queue) := takeExpired pass.now timers.timers.size timers.timers
  { timers with
    timers := queue, passes := timers.passes.set number { pass with taken := true, expired } }

/-- The next callback of a call of `process_timers`. -/
def call (timers : Timers) (number : Nat) (pass : Pass) (callback : Callback)
    (expired : List Callback) : Timers :=
  { timers with
    passes := timers.passes.set number
      { pass with expired, called := pass.called ++ [⟨timers.clock, callback⟩] } }

/-- A step, if it is there. The clock never goes back. -/
def step (timers : Timers) : TimerAction → Option Timers
  | .tick time => if timers.clock ≤ time then some { timers with clock := time } else none
  | .postAt deadline => some (timers.postAt deadline)
  | .begin => some { timers with passes := timers.passes ++ [{ now := timers.clock }] }
  | .take number =>
      match timers.passes[number]? with
      | none => none
      | some pass => if pass.taken then none else some (timers.take number pass)
  | .call number =>
      match timers.passes[number]? with
      | none => none
      | some pass =>
          match pass.expired with
          | [] => none
          | callback :: expired => some (timers.call number pass callback expired)

end Timers

/-! ### What is guaranteed -/

/-- A callback was posted with a deadline. -/
def Dated (deadlines : List Nat) (callback : Callback) (deadline : Nat) : Prop :=
  ∃ number, callback = some number ∧ deadlines[number]? = some deadline

/-- The deadline of the first callback is not later than that of the second. -/
def NotLater (deadlines : List Nat) (first second : Callback) : Prop :=
  ∃ early late, Dated deadlines first early ∧ Dated deadlines second late ∧ early ≤ late

/-- The callbacks that a call of `process_timers` has called. -/
def Pass.ran (pass : Pass) : List Callback := pass.called.map (·.callback)

/-- The callbacks that a call of `process_timers` has taken. -/
def Pass.callbacks (pass : Pass) : List Callback := pass.ran ++ pass.expired

namespace Timers

/-- No callback is called twice, or before its deadline, and one that is called is one that has been
posted. Within one call of `process_timers` they are called in the order of their deadlines. -/
structure FireInOrder (timers : Timers) : Prop where
  once : (timers.passes.flatMap Pass.ran).Nodup
  notEarly : ∀ pass ∈ timers.passes, ∀ call ∈ pass.called,
    ∃ deadline ≤ call.time, Dated timers.deadlines call.callback deadline
  inOrder : ∀ pass ∈ timers.passes, pass.ran.Pairwise (NotLater timers.deadlines)

end Timers

/-! ### The section of `process_timers` -/

/-- The entries that have expired have been taken out of a queue, by their deadlines. -/
structure Expires (now : Nat) (queue : TimerQueue) (entries : List (TimerEntry Callback))
    (left : TimerQueue) : Prop where
  split : queue.toList.Perm (entries ++ left.toList)
  due : ∀ entry ∈ entries, entry.deadline ≤ now
  sorted : entries.Pairwise (·.deadline ≤ ·.deadline)
  later : ∀ entry ∈ left.toList, now < entry.deadline

theorem takeExpired_expires (now fuel : Nat) (queue : TimerQueue)
    (enough : queue.toList.length ≤ fuel) :
    ∃ entries, (takeExpired now fuel queue).1 = entries.map (·.callback) ∧
      Expires now queue entries (takeExpired now fuel queue).2 := by
  induction fuel generalizing queue with
  | zero =>
    have empty := List.eq_nil_of_length_eq_zero (Nat.le_zero.mp enough)
    refine ⟨[], rfl, List.Perm.refl _, ?_, List.Pairwise.nil, ?_⟩
    · intro entry wrong
      cases wrong
    · intro entry inside
      change entry ∈ queue.toList at inside
      rw [empty] at inside
      cases inside
  | succ fuel inductionHypothesis =>
    rw [takeExpired]
    cases isTop : queue.top with
    | none =>
      have empty := PriorityQueue.toList_eq_nil_iff.mpr isTop
      refine ⟨[], rfl, List.Perm.refl _, ?_, List.Pairwise.nil, ?_⟩
      · intro entry wrong
        cases wrong
      · intro entry inside
        change entry ∈ queue.toList at inside
        rw [empty] at inside
        cases inside
    | some first =>
      by_cases due : first.deadline ≤ now
      · have others : queue.toList.Perm (first ::
            (queue.modifyTop TimerEntry.moveOut fun _ => rfl).pop.toList) :=
          PriorityQueue.toList_pop_modifyTop TimerEntry.moveOut (fun _ => rfl) isTop
        obtain ⟨entries, callbacks, expires⟩ := inductionHypothesis
          (queue.modifyTop TimerEntry.moveOut fun _ => rfl).pop (by
            have length := others.length_eq
            rw [List.length_cons] at length
            omega)
        refine ⟨first :: entries, ?_, ?_⟩
        · simp only [if_pos due]
          rw [callbacks]
          rfl
        · simp only [if_pos due]
          refine ⟨others.trans (expires.split.cons first), ?_, ?_, expires.later⟩
          · rintro entry (_ | ⟨_, inside⟩)
            · exact due
            · exact expires.due entry inside
          · refine List.pairwise_cons.mpr ⟨fun entry inside => ?_, expires.sorted⟩
            refine PriorityQueue.top_le isTop (others.mem_iff.mpr (List.mem_cons_of_mem _ ?_))
            exact expires.split.mem_iff.mpr (List.mem_append_left _ inside)
      · simp only [if_neg due]
        refine ⟨[], rfl, List.Perm.refl _, ?_, List.Pairwise.nil, fun entry inside => ?_⟩
        · intro entry wrong
          cases wrong
        · exact Nat.lt_of_lt_of_le (Nat.lt_of_not_le due) (PriorityQueue.top_le isTop inside)

/-- What has expired is what is due, and what is left is the rest. -/
theorem Expires.perm_filter {now : Nat} {queue left : TimerQueue}
    {entries : List (TimerEntry Callback)} (expires : Expires now queue entries left) :
    entries.Perm (queue.toList.filter (·.deadline ≤ now)) ∧
      left.toList.Perm (queue.toList.filter (now < ·.deadline)) := by
  have taken : entries.filter (·.deadline ≤ now) = entries :=
    List.filter_eq_self.mpr fun entry inside => decide_eq_true (expires.due entry inside)
  have untaken : left.toList.filter (·.deadline ≤ now) = [] := by
    refine List.filter_eq_nil_iff.mpr fun entry inside wrong => ?_
    exact Nat.not_lt.mpr (of_decide_eq_true wrong) (expires.later entry inside)
  have unleft : entries.filter (now < ·.deadline) = [] := by
    refine List.filter_eq_nil_iff.mpr fun entry inside wrong => ?_
    exact Nat.not_lt.mpr (expires.due entry inside) (of_decide_eq_true wrong)
  have leftOver : left.toList.filter (now < ·.deadline) = left.toList :=
    List.filter_eq_self.mpr fun entry inside => decide_eq_true (expires.later entry inside)
  have first := expires.split.filter (·.deadline ≤ now)
  have second := expires.split.filter (now < ·.deadline)
  rw [List.filter_append, taken, untaken, List.append_nil] at first
  rw [List.filter_append, unleft, leftOver, List.nil_append] at second
  exact ⟨first.symm, second.symm⟩

/-! ### The invariant -/

/-- What has been posted stays posted. -/
theorem Dated.post {deadlines : List Nat} {callback : Callback} {deadline : Nat}
    (dated : Dated deadlines callback deadline) (more : Nat) :
    Dated (deadlines ++ [more]) callback deadline := by
  obtain ⟨number, rfl, found⟩ := dated
  refine ⟨number, rfl, ?_⟩
  rw [List.getElem?_append_left (List.getElem?_eq_some_iff.mp found).1]
  exact found

theorem NotLater.post {deadlines : List Nat} {first second : Callback}
    (notLater : NotLater deadlines first second) (more : Nat) :
    NotLater (deadlines ++ [more]) first second := by
  obtain ⟨early, late, datedFirst, datedSecond, le⟩ := notLater
  exact ⟨early, late, datedFirst.post more, datedSecond.post more, le⟩

namespace Pass

/-- A call of `process_timers` takes what has expired at the time that it has read, in the order of
the deadlines, and calls it later. -/
structure Sound (clock : Nat) (deadlines : List Nat) (pass : Pass) : Prop where
  read : pass.now ≤ clock
  due : ∀ callback ∈ pass.callbacks, ∃ deadline ≤ pass.now, Dated deadlines callback deadline
  ordered : pass.callbacks.Pairwise (NotLater deadlines)
  late : ∀ call ∈ pass.called, pass.now ≤ call.time
  fresh : pass.taken = false → pass.callbacks = []

variable {clock : Nat} {deadlines : List Nat} {pass : Pass}

theorem sound_begin (clock : Nat) (deadlines : List Nat) :
    Sound clock deadlines { now := clock } where
  read := Nat.le_refl clock
  due := by
    intro callback wrong
    cases wrong
  ordered := List.Pairwise.nil
  late := by
    intro call wrong
    cases wrong
  fresh := fun _ => rfl

theorem Sound.tick (sound : pass.Sound clock deadlines) {time : Nat} (later : clock ≤ time) :
    pass.Sound time deadlines :=
  ⟨Nat.le_trans sound.read later, sound.due, sound.ordered, sound.late, sound.fresh⟩

theorem Sound.post (sound : pass.Sound clock deadlines) (more : Nat) :
    pass.Sound clock (deadlines ++ [more]) := by
  refine ⟨sound.read, fun callback inside => ?_, ?_, sound.late, sound.fresh⟩
  · obtain ⟨deadline, due, dated⟩ := sound.due callback inside
    exact ⟨deadline, due, dated.post more⟩
  · exact sound.ordered.imp fun notLater => notLater.post more

/-- The callbacks that have expired are taken by a call that has not taken any. -/
theorem Sound.take (sound : pass.Sound clock deadlines) (untaken : pass.taken = false)
    {queue left : TimerQueue} {entries : List (TimerEntry Callback)}
    (dated : ∀ entry ∈ queue.toList, Dated deadlines entry.callback entry.deadline)
    (expires : Expires pass.now queue entries left) :
    Sound clock deadlines { pass with taken := true, expired := entries.map (·.callback) } ∧
      callbacks { pass with taken := true, expired := entries.map (·.callback) } =
        entries.map (·.callback) := by
  have ran : pass.ran = [] := (List.append_eq_nil_iff.mp (sound.fresh untaken)).1
  have callbacks : Pass.callbacks
      { pass with taken := true, expired := entries.map (·.callback) } =
        entries.map (·.callback) := by
    show pass.ran ++ entries.map (·.callback) = entries.map (·.callback)
    rw [ran]
    rfl
  have posted (entry : TimerEntry Callback) (inside : entry ∈ entries) :
      Dated deadlines entry.callback entry.deadline :=
    dated entry (expires.split.mem_iff.mpr (List.mem_append_left _ inside))
  refine ⟨⟨sound.read, ?_, ?_, sound.late, fun wrong => by cases wrong⟩, callbacks⟩
  · rw [callbacks]
    intro callback inside
    obtain ⟨entry, taken, rfl⟩ := List.mem_map.mp inside
    exact ⟨entry.deadline, expires.due entry taken, posted entry taken⟩
  · rw [callbacks, List.pairwise_map]
    refine expires.sorted.imp_of_mem fun inFirst inSecond le => ?_
    exact ⟨_, _, posted _ inFirst, posted _ inSecond, le⟩

/-- A callback that is called stays one of those that have been taken. -/
theorem callbacks_call {callback : Callback} {expired : List Callback}
    (next : pass.expired = callback :: expired) :
    callbacks { pass with expired, called := pass.called ++ [⟨clock, callback⟩] } =
      pass.callbacks := by
  show (pass.called ++ [TimerCall.mk clock callback]).map (·.callback) ++ expired =
    pass.called.map (·.callback) ++ pass.expired
  rw [next, List.map_append, List.append_assoc]
  rfl

theorem Sound.call (sound : pass.Sound clock deadlines) {callback : Callback}
    {expired : List Callback} (next : pass.expired = callback :: expired) :
    Sound clock deadlines
      { pass with expired, called := pass.called ++ [⟨clock, callback⟩] } := by
  refine ⟨sound.read, ?_, ?_, fun call inside => ?_, fun untaken => ?_⟩
  · rw [callbacks_call next]
    exact sound.due
  · rw [callbacks_call next]
    exact sound.ordered
  · rcases List.mem_append.mp inside with earlier | last
    · exact sound.late call earlier
    · rw [List.mem_singleton.mp last]
      exact sound.read
  · rw [callbacks_call next]
    exact sound.fresh untaken

/-- A later state of a call of `process_timers`: it has read the same time, and behind its section
it keeps what it has taken, until it has called all of it. -/
def Follows (pass later : Pass) : Prop :=
  later.now = pass.now ∧
    (pass.taken = true → later.taken = true ∧ later.callbacks = pass.callbacks)

theorem Follows.refl (pass : Pass) : pass.Follows pass := ⟨rfl, fun taken => ⟨taken, rfl⟩⟩

theorem Follows.trans {later last : Pass} (first : pass.Follows later)
    (second : later.Follows last) : pass.Follows last := by
  refine ⟨second.1.trans first.1, fun taken => ?_⟩
  obtain ⟨still, same⟩ := first.2 taken
  obtain ⟨stillToo, sameToo⟩ := second.2 still
  exact ⟨stillToo, sameToo.trans same⟩

end Pass

namespace Timers

/-- Every callback that has been posted is in the queue, with its deadline, or has been taken by one
call of `process_timers`. -/
structure Sound (timers : Timers) : Prop where
  dated : ∀ entry ∈ timers.timers.toList,
    Dated timers.deadlines entry.callback entry.deadline
  once : (timers.passes.flatMap Pass.callbacks ++ timers.timers.toList.map (·.callback)).Perm
    ((List.range timers.deadlines.length).map some)
  passes : ∀ pass ∈ timers.passes, pass.Sound timers.clock timers.deadlines

theorem sound_new : Sound {} where
  dated := by
    intro entry wrong
    cases wrong
  once := List.Perm.refl []
  passes := by
    intro pass wrong
    cases wrong

variable {timers next : Timers}

theorem Sound.postAt (sound : timers.Sound) (deadline : Nat) : (timers.postAt deadline).Sound := by
  have entries := timers.timers.toList_push (.mk deadline (some timers.deadlines.length))
  refine ⟨fun entry inside => ?_, ?_, fun pass inside => (sound.passes pass inside).post deadline⟩
  · rcases List.mem_cons.mp (entries.mem_iff.mp inside) with rfl | earlier
    · refine ⟨timers.deadlines.length, rfl, ?_⟩
      show (timers.deadlines ++ [deadline])[timers.deadlines.length]? = some deadline
      rw [List.getElem?_concat_length]
    · exact (sound.dated entry earlier).post deadline
  · show (timers.passes.flatMap Pass.callbacks ++
      (timers.timers.push ⟨deadline, some timers.deadlines.length⟩).toList.map (·.callback)).Perm
        ((List.range (timers.deadlines ++ [deadline]).length).map some)
    rw [List.length_append, List.length_singleton, List.range_succ, List.map_append]
    refine ((entries.map (·.callback)).append_left _).trans ?_
    rw [List.map_cons]
    refine List.perm_middle.trans ?_
    exact (sound.once.cons _).trans (List.perm_append_singleton _ _).symm

/-- The call of `process_timers` with a number, between those before it and those after it. -/
theorem exists_split {number : Nat} {pass : Pass} (found : timers.passes[number]? = some pass) :
    ∃ front back, timers.passes = front ++ pass :: back ∧
      ∀ other, timers.passes.set number other = front ++ other :: back := by
  obtain ⟨inside, rfl⟩ := List.getElem?_eq_some_iff.mp found
  refine ⟨timers.passes.take number, timers.passes.drop (number + 1), ?_, fun other => ?_⟩
  · rw [List.getElem_cons_drop, List.take_append_drop]
  · rw [List.set_eq_take_append_cons_drop, if_pos inside]

/-- What holds of all calls of `process_timers` holds of them after a step of one. -/
theorem Sound.passes_set (sound : timers.Sound) {front back : List Pass} {pass other : Pass}
    (split : timers.passes = front ++ pass :: back)
    (changed : other.Sound timers.clock timers.deadlines) :
    ∀ each ∈ front ++ other :: back, each.Sound timers.clock timers.deadlines := by
  intro each inside
  have before := sound.passes each
  rw [split] at before
  rcases List.mem_append.mp inside with earlier | (_ | ⟨_, later⟩)
  · exact before (List.mem_append_left _ earlier)
  · exact changed
  · exact before (List.mem_append_right _ (List.mem_cons_of_mem _ later))

theorem Sound.take (sound : timers.Sound) {number : Nat} {pass : Pass}
    (found : timers.passes[number]? = some pass) (untaken : pass.taken = false) :
    (timers.take number pass).Sound := by
  obtain ⟨front, back, split, set⟩ := exists_split found
  obtain ⟨entries, callbacks, expires⟩ :=
    takeExpired_expires pass.now timers.timers.size timers.timers (Nat.le_refl _)
  have passSound : pass.Sound timers.clock timers.deadlines :=
    sound.passes pass (List.mem_of_getElem? found)
  obtain ⟨changed, taken⟩ := passSound.take untaken sound.dated expires
  have passes : (timers.take number pass).passes =
      front ++ { pass with taken := true, expired := entries.map (·.callback) } :: back := by
    show timers.passes.set number { pass with
      taken := true, expired := (takeExpired pass.now timers.timers.size timers.timers).1 } = _
    rw [callbacks]
    exact set _
  refine ⟨fun entry inside => ?_, ?_, ?_⟩
  · exact sound.dated entry (expires.split.mem_iff.mpr (List.mem_append_right _ inside))
  · have once := sound.once
    rw [split, List.flatMap_append, List.flatMap_cons, passSound.fresh untaken,
      List.nil_append] at once
    rw [passes, List.flatMap_append, List.flatMap_cons, taken]
    have queue := (expires.split.map (·.callback)).symm
    rw [List.map_append] at queue
    refine List.Perm.trans ?_ once
    rw [List.append_assoc, List.append_assoc, List.append_assoc]
    refine List.Perm.append_left _ ?_
    exact (List.perm_append_comm_assoc _ _ _).trans (queue.append_left _)
  · rw [passes]
    exact sound.passes_set split changed

theorem Sound.call (sound : timers.Sound) {number : Nat} {pass : Pass} {callback : Callback}
    {expired : List Callback} (found : timers.passes[number]? = some pass)
    (next : pass.expired = callback :: expired) :
    (timers.call number pass callback expired).Sound := by
  obtain ⟨front, back, split, set⟩ := exists_split found
  have passSound : pass.Sound timers.clock timers.deadlines :=
    sound.passes pass (List.mem_of_getElem? found)
  have changed := passSound.call next
  have passes : (timers.call number pass callback expired).passes = front ++
      { pass with expired, called := pass.called ++ [⟨timers.clock, callback⟩] } :: back := set _
  refine ⟨sound.dated, ?_, ?_⟩
  · have once := sound.once
    rw [split, List.flatMap_append, List.flatMap_cons] at once
    rw [passes, List.flatMap_append, List.flatMap_cons, Pass.callbacks_call next]
    exact once
  · rw [passes]
    exact sound.passes_set split changed

theorem Sound.step (sound : timers.Sound) {action : TimerAction}
    (taken : timers.step action = some next) : next.Sound := by
  cases action with
  | tick time =>
    rw [Timers.step] at taken
    split at taken
    · rename_i later
      cases taken
      exact ⟨sound.dated, sound.once, fun pass inside => (sound.passes pass inside).tick later⟩
    · cases taken
  | postAt deadline =>
    cases taken
    exact sound.postAt deadline
  | begin =>
    cases taken
    refine ⟨sound.dated, ?_, fun pass inside => ?_⟩
    · rw [List.flatMap_append, List.flatMap_singleton]
      show (timers.passes.flatMap Pass.callbacks ++ [] ++ _).Perm _
      rw [List.append_nil]
      exact sound.once
    · rcases List.mem_append.mp inside with earlier | last
      · exact sound.passes pass earlier
      · rw [List.mem_singleton.mp last]
        exact Pass.sound_begin timers.clock timers.deadlines
  | take number =>
    rw [Timers.step] at taken
    split at taken
    · cases taken
    · rename_i pass found
      split at taken
      · cases taken
      · rename_i untaken
        cases taken
        exact sound.take found (Bool.eq_false_iff.mpr untaken)
  | call number =>
    rw [Timers.step] at taken
    split at taken
    · cases taken
    · rename_i pass found
      split at taken
      · cases taken
      · rename_i callback expired first
        cases taken
        exact sound.call found first

theorem Sound.fireInOrder (sound : timers.Sound) : timers.FireInOrder := by
  refine ⟨?_, fun pass inside call called => ?_, fun pass inside => ?_⟩
  · have distinct : ((List.range timers.deadlines.length).map some).Nodup :=
      List.Nodup.map (Option.some_injective Nat) List.nodup_range
    have all := (List.nodup_append.mp (sound.once.nodup_iff.mpr distinct)).1
    refine all.sublist ?_
    exact List.Sublist.flatMap_right timers.passes fun pass _ => List.sublist_append_left _ _
  · have passSound := sound.passes pass inside
    have ran : call.callback ∈ pass.callbacks :=
      List.mem_append_left _ (List.mem_map.mpr ⟨call, called, rfl⟩)
    obtain ⟨deadline, due, dated⟩ := passSound.due call.callback ran
    exact ⟨deadline, Nat.le_trans due (passSound.late call called), dated⟩
  · exact (sound.passes pass inside).ordered.sublist (List.sublist_append_left _ _)

/-! ### What a call of `process_timers` has taken -/

theorem Dated.eq {deadlines : List Nat} {callback : Callback} {first second : Nat}
    (one : Dated deadlines callback first) (two : Dated deadlines callback second) :
    first = second := by
  obtain ⟨number, rfl, found⟩ := one
  obtain ⟨other, same, foundToo⟩ := two
  cases same
  rw [found] at foundToo
  exact Option.some.inj foundToo

/-- A callback that is due at a section has been taken before, or it is taken there. -/
theorem Sound.mem_take (sound : timers.Sound) {number : Nat} {pass : Pass}
    (found : timers.passes[number]? = some pass) {callback : Callback} {deadline : Nat}
    (dated : Dated timers.deadlines callback deadline) (due : deadline ≤ pass.now) :
    (∃ earlier ∈ timers.passes, callback ∈ earlier.callbacks) ∨
      ∃ later, (timers.take number pass).passes[number]? = some later ∧ later.taken = true ∧
        callback ∈ later.callbacks := by
  obtain ⟨entries, callbacks, expires⟩ :=
    takeExpired_expires pass.now timers.timers.size timers.timers (Nat.le_refl _)
  obtain ⟨name, rfl, posted⟩ := dated
  have everywhere : some name ∈ timers.passes.flatMap Pass.callbacks ++
      timers.timers.toList.map (·.callback) := by
    refine sound.once.mem_iff.mpr (List.mem_map.mpr ⟨name, List.mem_range.mpr ?_, rfl⟩)
    exact (List.getElem?_eq_some_iff.mp posted).1
  rcases List.mem_append.mp everywhere with earlier | queued
  · exact Or.inl (List.mem_flatMap.mp earlier)
  · obtain ⟨entry, inside, named⟩ := List.mem_map.mp queued
    have same : entry.deadline = deadline :=
      Dated.eq (sound.dated entry inside) ⟨name, named, posted⟩
    have taken : entry ∈ entries := by
      rcases List.mem_append.mp (expires.split.mem_iff.mp inside) with taken | left
      · exact taken
      · have later := expires.later entry left
        rw [same] at later
        exact absurd due (Nat.not_le.mpr later)
    refine Or.inr ⟨{ pass with taken := true, expired := entries.map (·.callback) }, ?_, rfl, ?_⟩
    · show (timers.passes.set number { pass with
        taken := true
        expired := (takeExpired pass.now timers.timers.size timers.timers).1 })[number]? = _
      rw [List.getElem?_set_self (List.getElem?_eq_some_iff.mp found).1, callbacks]
    · exact List.mem_append_right _ (List.mem_map.mpr ⟨entry, taken, named⟩)

/-- Each call of `process_timers` goes on from where it is. -/
theorem exists_follows {action : TimerAction} (taken : timers.step action = some next)
    {number : Nat} {pass : Pass} (found : timers.passes[number]? = some pass) :
    ∃ later, next.passes[number]? = some later ∧ pass.Follows later := by
  have inside := (List.getElem?_eq_some_iff.mp found).1
  have changed (other : Nat) {before changed : Pass}
      (here : timers.passes[other]? = some before) (follows : before.Follows changed) :
      ∃ later, (timers.passes.set other changed)[number]? = some later ∧ pass.Follows later := by
    by_cases same : other = number
    · subst same
      cases found.symm.trans here
      exact ⟨changed, List.getElem?_set_self inside, follows⟩
    · exact ⟨pass, (List.getElem?_set_ne same).trans found, Pass.Follows.refl pass⟩
  cases action with
  | tick time =>
    rw [Timers.step] at taken
    split at taken
    · cases taken
      exact ⟨pass, found, Pass.Follows.refl pass⟩
    · cases taken
  | postAt deadline =>
    cases taken
    exact ⟨pass, found, Pass.Follows.refl pass⟩
  | begin =>
    cases taken
    exact ⟨pass, (List.getElem?_append_left inside).trans found, Pass.Follows.refl pass⟩
  | take other =>
    rw [Timers.step] at taken
    split at taken
    · cases taken
    · rename_i before here
      split at taken
      · cases taken
      · rename_i untaken
        cases taken
        exact changed other here ⟨rfl, fun wrong => absurd wrong untaken⟩
  | call other =>
    rw [Timers.step] at taken
    split at taken
    · cases taken
    · rename_i before here
      split at taken
      · cases taken
      · rename_i callback expired first
        cases taken
        exact changed other here ⟨rfl, fun still => ⟨still, Pass.callbacks_call first⟩⟩

theorem exists_follows_after {actions : List TimerAction}
    (run : after step timers actions = some next) {number : Nat} {pass : Pass}
    (found : timers.passes[number]? = some pass) :
    ∃ later, next.passes[number]? = some later ∧ pass.Follows later := by
  refine after_invariant
    (fun middle => ∃ later, middle.passes[number]? = some later ∧ pass.Follows later)
    (fun middle action last holds taken => ?_) ⟨pass, found, Pass.Follows.refl pass⟩ run
  obtain ⟨later, foundLater, follows⟩ := holds
  obtain ⟨latest, foundLatest, followsToo⟩ := exists_follows taken foundLater
  exact ⟨latest, foundLatest, follows.trans followsToo⟩

/-! ### Runs -/

theorem sound_after {actions : List TimerAction} (run : after step {} actions = some timers) :
    timers.Sound :=
  after_invariant Sound (fun _ _ _ sound taken => sound.step taken) sound_new run

/-- However posts, readings of the clock, sections and calls are interleaved, callbacks are called
once, not early and in order. A callback that has been posted before the section of a call of
`process_timers`, and is due at the time that this has read, is called by it, unless it had been
taken before. -/
theorem timers_fire {actions : List TimerAction} {final : Timers}
    (run : after step {} actions = some final) :
    final.FireInOrder ∧
    ∀ front number before pass, front ++ [.take number] <+: actions →
      after step {} front = some before → final.passes[number]? = some pass →
      pass.expired = [] → ∀ callback deadline, Dated before.deadlines callback deadline →
        deadline ≤ pass.now →
        (∃ earlier ∈ before.passes, callback ∈ earlier.callbacks) ∨ callback ∈ pass.ran := by
  refine ⟨(sound_after run).fireInOrder, ?_⟩
  rintro front number before pass ⟨rest, rfl⟩ reached found done callback deadline dated due
  obtain ⟨next, taken, later⟩ := after_append.mp run
  obtain ⟨middle, same, last⟩ := after_concat.mp taken
  cases reached.symm.trans same
  obtain ⟨start, foundStart⟩ : ∃ start, before.passes[number]? = some start := by
    rw [Timers.step] at last
    split at last
    · cases last
    · rename_i start foundStart
      exact ⟨start, foundStart⟩
  have sameTime : pass.now = start.now := by
    obtain ⟨between, foundBetween, follows⟩ := exists_follows last foundStart
    obtain ⟨pass', found', follows'⟩ := exists_follows_after later foundBetween
    cases found.symm.trans found'
    exact follows'.1.trans follows.1
  rw [sameTime] at due
  have taking : next = before.take number start := by
    rw [Timers.step, foundStart] at last
    cases taken : start.taken with
    | true => simp [taken] at last
    | false => simpa [taken] using last.symm
  rcases (sound_after reached).mem_take foundStart dated due with earlier | ⟨between, behind⟩
  · exact Or.inl earlier
  · obtain ⟨foundBetween, takenBetween, inBetween⟩ := behind
    rw [← taking] at foundBetween
    obtain ⟨pass', found', follows⟩ := exists_follows_after later foundBetween
    cases found.symm.trans found'
    rw [← (follows.2 takenBetween).2, Pass.callbacks, done, List.append_nil] at inBetween
    exact Or.inr inBetween

/-- Two timers, the second of which posts a third one when it is called. -/
def threeTimers : List TimerAction :=
  [.postAt 5, .postAt 3, .tick 4, .begin, .take 0, .call 0, .postAt 4, .tick 6, .begin, .take 1,
    .call 1, .call 1]

theorem timers_fire_three :
    ∃ final, after step {} threeTimers = some final ∧ final.FireInOrder ∧
      final.passes.map Pass.ran = [[some 1], [some 2, some 0]] := by
  have ran : (after step {} threeTimers).map (·.passes.map Pass.ran) =
      some [[some 1], [some 2, some 0]] := by decide
  obtain ⟨final, run, ran⟩ := Option.map_eq_some_iff.mp ran
  exact ⟨final, run, (timers_fire run).1, ran⟩

/-! ### The callbacks that have run -/

/-- The callbacks that have been called. -/
def ran (timers : Timers) : List Callback := timers.passes.flatMap Pass.ran

theorem ran_set {number : Nat} {pass other : Pass} (found : timers.passes[number]? = some pass)
    (same : other.ran = pass.ran) :
    (timers.passes.set number other).flatMap Pass.ran = timers.ran := by
  obtain ⟨front, back, split, set⟩ := exists_split found
  rw [set, ran, split, List.flatMap_append, List.flatMap_append, List.flatMap_cons,
    List.flatMap_cons, same]

/-- Only a call of a callback adds to those that have run. -/
theorem ran_step {action : TimerAction} (taken : timers.step action = some next)
    (notCall : ∀ number, action ≠ .call number) : next.ran = timers.ran := by
  cases action with
  | tick time =>
    rw [step] at taken
    split at taken
    · cases taken
      rfl
    · cases taken
  | postAt deadline =>
    cases taken
    rfl
  | begin =>
    cases taken
    show (timers.passes ++ [_]).flatMap Pass.ran = timers.passes.flatMap Pass.ran
    rw [List.flatMap_append]
    exact List.append_nil _
  | take number =>
    rw [step] at taken
    split at taken
    · cases taken
    · rename_i pass found
      split at taken
      · cases taken
      · cases taken
        exact ran_set found rfl
  | call number => exact absurd rfl (notCall number)

/-- Only a post adds to the deadlines. -/
theorem deadlines_step {action : TimerAction} (taken : timers.step action = some next)
    (notPost : ∀ deadline, action ≠ .postAt deadline) : next.deadlines = timers.deadlines := by
  cases action with
  | tick time =>
    rw [step] at taken
    split at taken
    · cases taken
      rfl
    · cases taken
  | postAt deadline => exact absurd rfl (notPost deadline)
  | begin =>
    cases taken
    rfl
  | take number =>
    rw [step] at taken
    split at taken
    · cases taken
    · split at taken
      · cases taken
      · cases taken
        rfl
  | call number =>
    rw [step] at taken
    split at taken
    · cases taken
    · split at taken
      · cases taken
      · cases taken
        rfl

theorem ran_call {number : Nat} {pass : Pass} (found : timers.passes[number]? = some pass)
    (callback : Callback) (expired : List Callback) :
    (timers.call number pass callback expired).ran.Perm (callback :: timers.ran) := by
  obtain ⟨front, back, split, set⟩ := exists_split found
  have changed : Pass.ran
      { pass with expired, called := pass.called ++ [⟨timers.clock, callback⟩] } =
        pass.ran ++ [callback] := List.map_append
  show ((timers.passes.set number _).flatMap Pass.ran).Perm _
  rw [set, ran, split, List.flatMap_append, List.flatMap_append, List.flatMap_cons,
    List.flatMap_cons, changed, List.append_assoc, ← List.append_assoc, List.singleton_append,
    ← List.append_assoc]
  exact List.perm_middle

/-- What a call of `process_timers` has taken has run when all these calls have ended. -/
theorem Sound.mem_ran (sound : timers.Sound)
    (ended : ∀ pass ∈ next.passes, pass.expired = [])
    (goOn : ∀ (number : Nat) (pass : Pass), timers.passes[number]? = some pass →
      ∃ later, next.passes[number]? = some later ∧ pass.Follows later)
    {pass : Pass} (inside : pass ∈ timers.passes) {callback : Callback}
    (taken : callback ∈ pass.callbacks) : callback ∈ next.ran := by
  obtain ⟨number, found⟩ := List.mem_iff_getElem?.mp inside
  obtain ⟨later, foundLater, follows⟩ := goOn number pass found
  have hasTaken : pass.taken = true := by
    refine Bool.of_not_eq_false fun untaken => ?_
    rw [(sound.passes pass inside).fresh untaken] at taken
    cases taken
  have insideLater := List.mem_of_getElem? foundLater
  rw [← (follows.2 hasTaken).2, Pass.callbacks, ended later insideLater, List.append_nil] at taken
  exact List.mem_flatMap.mpr ⟨later, insideLater, taken⟩

end Timers

/-! ### The loop of the context -/

/-- The queue of timers of `IoContext` is the priority queue, without the order in the array. The
loop under the mutex takes what the section there takes. -/
theorem processTimers_takeExpired (context : IoContext Callback) (loop : Loop) (now : Nat)
    (queue : TimerQueue) (same : queue.toList.Perm context.timers) :
    ∃ entries next, (takeExpired now queue.size queue).1 = entries.map (·.callback) ∧
      context.processTimers loop now entries = some next ∧
      (takeExpired now queue.size queue).2.toList.Perm next.timers := by
  obtain ⟨entries, callbacks, expires⟩ := takeExpired_expires now queue.size queue (Nat.le_refl _)
  obtain ⟨due, later⟩ := expires.perm_filter
  have accepted : entries.Perm (context.timers.filter (·.deadline ≤ now)) :=
    due.trans (same.filter _)
  exact ⟨entries, _, callbacks, if_pos ⟨accepted, expires.sorted⟩, later.trans (same.filter _)⟩

theorem postAt_push (context : IoContext Callback) (deadline : Nat) (callback : Callback)
    (queue : TimerQueue) (same : queue.toList.Perm context.timers) :
    ∃ next, context.step (.postAt deadline callback) = some next ∧
      (queue.push ⟨deadline, callback⟩).toList.Perm next.timers := by
  refine ⟨_, rfl, ?_⟩
  refine (queue.toList_push (.mk deadline callback)).trans ?_
  exact (same.cons _).trans (List.perm_append_singleton _ _).symm

end AsyncNet.Io
