/-
This file is about the time for which the loop of `io_context` lets its backend wait. The
function `next_timer_timeout_ms` takes the difference of the earliest deadline and the clock,
which are 64-bit counts of nanoseconds, and turns it into an `int` of milliseconds.

The conversion keeps the low 32 bits. A deadline that is 2^31 milliseconds ahead, less than 25
days, gives a negative number, with which `epoll_wait` waits without end. What the function
returns is a bound exactly where these bits do not have the sign, and where the difference
itself does not leave the 64 bits.
-/

import AsyncNet.Library.PriorityQueue
import Mathlib.Algebra.Group.Int.Defs
import Mathlib.Algebra.Group.Nat.Defs
import Mathlib.Algebra.Order.Group.Int

namespace AsyncNet.Io

open Library

variable {Entry : Type} {deadline : Entry → Int}

/-! ### The timeout -/

/-- The difference of two counts of 64 bits, which is undefined when it overflows. -/
def difference (later earlier : Int) : Option Int :=
  if -2 ^ 63 ≤ later - earlier ∧ later - earlier < 2 ^ 63 then some (later - earlier) else none

/-- `next_timer_timeout_ms`, with the time that it reads from the clock. A conversion to `int` keeps
the low 32 bits. -/
def nextTimerTimeoutMs (timers : PriorityQueue deadline) (now : Int) : Option Int :=
  match timers.top with
  | none => some 100
  | some first => do
      let diff ← difference (deadline first) now
      if diff ≤ 0 then some 0
      else
        let ms := diff.tdiv 1000000
        some (ms.bmod (2 ^ 32))

/-- The time to a deadline, of which nothing is left when it has passed. -/
def remaining (deadline now : Int) : Int := max 0 (deadline - now)

/-- The timeout is a number of milliseconds, and no timer comes before it has elapsed. -/
def IsBound (timers : PriorityQueue deadline) (now : Int) : Prop :=
  ∃ ms, nextTimerTimeoutMs timers now = some ms ∧ 0 ≤ ms ∧
    ∀ entry ∈ timers.toList, ms * 1000000 ≤ remaining (deadline entry) now

/-- A time for which the low 32 bits of its milliseconds do not have the sign. -/
def Representable (time : Int) : Prop :=
  -2 ^ 63 ≤ time ∧ time < 2 ^ 63 ∧ (0 < time → time / 1000000 % 2 ^ 32 < 2 ^ 31)

/-- An entry whose deadline is the earliest. -/
def IsEarliest (timers : PriorityQueue deadline) (entry : Entry) : Prop :=
  entry ∈ timers.toList ∧ ∀ other ∈ timers.toList, deadline entry ≤ deadline other

/-! ### The condition -/

/-- The conversion of a number that is not negative keeps the sign if and only if the low bits do
not have it, and then it does not make the number larger. -/
theorem narrowed {ms : Int} (positive : 0 ≤ ms) :
    (0 ≤ ms.bmod (2 ^ 32) ↔ ms % 2 ^ 32 < 2 ^ 31) ∧
      (ms % 2 ^ 32 < 2 ^ 31 → ms.bmod (2 ^ 32) ≤ ms) := by
  rw [Int.bmod_def]
  constructor
  · split <;> omega
  · intro low
    split <;> omega

theorem difference_eq_some {later earlier diff : Int} :
    difference later earlier = some diff ↔
      later - earlier = diff ∧ -2 ^ 63 ≤ later - earlier ∧ later - earlier < 2 ^ 63 := by
  unfold difference
  split
  · rename_i fits
    rw [Option.some.injEq, and_iff_left fits]
  · rename_i wide
    exact iff_of_false (fun wrong => by cases wrong) fun wrong => wide wrong.2

/-- The number of milliseconds for the earliest deadline. -/
theorem nextTimerTimeoutMs_eq {timers : PriorityQueue deadline} {first : Entry} {now : Int}
    (isTop : timers.top = some first) (fits : -2 ^ 63 ≤ deadline first - now)
    (narrow : deadline first - now < 2 ^ 63) :
    nextTimerTimeoutMs timers now =
      some (if deadline first - now ≤ 0 then 0
        else ((deadline first - now) / 1000000).bmod (2 ^ 32)) := by
  have diff := difference_eq_some.mpr ⟨rfl, fits, narrow⟩
  unfold nextTimerTimeoutMs
  rw [isTop]
  dsimp only
  rw [diff, Option.bind_eq_bind, Option.bind_some]
  split
  · rfl
  · rename_i ahead
    rw [Int.tdiv_eq_ediv_of_nonneg (le_of_lt (not_le.mp ahead))]

/-- The timeout is a bound if and only if the time to the earliest deadline is representable. -/
theorem isBound_iff (timers : PriorityQueue deadline) (now : Int) :
    IsBound timers now ↔
      ∀ entry, IsEarliest timers entry → Representable (deadline entry - now) := by
  cases isTop : timers.top with
  | none =>
    have empty := PriorityQueue.toList_eq_nil_iff.mpr isTop
    refine iff_of_true ⟨100, ?_, by decide, ?_⟩ ?_
    · unfold nextTimerTimeoutMs
      rw [isTop]
    · intro entry inside
      rw [empty] at inside
      cases inside
    · intro entry earliest
      have inside := earliest.1
      rw [empty] at inside
      cases inside
  | some first =>
    obtain ⟨others, entries⟩ := PriorityQueue.toList_eq_of_top isTop
    have inside : first ∈ timers.toList := by
      rw [entries]
      exact List.mem_cons_self
    constructor
    · rintro ⟨ms, result, positive, -⟩ entry ⟨isEntry, earliest⟩
      have same : deadline entry = deadline first :=
        le_antisymm (earliest first inside) (PriorityQueue.top_le isTop isEntry)
      rw [same]
      have returns := result
      unfold nextTimerTimeoutMs at returns
      rw [isTop] at returns
      obtain ⟨diff, isDiff, -⟩ := Option.bind_eq_some_iff.mp returns
      obtain ⟨-, fits, small⟩ := difference_eq_some.mp isDiff
      refine ⟨fits, small, fun ahead => ?_⟩
      rw [nextTimerTimeoutMs_eq isTop fits small, if_neg (not_le.mpr ahead)] at result
      cases result
      exact (narrowed (Int.ediv_nonneg (le_of_lt ahead) (by decide))).1.mp positive
    · intro representable
      obtain ⟨fits, small, low⟩ :=
        representable first ⟨inside, fun other isOther => PriorityQueue.top_le isTop isOther⟩
      refine ⟨_, nextTimerTimeoutMs_eq isTop fits small, ?_⟩
      split
      · exact ⟨le_rfl, fun entry _ => le_max_left 0 _⟩
      · rename_i late
        have ahead := not_le.mp late
        obtain ⟨sign, less⟩ := narrowed (Int.ediv_nonneg (le_of_lt ahead)
          (show (0 : Int) ≤ 1000000 by decide))
        refine ⟨sign.mpr (low ahead), fun entry isEntry => ?_⟩
        have before : deadline first ≤ deadline entry := PriorityQueue.top_le isTop isEntry
        have whole : (deadline first - now) / 1000000 * 1000000 ≤ deadline first - now :=
          Int.ediv_mul_le _ (by decide)
        have bound := less (low ahead)
        unfold remaining
        omega

/-- A timer that is due in 2^31 milliseconds. -/
def distant : PriorityQueue (id : Int → Int) := PriorityQueue.empty.push (2 ^ 31 * 1000000)

theorem not_isBound_distant :
    nextTimerTimeoutMs distant 0 = some (-2 ^ 31) ∧ ¬ IsBound distant 0 := by
  have negative : nextTimerTimeoutMs distant 0 = some (-2 ^ 31) := by decide
  refine ⟨negative, ?_⟩
  rintro ⟨ms, result, positive, -⟩
  rw [negative] at result
  cases result
  exact absurd positive (by decide)

end AsyncNet.Io
