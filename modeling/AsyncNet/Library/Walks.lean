/-
This file is about walks over the natural numbers: from a position a step leads to the next
one, or the walk ends. Where every step starts below a bound, a walk that makes more steps
than there are positions has come back to one of them, and so it never ends.
-/

import Mathlib.Combinatorics.Pigeonhole

namespace AsyncNet.Library

/-- The position after a number of steps, unless the walk has ended. -/
def walk (next : Nat → Option Nat) : Nat → Nat → Option Nat
  | 0, position => some position
  | steps + 1, position => (next position).bind (walk next steps)

section Walks

variable {next : Nat → Option Nat} {bound position : Nat}

theorem walk_add (first second position : Nat) :
    walk next (first + second) position = (walk next first position).bind (walk next second) := by
  induction first generalizing position with
  | zero => rw [Nat.zero_add, walk, Option.bind_some]
  | succ first inductionHypothesis =>
    rw [Nat.succ_add, walk, walk, Option.bind_assoc]
    exact congrArg _ (funext inductionHypothesis)

/-- A walk that goes on has been at a position below the bound. -/
theorem exists_walk_lt (bounded : ∀ position after, next position = some after → position < bound)
    {steps : Nat} (goesOn : (walk next (bound + 1) position).isSome) (few : steps ≤ bound) :
    ∃ visited, walk next steps position = some visited ∧ visited < bound := by
  obtain ⟨more, split⟩ := Nat.exists_eq_add_of_le few
  rw [split, Nat.add_assoc, walk_add] at goesOn
  cases here : walk next steps position with
  | none =>
    rw [here] at goesOn
    cases goesOn
  | some visited =>
    rw [here, Option.bind_some, walk] at goesOn
    cases step : next visited with
    | none =>
      rw [step] at goesOn
      cases goesOn
    | some after => exact ⟨visited, rfl, bounded visited after step⟩

/-- A walk of more steps than there are positions is at one of them twice. -/
theorem exists_walk_eq (bounded : ∀ position after, next position = some after → position < bound)
    (goesOn : (walk next (bound + 1) position).isSome) :
    ∃ first second, first < second ∧ second ≤ bound ∧
      walk next first position = walk next second position := by
  have visits (steps : Nat) (member : steps ∈ Finset.range (bound + 1)) :
      (walk next steps position).getD 0 ∈ Finset.range bound := by
    obtain ⟨visited, here, below⟩ := exists_walk_lt bounded goesOn
      (Nat.le_of_lt_succ (Finset.mem_range.mp member))
    rw [here]
    exact Finset.mem_range.mpr below
  have more : (Finset.range bound).card < (Finset.range (bound + 1)).card := by
    rw [Finset.card_range, Finset.card_range]
    exact Nat.lt_succ_self bound
  have same (first second : Nat) (few : first ≤ bound) (few' : second ≤ bound)
      (equal : (walk next first position).getD 0 = (walk next second position).getD 0) :
      walk next first position = walk next second position := by
    obtain ⟨visited, here, _⟩ := exists_walk_lt bounded goesOn few
    obtain ⟨visited', here', _⟩ := exists_walk_lt bounded goesOn few'
    rw [here, here'] at equal ⊢
    exact congrArg some equal
  obtain ⟨first, member, second, member', distinct, equal⟩ :=
    Finset.exists_ne_map_eq_of_card_lt_of_maps_to more visits
  have few := Nat.le_of_lt_succ (Finset.mem_range.mp member)
  have few' := Nat.le_of_lt_succ (Finset.mem_range.mp member')
  obtain less | less := Nat.lt_or_gt_of_ne distinct
  · exact ⟨first, second, less, few', same first second few few' equal⟩
  · exact ⟨second, first, less, few, same second first few' few equal.symm⟩

/-- A walk of more steps than there are positions never ends. -/
theorem walk_goesOn (bounded : ∀ position after, next position = some after → position < bound)
    (goesOn : (walk next (bound + 1) position).isSome) (steps : Nat) :
    (walk next steps position).isSome := by
  obtain ⟨first, second, less, few, same⟩ := exists_walk_eq bounded goesOn
  induction steps using Nat.strongRecOn with
  | ind steps inductionHypothesis =>
    by_cases short : steps ≤ bound
    · obtain ⟨visited, here, _⟩ := exists_walk_lt bounded goesOn short
      rw [here]
      rfl
    · -- the walk is where it was one round earlier
      obtain ⟨more, rfl⟩ := Nat.exists_eq_add_of_le (show second ≤ steps by omega)
      have earlier := inductionHypothesis (first + more) (by omega)
      rw [walk_add] at earlier ⊢
      rw [← same]
      exact earlier

end Walks

end AsyncNet.Library
