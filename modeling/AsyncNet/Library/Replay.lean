/-
This file is about a process that is given its input in pieces and that, with every piece, is
run again on all of the input that has come. Where each run adds a number to a measure of the
state that depends on the input alone, the result is that of one run on the whole input if and
only if the runs before the last one do nothing, or no run on the whole input succeeds.
-/

import Mathlib.Data.List.Basic

namespace AsyncNet.Library

universe u v

variable {Symbol : Type u} {State : Type v} (act : List Symbol → State → Option State)

/-- A run does nothing. -/
def Idle (input : List Symbol) : Prop := ∀ state, act input state = some state

/-- A run fails. -/
def Fails (input : List Symbol) : Prop := ∀ state, act input state = none

/-- The runs on the growing input, after some of it. -/
def replay : List Symbol → List (List Symbol) → State → Option State
  | _, [], state => some state
  | held, piece :: pieces, state =>
      (act (held ++ piece) state).bind (replay (held ++ piece) pieces)

/-- A run fails in every state or adds to the measure what its input counts, and a run that counts
nothing does nothing. Where a beginning of the whole input does nothing, less of it does nothing. -/
structure Counted (count : List Symbol → Nat) (measure : State → Nat) (whole : List Symbol) :
    Prop where
  together : ∀ input, Fails act input ∨ ∀ state, ∃ next, act input state = some next ∧
    measure next = measure state + count input
  idle : ∀ input, count input = 0 → ¬ Fails act input → Idle act input
  less : ∀ input more, input ++ more <+: whole → Idle act (input ++ more) → Idle act input

variable {act} {count : List Symbol → Nat} {measure : State → Nat} {whole : List Symbol}

/-- Runs on input that does nothing do nothing. -/
theorem replay_idle (counted : Counted act count measure whole) (pieces : List (List Symbol))
    (held : List Symbol) (begins : held ++ pieces.flatten <+: whole)
    (idle : Idle act (held ++ pieces.flatten)) (state : State) :
    replay act held pieces state = some state := by
  induction pieces generalizing held with
  | nil => rfl
  | cons piece pieces inductionHypothesis =>
    rw [List.flatten_cons, ← List.append_assoc] at begins idle
    rw [replay, counted.less _ _ begins idle state, Option.bind_some]
    exact inductionHypothesis (held ++ piece) begins idle

/-- Runs that succeed only add to the measure, and the last of them adds what all of its input
counts. -/
theorem replay_measure (counted : Counted act count measure whole) (pieces : List (List Symbol))
    (held : List Symbol) (state final : State) (run : replay act held pieces state = some final) :
    measure state ≤ measure final ∧
      (pieces ≠ [] → measure state + count (held ++ pieces.flatten) ≤ measure final ∧
        ¬ Fails act (held ++ pieces.flatten)) := by
  induction pieces generalizing held state with
  | nil =>
    cases run
    exact ⟨Nat.le_refl _, fun some => absurd rfl some⟩
  | cons piece pieces inductionHypothesis =>
    obtain fails | runs := counted.together (held ++ piece)
    · rw [replay, fails state] at run
      cases run
    · obtain ⟨next, step, added⟩ := runs state
      rw [replay, step, Option.bind_some] at run
      obtain ⟨grows, last⟩ := inductionHypothesis (held ++ piece) next run
      rw [List.flatten_cons, ← List.append_assoc]
      refine ⟨by omega, fun _ => ?_⟩
      by_cases ended : pieces = []
      · subst ended
        rw [List.flatten_nil, List.append_nil]
        refine ⟨by omega, fun fails => ?_⟩
        rw [fails state] at step
        cases step
      · obtain ⟨more, succeeds⟩ := last ended
        exact ⟨by omega, succeeds⟩

/-- The result is that of one run if and only if the earlier runs do nothing, or none succeeds. -/
theorem replay_eq_iff (counted : Counted act count measure whole) (empty : Idle act [])
    (pieces : List (List Symbol)) (begins : pieces.flatten <+: whole) (state : State) :
    (replay act [] pieces state).bind (act whole) = act whole state ↔
      Idle act pieces.flatten ∨ Fails act whole := by
  constructor
  · intro same
    obtain fails | runs := counted.together whole
    · exact Or.inr fails
    · left
      by_cases none : pieces = []
      · subst none
        exact empty
      · obtain ⟨single, one, added⟩ := runs state
        rw [one] at same
        obtain ⟨middle, run, finish⟩ := Option.bind_eq_some_iff.mp same
        obtain ⟨final, again, more⟩ := runs middle
        cases finish.symm.trans again
        obtain ⟨counts, succeeds⟩ := (replay_measure counted pieces [] state middle run).2 none
        rw [List.nil_append] at counts succeeds
        exact counted.idle _ (by omega) succeeds
  · rintro (idle | fails)
    · rw [replay_idle counted pieces [] begins idle state, Option.bind_some]
    · rw [fails state, Option.bind_eq_none_iff]
      exact fun middle _ => fails middle

end AsyncNet.Library
