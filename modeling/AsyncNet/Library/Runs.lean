/-
This file is about runs of a step that can fail: folding the step over a list of
inputs in `Except`. What every step preserves, the run preserves. Where only some steps
preserve it, the run does if each of its steps meets a condition on the state it is
taken in and on its input. The last section is about steps that cannot fail: there the
condition can be exact, and then a property holds at every point of a run if and only if
every step of it meets the condition.
-/

import Mathlib.Data.List.Basic

namespace AsyncNet.Library

universe u v w

/-- From a computation that succeeds, the value each of its steps produced. -/
theorem bind_ok {Failure : Type u} {Value Result : Type v} {computation : Except Failure Value}
    {next : Value → Except Failure Result} {result : Result}
    (run : computation >>= next = .ok result) :
    ∃ value, computation = .ok value ∧ next value = .ok result := by
  cases computation with
  | error failure => cases run
  | ok value => exact ⟨value, rfl, run⟩

/-- Two continuations that agree on what a computation produces can be exchanged. -/
theorem bind_congr_of_ok {Failure : Type u} {Value Result : Type v}
    {computation : Except Failure Value} {left right : Value → Except Failure Result}
    (agree : ∀ value, computation = .ok value → left value = right value) :
    computation >>= left = computation >>= right := by
  cases computation with
  | error failure => rfl
  | ok value => exact agree value rfl

theorem map_ok {Failure : Type u} {Value : Type v} {Result : Type w}
    {computation : Except Failure Value} {next : Value → Result} {result : Result}
    (run : computation.map next = .ok result) :
    ∃ value, computation = .ok value ∧ next value = result := by
  cases computation with
  | error failure => cases run
  | ok value => exact ⟨value, rfl, Except.ok.inj run⟩

section Runs

variable {Failure : Type u} {State : Type v} {Input : Type w}
  (step : State → Input → Except Failure State)

/-- Every step of a run meets a condition on the state it is taken in and on its input. -/
def Along (condition : State → Input → Prop) : State → List Input → Prop
  | _, [] => True
  | state, input :: inputs =>
      condition state input ∧ ∀ next, step state input = .ok next → Along condition next inputs

variable {step}

/-- What the steps that meet a condition preserve holds at the end of a run of such steps. -/
theorem foldlM_along {condition : State → Input → Prop} {invariant : State → Prop}
    (preserved : ∀ state input next, invariant state → condition state input →
      step state input = .ok next → invariant next)
    (inputs : List Input) (state final : State) (holds : invariant state)
    (along : Along step condition state inputs) (run : inputs.foldlM step state = .ok final) :
    invariant final := by
  induction inputs generalizing state with
  | nil =>
    cases run
    exact holds
  | cons input inputs inductionHypothesis =>
    rw [List.foldlM_cons] at run
    obtain ⟨next, first, later⟩ := bind_ok run
    exact inductionHypothesis next (preserved state input next holds along.1 first)
      (along.2 next first) later

theorem along_of_forall {condition : State → Input → Prop}
    (always : ∀ state input, condition state input) (inputs : List Input) (state : State) :
    Along step condition state inputs := by
  induction inputs generalizing state with
  | nil => trivial
  | cons input inputs inductionHypothesis =>
    exact ⟨always state input, fun next _ => inductionHypothesis next⟩

/-- What every step preserves holds at the end of a run. -/
theorem foldlM_invariant {invariant : State → Prop}
    (preserved : ∀ state input next, invariant state → step state input = .ok next →
      invariant next)
    (inputs : List Input) (state final : State) (holds : invariant state)
    (run : inputs.foldlM step state = .ok final) : invariant final :=
  foldlM_along (fun state input next before _ => preserved state input next before) inputs state
    final holds (along_of_forall (fun _ _ => trivial) inputs state) run

end Runs

section Total

variable {State : Type v} {Input : Type w} (step : State → Input → State)

/-- Every step of a run that cannot fail meets a condition on the state and on its input. -/
def Throughout (condition : State → Input → Prop) : State → List Input → Prop
  | _, [] => True
  | state, input :: inputs =>
      condition state input ∧ Throughout condition (step state input) inputs

instance decidableThroughout (condition : State → Input → Prop)
    [∀ state input, Decidable (condition state input)] :
    ∀ state inputs, Decidable (Throughout step condition state inputs)
  | _, [] => isTrue trivial
  | state, input :: inputs =>
      have := decidableThroughout condition (step state input) inputs
      inferInstanceAs (Decidable (condition state input ∧ _))

variable {step}

theorem foldl_throughout {condition : State → Input → Prop} {invariant : State → Prop}
    (preserved : ∀ state input, invariant state → condition state input →
      invariant (step state input))
    (inputs : List Input) (state : State) (holds : invariant state)
    (throughout : Throughout step condition state inputs) :
    invariant (inputs.foldl step state) := by
  induction inputs generalizing state with
  | nil => exact holds
  | cons input inputs inductionHypothesis =>
    exact inductionHypothesis (step state input) (preserved state input holds throughout.1)
      throughout.2

theorem foldl_invariant {invariant : State → Prop}
    (preserved : ∀ state input, invariant state → invariant (step state input))
    (inputs : List Input) (state : State) (holds : invariant state) :
    invariant (inputs.foldl step state) := by
  induction inputs generalizing state with
  | nil => exact holds
  | cons input inputs inductionHypothesis =>
    exact inductionHypothesis (step state input) (preserved state input holds)

theorem throughout_append {condition : State → Input → Prop} (inputs more : List Input)
    (state : State) :
    Throughout step condition state (inputs ++ more) ↔
      Throughout step condition state inputs ∧
        Throughout step condition (inputs.foldl step state) more := by
  induction inputs generalizing state with
  | nil => exact (iff_of_eq (true_and _)).symm
  | cons input inputs inductionHypothesis =>
    exact (and_congr_right fun _ => inductionHypothesis (step state input)).trans and_assoc.symm

/-- Every step of a run meets a condition: the same, in terms of what comes before the step. -/
theorem throughout_iff_forall_front {condition : State → Input → Prop} (inputs : List Input)
    (state : State) :
    Throughout step condition state inputs ↔
      ∀ front input, front ++ [input] <+: inputs → condition (front.foldl step state) input := by
  constructor
  · intro throughout front input isPrefix
    obtain ⟨rest, rfl⟩ := isPrefix
    rw [List.append_assoc, throughout_append] at throughout
    exact throughout.2.1
  · induction inputs generalizing state with
    | nil => exact fun _ => trivial
    | cons first inputs inductionHypothesis =>
      intro all
      refine ⟨all [] first (List.cons_prefix_cons.mpr ⟨rfl, List.nil_prefix⟩), ?_⟩
      refine inductionHypothesis (step state first) fun front input isPrefix => ?_
      exact all (first :: front) input (List.cons_prefix_cons.mpr ⟨rfl, isPrefix⟩)

/-- Where a condition is exact for one step, it is exact for runs: the property holds at every point
of a run if and only if every step meets the condition. -/
theorem forall_prefix_iff_throughout {sound property : State → Prop}
    {condition : State → Input → Prop}
    (soundStep : ∀ state input, sound state → sound (step state input))
    (exactStep : ∀ state input, sound state → property state →
      (property (step state input) ↔ condition state input))
    (inputs : List Input) (state : State) (isSound : sound state) (holds : property state) :
    (∀ front, front <+: inputs → property (front.foldl step state)) ↔
      Throughout step condition state inputs := by
  induction inputs generalizing state with
  | nil =>
    refine iff_of_true (fun front isPrefix => ?_) trivial
    rw [List.prefix_nil.mp isPrefix]
    exact holds
  | cons input inputs inductionHypothesis =>
    have exact' := exactStep state input isSound holds
    have later (next : property (step state input)) :=
      inductionHypothesis (step state input) (soundStep state input isSound) next
    constructor
    · intro always
      have next : property (step state input) :=
        always [input] (List.prefix_append [input] inputs)
      refine ⟨exact'.mp next, (later next).mp fun front isPrefix => ?_⟩
      exact always (input :: front) (List.cons_prefix_cons.mpr ⟨rfl, isPrefix⟩)
    · rintro ⟨first, rest⟩ front isPrefix
      have next := exact'.mpr first
      cases front with
      | nil => exact holds
      | cons head front =>
        obtain ⟨rfl, tail⟩ := List.cons_prefix_cons.mp isPrefix
        exact (later next).mpr rest front tail

/-- A property that is never regained holds at the end of a run if and only if it holds at the start
and every step meets the condition that is exact for it. -/
theorem foldl_iff_throughout {sound property : State → Prop} {condition : State → Input → Prop}
    (soundStep : ∀ state input, sound state → sound (step state input))
    (exactStep : ∀ state input, sound state →
      (property (step state input) ↔ property state ∧ condition state input))
    (inputs : List Input) (state : State) (isSound : sound state) :
    property (inputs.foldl step state) ↔
      property state ∧ Throughout step condition state inputs := by
  induction inputs generalizing state with
  | nil => exact (and_iff_left trivial).symm
  | cons input inputs inductionHypothesis =>
    have later := inductionHypothesis (step state input) (soundStep state input isSound)
    rw [exactStep state input isSound] at later
    exact later.trans and_assoc

end Total

end AsyncNet.Library
