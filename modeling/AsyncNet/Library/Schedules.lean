/-
This file is about parties whose steps are interleaved. A schedule is the list of their
actions in the order in which they are taken, and an action that is not enabled in the state
it comes to leads nowhere. What every action preserves holds after every schedule. What only
the actions that meet a condition preserve holds after the schedules that heed the condition.
-/

import Mathlib.Data.List.Induction

namespace AsyncNet.Library

universe u v

variable {State : Type u} {Action : Type v} (step : State → Action → Option State)

/-- The state after a schedule. -/
def after : State → List Action → Option State
  | state, [] => some state
  | state, action :: actions => (step state action).bind fun next => after next actions

/-- Every action of a schedule meets a condition on the state it is taken in. -/
def Heeds (condition : State → Action → Prop) : State → List Action → Prop
  | _, [] => True
  | state, action :: actions =>
      condition state action ∧ ∀ next, step state action = some next → Heeds condition next actions

instance decidableHeeds (condition : State → Action → Prop)
    [∀ state action, Decidable (condition state action)] :
    ∀ state actions, Decidable (Heeds step condition state actions)
  | _, [] => isTrue trivial
  | state, action :: actions =>
      match found : step state action with
      | none =>
          decidable_of_iff (condition state action)
            ⟨fun meets => ⟨meets, fun next taken => by rw [found] at taken; cases taken⟩, And.left⟩
      | some next =>
          have := decidableHeeds condition next actions
          decidable_of_iff (condition state action ∧ Heeds step condition next actions)
            ⟨fun both => ⟨both.1, fun other taken => by
                rw [found] at taken
                cases taken
                exact both.2⟩,
              fun both => ⟨both.1, both.2 next found⟩⟩

variable {step}

theorem after_cons {state final : State} {action : Action} {actions : List Action} :
    after step state (action :: actions) = some final ↔
      ∃ next, step state action = some next ∧ after step next actions = some final :=
  Option.bind_eq_some_iff

theorem after_append {state final : State} {actions more : List Action} :
    after step state (actions ++ more) = some final ↔
      ∃ middle, after step state actions = some middle ∧ after step middle more = some final := by
  induction actions generalizing state with
  | nil => exact ⟨fun run => ⟨state, rfl, run⟩, fun ⟨_, same, run⟩ => Option.some.inj same ▸ run⟩
  | cons action actions inductionHypothesis =>
    rw [List.cons_append, after_cons]
    constructor
    · rintro ⟨next, taken, rest⟩
      obtain ⟨middle, front, back⟩ := inductionHypothesis.mp rest
      exact ⟨middle, after_cons.mpr ⟨next, taken, front⟩, back⟩
    · rintro ⟨middle, front, back⟩
      obtain ⟨next, taken, rest⟩ := after_cons.mp front
      exact ⟨next, taken, inductionHypothesis.mpr ⟨middle, rest, back⟩⟩

/-- The last action of a schedule is taken in the state after the others. -/
theorem after_concat {state final : State} {actions : List Action} {action : Action} :
    after step state (actions ++ [action]) = some final ↔
      ∃ middle, after step state actions = some middle ∧ step middle action = some final := by
  rw [after_append]
  refine exists_congr fun middle => and_congr_right fun _ => ?_
  rw [after_cons]
  constructor
  · rintro ⟨next, taken, same⟩
    cases same
    exact taken
  · exact fun taken => ⟨final, taken, rfl⟩

/-- Conditions that agree on every state and action are heeded by the same schedules. -/
theorem heeds_congr {first second : State → Action → Prop}
    (agree : ∀ state action, first state action ↔ second state action) (actions : List Action)
    (state : State) : Heeds step first state actions ↔ Heeds step second state actions := by
  induction actions generalizing state with
  | nil => exact Iff.rfl
  | cons action actions inductionHypothesis =>
    exact and_congr (agree state action)
      (forall_congr' fun next => imp_congr_right fun _ => inductionHypothesis next)

/-- A schedule that heeds a condition does so up to its last action, and there. -/
theorem Heeds.of_concat {condition : State → Action → Prop} {actions : List Action}
    {action : Action} {state : State} (heeds : Heeds step condition state (actions ++ [action])) :
    Heeds step condition state actions ∧
      ∀ middle, after step state actions = some middle → condition middle action := by
  induction actions generalizing state with
  | nil =>
    refine ⟨trivial, fun middle same => ?_⟩
    cases same
    exact heeds.1
  | cons first actions inductionHypothesis =>
    refine ⟨⟨heeds.1, fun next taken => (inductionHypothesis (heeds.2 next taken)).1⟩, ?_⟩
    intro middle run
    obtain ⟨next, taken, rest⟩ := after_cons.mp run
    exact (inductionHypothesis (heeds.2 next taken)).2 middle rest

/-- What every action preserves of a schedule and the state after it holds after every schedule. -/
theorem after_history (holds : List Action → State → Prop) {state final : State}
    (start : holds [] state)
    (preserved : ∀ actions middle action next, after step state actions = some middle →
      holds actions middle → step middle action = some next → holds (actions ++ [action]) next)
    {actions : List Action} (run : after step state actions = some final) :
    holds actions final := by
  induction actions using List.reverseRecOn generalizing final with
  | nil =>
    cases run
    exact start
  | append_singleton actions action inductionHypothesis =>
    obtain ⟨middle, front, last⟩ := after_concat.mp run
    exact preserved actions middle action final front (inductionHypothesis front) last

/-- What the actions that meet a condition preserve holds after the schedules that heed it. -/
theorem after_heeding {condition : State → Action → Prop} (invariant : State → Prop)
    (preserved : ∀ state action next, invariant state → condition state action →
      step state action = some next → invariant next)
    {actions : List Action} {state final : State} (holds : invariant state)
    (heeds : Heeds step condition state actions) (run : after step state actions = some final) :
    invariant final := by
  induction actions generalizing state with
  | nil =>
    cases run
    exact holds
  | cons action actions inductionHypothesis =>
    obtain ⟨next, taken, rest⟩ := after_cons.mp run
    exact inductionHypothesis (preserved state action next holds heeds.1 taken)
      (heeds.2 next taken) rest

/-- Where a condition is exact for one action, it is exact for schedules: a property holds after
every beginning of a schedule if and only if the schedule heeds the condition. -/
theorem forall_front_iff_heeds {sound property : State → Prop} {condition : State → Action → Prop}
    (soundStep : ∀ state action next, sound state → step state action = some next → sound next)
    (exactStep : ∀ state action next, sound state → property state →
      step state action = some next → (property next ↔ condition state action))
    {actions : List Action} {state final : State} (isSound : sound state) (holds : property state)
    (run : after step state actions = some final) :
    (∀ front middle, front <+: actions → after step state front = some middle → property middle) ↔
      Heeds step condition state actions := by
  induction actions generalizing state with
  | nil =>
    refine iff_of_true (fun front middle isPrefix reached => ?_) trivial
    rw [List.prefix_nil.mp isPrefix] at reached
    cases reached
    exact holds
  | cons action actions inductionHypothesis =>
    obtain ⟨next, taken, rest⟩ := after_cons.mp run
    have exact' := exactStep state action next isSound holds taken
    have later (kept : property next) :=
      inductionHypothesis (soundStep state action next isSound taken) kept rest
    constructor
    · intro always
      have kept : property next :=
        always [action] next (List.prefix_append [action] actions)
          (after_cons.mpr ⟨next, taken, rfl⟩)
      refine ⟨exact'.mp kept, fun other same => ?_⟩
      cases taken.symm.trans same
      refine (later kept).mp fun front middle isPrefix reached => ?_
      exact always (action :: front) middle (List.cons_prefix_cons.mpr ⟨rfl, isPrefix⟩)
        (after_cons.mpr ⟨next, taken, reached⟩)
    · rintro ⟨first, heeds⟩ front middle isPrefix reached
      have kept := exact'.mpr first
      cases front with
      | nil =>
        cases reached
        exact holds
      | cons head front =>
        obtain ⟨rfl, tail⟩ := List.cons_prefix_cons.mp isPrefix
        obtain ⟨other, same, reached⟩ := after_cons.mp reached
        cases taken.symm.trans same
        exact (later kept).mpr (heeds next taken) front middle tail reached

/-- A property that an action keeps, and gives, just when it meets a condition holds after a schedule
just when it held before and the schedule heeds the condition. -/
theorem after_iff_heeds {property : State → Prop} {condition : State → Action → Prop}
    (exactStep : ∀ state action next, step state action = some next →
      (property next ↔ property state ∧ condition state action))
    {actions : List Action} {state final : State} (run : after step state actions = some final) :
    property final ↔ property state ∧ Heeds step condition state actions := by
  induction actions generalizing state with
  | nil =>
    cases run
    exact (and_iff_left trivial).symm
  | cons action actions inductionHypothesis =>
    obtain ⟨next, taken, rest⟩ := after_cons.mp run
    rw [inductionHypothesis rest, exactStep state action next taken, and_assoc]
    refine and_congr_right fun _ => and_congr_right fun _ => ⟨fun heeds other same => ?_,
      fun heeds => heeds next taken⟩
    cases taken.symm.trans same
    exact heeds

/-- What every action preserves holds after every schedule. -/
theorem after_invariant (invariant : State → Prop)
    (preserved : ∀ state action next, invariant state → step state action = some next →
      invariant next)
    {actions : List Action} {state final : State} (holds : invariant state)
    (run : after step state actions = some final) : invariant final :=
  after_history (fun _ => invariant) holds
    (fun _ middle action next _ before taken => preserved middle action next before taken) run

/-- Where a measure bounds the actions of a kind, as long as an invariant holds, a schedule has only
so many of them. -/
theorem countP_le_of_measure (invariant : State → Prop) (measure : State → Nat)
    {counts : Action → Bool}
    (preserved : ∀ state action next, invariant state → step state action = some next →
      invariant next)
    (decreases : ∀ state action next, invariant state → step state action = some next →
      measure next + (if counts action then 1 else 0) ≤ measure state)
    {actions : List Action} {state final : State} (holds : invariant state)
    (run : after step state actions = some final) :
    actions.countP counts + measure final ≤ measure state := by
  induction actions generalizing state with
  | nil =>
    cases run
    exact Nat.le_of_eq (Nat.zero_add _)
  | cons action actions inductionHypothesis =>
    obtain ⟨next, taken, rest⟩ := after_cons.mp run
    have first := decreases state action next holds taken
    have later := inductionHypothesis (preserved state action next holds taken) rest
    rw [List.countP_cons]
    omega

end AsyncNet.Library
