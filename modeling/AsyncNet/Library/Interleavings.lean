/-
This file is about machines that run side by side, one for each key. An item is for the
machine of its key, or for none, and an interleaving of the machines takes each item to its
own machine and leaves the others where they are. If the items of every key are a run of its
machine, then in whatever order the items come they are an interleaving, and the other way
round.
-/

import Mathlib.Logic.Function.Basic
import Mathlib.Data.List.Basic

namespace AsyncNet.Library

universe u v w

variable {Key : Type u} {Item : Type v} {Stage : Type w}

/-- A run of one machine. -/
inductive Run (step : Stage → Item → Stage → Prop) : Stage → List Item → Stage → Prop
  | nil (stage : Stage) : Run step stage [] stage
  | cons {first next last : Stage} {item : Item} {items : List Item}
      (taken : step first item next) (later : Run step next items last) :
      Run step first (item :: items) last

theorem Run.eq_of_nil {step : Stage → Item → Stage → Prop} {first last : Stage}
    (run : Run step first [] last) : first = last := by
  cases run
  rfl

theorem Run.singleton {step : Stage → Item → Stage → Prop} {first last : Stage} {item : Item}
    (taken : step first item last) : Run step first [item] last := .cons taken (.nil last)

section Interleaving

variable [DecidableEq Key] {keyOf : Item → Option Key} {step : Key → Stage → Item → Stage → Prop}

/-- A run of all machines. -/
inductive Interleaved (keyOf : Item → Option Key) (step : Key → Stage → Item → Stage → Prop) :
    (Key → Stage) → List Item → (Key → Stage) → Prop
  | nil (stages : Key → Stage) : Interleaved keyOf step stages [] stages
  | aside {first last : Key → Stage} {item : Item} {items : List Item} (none : keyOf item = none)
      (later : Interleaved keyOf step first items last) :
      Interleaved keyOf step first (item :: items) last
  | cons {first last : Key → Stage} {item : Item} {items : List Item} {key : Key} {stage : Stage}
      (own : keyOf item = some key) (taken : step key (first key) item stage)
      (later : Interleaved keyOf step (Function.update first key stage) items last) :
      Interleaved keyOf step first (item :: items) last

theorem Interleaved.append {first middle last : Key → Stage} {items more : List Item}
    (interleaved : Interleaved keyOf step first items middle)
    (later : Interleaved keyOf step middle more last) :
    Interleaved keyOf step first (items ++ more) last := by
  induction interleaved with
  | nil stages => exact later
  | aside none _ inductionHypothesis => exact .aside none (inductionHypothesis later)
  | cons own taken _ inductionHypothesis => exact .cons own taken (inductionHypothesis later)

/-- A run of one machine takes that machine on. -/
theorem interleaved_of_run {key : Key} {stage last : Stage} {items : List Item}
    (run : Run (step key) stage items last) (own : ∀ item ∈ items, keyOf item = some key)
    (first : Key → Stage) (here : first key = stage) :
    Interleaved keyOf step first items (Function.update first key last) := by
  induction run generalizing first with
  | nil stage =>
    rw [← here, Function.update_eq_self]
    exact .nil first
  | @cons stage next last item items taken _ inductionHypothesis =>
    have later := inductionHypothesis
      (fun other member => own other (List.mem_cons_of_mem item member))
      (Function.update first key next) (Function.update_self key next first)
    rw [Function.update_idem] at later
    exact .cons (own item List.mem_cons_self) (here ▸ taken) later

/-- In an interleaving, the items of every key are a run of its machine. -/
theorem Interleaved.run {first last : Key → Stage} {items : List Item}
    (interleaved : Interleaved keyOf step first items last) (key : Key) :
    Run (step key) (first key) (items.filter fun item => keyOf item = some key) (last key) := by
  induction interleaved with
  | nil stages => exact .nil (stages key)
  | @aside first last item items none _ inductionHypothesis =>
    rw [List.filter_cons_of_neg (by rw [none]; simp)]
    exact inductionHypothesis
  | @cons first last item items other stage own taken _ inductionHypothesis =>
    by_cases same : other = key
    · subst same
      rw [Function.update_self] at inductionHypothesis
      rw [List.filter_cons_of_pos (by simp [own])]
      exact .cons taken inductionHypothesis
    · rw [Function.update_of_ne (Ne.symm same)] at inductionHypothesis
      rw [List.filter_cons_of_neg (by simp [own, same])]
      exact inductionHypothesis

/-- A machine that takes no step has no item. -/
theorem Interleaved.unused {first last : Key → Stage} {items : List Item}
    (interleaved : Interleaved keyOf step first items last) {key : Key}
    (stuck : ∀ item stage, ¬ step key (first key) item stage) :
    ∀ item ∈ items, keyOf item ≠ some key := by
  intro item member own
  have mine : item ∈ items.filter fun item => keyOf item = some key :=
    List.mem_filter.mpr ⟨member, decide_eq_true own⟩
  have run := interleaved.run key
  generalize items.filter (fun item => keyOf item = some key) = left at mine run
  generalize last key = reached at run
  cases run with
  | nil => exact absurd mine List.not_mem_nil
  | cons taken _ => exact stuck _ _ taken

/-- A machine without items can be at any stage. -/
theorem Interleaved.replace {first last : Key → Stage} {items : List Item}
    (interleaved : Interleaved keyOf step first items last) {key : Key}
    (unused : ∀ item ∈ items, keyOf item ≠ some key) (stage : Stage) :
    Interleaved keyOf step (Function.update first key stage) items
      (Function.update last key stage) := by
  induction interleaved with
  | nil stages => exact .nil _
  | @aside first last item items none _ inductionHypothesis =>
    exact .aside none (inductionHypothesis fun other member =>
      unused other (List.mem_cons_of_mem item member))
  | @cons first last item items other next own taken _ inductionHypothesis =>
    have different : other ≠ key := fun same => unused item List.mem_cons_self (same ▸ own)
    have later := inductionHypothesis fun other member =>
      unused other (List.mem_cons_of_mem item member)
    rw [Function.update_comm different] at later
    exact .cons own (by rw [Function.update_of_ne different]; exact taken) later

end Interleaving

end AsyncNet.Library
