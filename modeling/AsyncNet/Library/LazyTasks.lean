/-
This file is about programs that create tasks, start a task by awaiting it, and wait for the
answers of their surroundings. A task that has been created is a value: it does nothing before it
is awaited, it can be moved from one variable to another, and awaiting it takes it away.

The meaning of a program is a resumption, which shows the operations it performs and its result.
There an awaited task is put in the place of the `await`. The second half of the file is a machine
that never looks into a task: it has a stack of the programs that await one another. Its steps
keep the meaning, and it comes to a wait or to the end.
-/

import AsyncNet.Library.Bindings
import Mathlib.Logic.Function.Iterate

namespace AsyncNet.Library

universe u

/-! ### Resumptions -/

/-- What is seen of a program: it is done, or it performs an operation and goes on with the
answer, or it does what has no meaning. -/
inductive Resumption (Operation Response Result : Type u) : Type u where
  | done (result : Result)
  | perform (operation : Operation) (next : Response → Resumption Operation Response Result)
  | undefined

namespace Resumption

variable {Operation Response Result Other : Type u}

/-- The first resumption, and with its result the second one. -/
def andThen (next : Result → Resumption Operation Response Other) :
    Resumption Operation Response Result → Resumption Operation Response Other
  | .done result => next result
  | .perform operation continuing =>
      .perform operation fun response => (continuing response).andThen next
  | .undefined => .undefined

/-- The resumption, if it does not begin with what has no meaning. -/
def meant : Resumption Operation Response Result → Option (Resumption Operation Response Result)
  | .undefined => none
  | resumption => some resumption

theorem meant_eq_some {resumption other : Resumption Operation Response Result}
    (known : resumption.meant = some other) : resumption ≠ .undefined ∧ other = resumption := by
  cases resumption with
  | undefined => cases known
  | done result => exact ⟨nofun, (Option.some.inj known).symm⟩
  | perform operation next => exact ⟨nofun, (Option.some.inj known).symm⟩

end Resumption

/-! ### Programs -/

/-- What a program does next. -/
inductive Program (Operation Response Failure Value : Type u) : Type u where
  /-- It returns a value, or a failure leaves it. -/
  | finish (result : Except Failure Value)
  | perform (operation : Operation) (next : Response → Program Operation Response Failure Value)
  /-- A new task, in the variable. -/
  | assign (name : Nat) (task next : Program Operation Response Failure Value)
  /-- The task of one variable goes to another one. -/
  | move (target source : Nat) (next : Program Operation Response Failure Value)
  /-- The task of the variable is run, and then the program goes on with its result. -/
  | await (name : Nat)
      (next : Except Failure Value → Program Operation Response Failure Value)

section Programs

variable {Operation Response Failure Value : Type u}

/-- What the program means, when the variables hold tasks that mean this. -/
def Program.meaning : Program Operation Response Failure Value →
    (Nat → Option (Resumption Operation Response (Except Failure Value))) →
    Resumption Operation Response (Except Failure Value)
  | .finish result, _ => .done result
  | .perform operation next, held =>
      .perform operation fun response => (next response).meaning held
  | .assign name task next, held =>
      next.meaning (Function.update held name (some (task.meaning fun _ => none)))
  | .move target source next, held =>
      next.meaning (if target = source then held
        else Function.update (Function.update held source none) target (held source))
  | .await name next, held =>
      match held name with
      | none => .undefined
      | some task =>
          task.andThen fun result => (next result).meaning (Function.update held name none)

/-- What tasks mean. -/
def meanings (held : Bindings Nat (Program Operation Response Failure Value)) (name : Nat) :
    Option (Resumption Operation Response (Except Failure Value)) :=
  (Bindings.read name held).map fun task => task.meaning fun _ => none

theorem meanings_write (name : Nat)
    (content : Option (Program Operation Response Failure Value))
    (held : Bindings Nat (Program Operation Response Failure Value)) :
    meanings (Bindings.write name content held) =
      Function.update (meanings held) name
        (content.map fun task => task.meaning fun _ => none) := by
  funext other
  unfold meanings
  rw [congrFun (Bindings.read_write name content held) other]
  by_cases same : other = name
  · rw [same, Function.update_self, Function.update_self]
  · rw [Function.update_of_ne same, Function.update_of_ne same]

/-! ### A machine with a stack -/

/-- A program that awaits a task: what it does with the result, and its variables. -/
structure Caller (Operation Response Failure Value : Type u) where
  next : Except Failure Value → Program Operation Response Failure Value
  held : Bindings Nat (Program Operation Response Failure Value)

/-- Where the machine is. The callers await one another, the first one awaits the program. -/
inductive Config (Operation Response Failure Value : Type u) where
  | running (program : Program Operation Response Failure Value)
      (held : Bindings Nat (Program Operation Response Failure Value))
      (callers : List (Caller Operation Response Failure Value))
  | waiting (operation : Operation) (next : Response → Program Operation Response Failure Value)
      (held : Bindings Nat (Program Operation Response Failure Value))
      (callers : List (Caller Operation Response Failure Value))
  | finished (result : Except Failure Value)
  | undefined

namespace Config

/-- One step of the running program. -/
def step : Config Operation Response Failure Value → Config Operation Response Failure Value
  | .running (.finish result) _ [] => .finished result
  | .running (.finish result) _ (caller :: callers) =>
      .running (caller.next result) caller.held callers
  | .running (.perform operation next) held callers => .waiting operation next held callers
  | .running (.assign name task next) held callers =>
      .running next (Bindings.write name (some task) held) callers
  | .running (.move target source next) held callers =>
      .running next (Bindings.move target source held) callers
  | .running (.await name next) held callers =>
      match Bindings.read name held with
      | none => .undefined
      | some task =>
          .running task [] ({ next := next, held := Bindings.clear name held } :: callers)
  | config => config

/-- The program goes on with the answer that it waits for. -/
def answer (response : Response) :
    Config Operation Response Failure Value → Config Operation Response Failure Value
  | .waiting _ next held callers => .running (next response) held callers
  | config => config

/-- The machine does not take a step by itself. -/
def settled : Config Operation Response Failure Value → Bool
  | .running .. => false
  | _ => true

/-- What the callers do with what they await. -/
def returning (callers : List (Caller Operation Response Failure Value))
    (awaited : Resumption Operation Response (Except Failure Value)) :
    Resumption Operation Response (Except Failure Value) :=
  callers.foldl (fun awaited caller =>
    awaited.andThen fun result => (caller.next result).meaning (meanings caller.held)) awaited

/-- What is seen of the machine. -/
def meaning : Config Operation Response Failure Value →
    Resumption Operation Response (Except Failure Value)
  | .running program held callers => returning callers (program.meaning (meanings held))
  | .waiting operation next held callers =>
      .perform operation fun response =>
        returning callers ((next response).meaning (meanings held))
  | .finished result => .done result
  | .undefined => .undefined

theorem returning_undefined (callers : List (Caller Operation Response Failure Value)) :
    returning callers .undefined = .undefined := by
  induction callers with
  | nil => rfl
  | cons caller callers inductionHypothesis => exact inductionHypothesis

theorem returning_perform (callers : List (Caller Operation Response Failure Value))
    (operation : Operation)
    (next : Response → Resumption Operation Response (Except Failure Value)) :
    returning callers (.perform operation next) =
      .perform operation fun response => returning callers (next response) := by
  induction callers generalizing next with
  | nil => rfl
  | cons caller callers inductionHypothesis => exact inductionHypothesis _

/-- A step changes nothing that is seen. -/
theorem meaning_step (config : Config Operation Response Failure Value) :
    config.step.meaning = config.meaning := by
  match config with
  | .running (.finish result) _ [] => rfl
  | .running (.finish result) _ (caller :: callers) => rfl
  | .running (.perform operation next) held callers =>
    exact (returning_perform callers operation _).symm
  | .running (.assign name task next) held callers =>
    rw [step, meaning, meaning, meanings_write]
    rfl
  | .running (.move target source next) held callers =>
    rw [step, meaning, meaning, Program.meaning, Bindings.move]
    by_cases same : target = source
    · rw [if_pos same, if_pos same]
    · rw [if_neg same, if_neg same, meanings_write]
      exact congrArg (fun held => returning callers (next.meaning
        (Function.update held target (meanings _ source)))) (meanings_write source none _)
  | .running (.await name next) held callers =>
    have found : meanings held name =
        (Bindings.read name held).map fun task => task.meaning fun _ => none := rfl
    rw [step, meaning, Program.meaning, found]
    cases Bindings.read name held with
    | none => exact (returning_undefined callers).symm
    | some task =>
      show returning callers ((task.meaning fun _ => none).andThen fun result =>
        (next result).meaning (meanings (Bindings.write name none held))) = _
      rw [meanings_write]
      rfl
  | .waiting operation next held callers => rfl
  | .finished result => rfl
  | .undefined => rfl

theorem meaning_steps (count : Nat) (config : Config Operation Response Failure Value) :
    (step^[count] config).meaning = config.meaning := by
  induction count generalizing config with
  | zero => rfl
  | succ count inductionHypothesis =>
    rw [Function.iterate_succ_apply, inductionHypothesis, meaning_step]

/-! ### The machine comes to a wait or to the end -/

/-- After some steps the machine takes none by itself. -/
def Settles (config : Config Operation Response Failure Value) : Prop :=
  ∃ count, (step^[count] config).settled = true

theorem settles_of_step {config : Config Operation Response Failure Value}
    (later : config.step.Settles) : config.Settles := by
  obtain ⟨count, settled⟩ := later
  exact ⟨count + 1, settled⟩

/-- Whatever these callers are given, the machine comes to a wait or to the end. -/
def Returns (callers : List (Caller Operation Response Failure Value)) : Prop :=
  ∀ result held, Settles (.running (.finish result) held callers)

/-- What a program that finishes at once has in its variables does not matter. A task that is
awaited settles by the same argument, which is why the tasks in the variables are part of the
induction. -/
theorem settles_running (program : Program Operation Response Failure Value)
    (held : Bindings Nat (Program Operation Response Failure Value))
    (callers : List (Caller Operation Response Failure Value))
    (tasks : ∀ name task, Bindings.read name held = some task → ∀ callers, Returns callers →
      Settles (.running task [] callers))
    (returns : Returns callers) : Settles (.running program held callers) := by
  induction program generalizing held callers with
  | finish result => exact returns result held
  | perform operation next _ => exact ⟨1, rfl⟩
  | assign name task next whenTask whenNext =>
    refine settles_of_step (whenNext _ callers (fun other found lookup => ?_) returns)
    have reading := congrFun (Bindings.read_write name (some task) held) other
    rw [lookup] at reading
    by_cases same : other = name
    · rw [same, Function.update_self] at reading
      obtain rfl := Option.some.inj reading
      exact fun callers returns => whenTask [] callers nofun returns
    · rw [Function.update_of_ne same] at reading
      exact tasks other found reading.symm
  | move target source next whenNext =>
    refine settles_of_step (whenNext _ callers (fun other found lookup => ?_) returns)
    unfold Bindings.move at lookup
    by_cases same : target = source
    · rw [if_pos same] at lookup
      exact tasks other found lookup
    · rw [if_neg same] at lookup
      have reading := congrFun
        (Bindings.read_write target (Bindings.read source held) (Bindings.clear source held))
        other
      rw [lookup] at reading
      by_cases here : other = target
      · rw [here, Function.update_self] at reading
        exact tasks source found reading.symm
      · rw [Function.update_of_ne here, congrFun (Bindings.read_clear source held) other]
          at reading
        by_cases emptied : other = source
        · rw [emptied, Function.update_self] at reading
          cases reading
        · rw [Function.update_of_ne emptied] at reading
          exact tasks other found reading.symm
  | await name next whenNext =>
    refine settles_of_step ?_
    rw [step]
    cases lookup : Bindings.read name held with
    | none => exact ⟨0, rfl⟩
    | some task =>
      refine tasks name task lookup _ fun result _ => settles_of_step (whenNext result _ callers
        (fun other found kept => ?_) returns)
      have reading := congrFun (Bindings.read_clear name held) other
      rw [show Bindings.read other (Bindings.clear name held) = some found from kept] at reading
      by_cases same : other = name
      · rw [same, Function.update_self] at reading
        cases reading
      · rw [Function.update_of_ne same] at reading
        exact tasks other found reading.symm

/-- A task that is run by itself settles, and so does a stack of callers, from the last one on. -/
theorem settles (config : Config Operation Response Failure Value) : config.Settles := by
  have alone : ∀ (task : Program Operation Response Failure Value) callers, Returns callers →
      Settles (.running task [] callers) :=
    fun task callers returns => settles_running task [] callers nofun returns
  have all : ∀ callers : List (Caller Operation Response Failure Value), Returns callers := by
    intro callers
    induction callers with
    | nil => exact fun result held => ⟨1, rfl⟩
    | cons caller callers inductionHypothesis =>
      exact fun result held => settles_of_step (settles_running (caller.next result) caller.held
        callers (fun _ task _ => alone task) inductionHypothesis)
  cases config with
  | running program held callers =>
    exact settles_running program held callers (fun _ task _ => alone task) (all callers)
  | waiting operation next held callers => exact ⟨0, rfl⟩
  | finished result => exact ⟨0, rfl⟩
  | undefined => exact ⟨0, rfl⟩

end Config

end Programs

end AsyncNet.Library
