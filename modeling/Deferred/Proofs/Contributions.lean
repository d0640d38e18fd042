import Deferred.Proofs.Fragment

/-!
# What is supplied from outside

Leaves that are supplied from outside, what is done in front of an operand, and functions that do
more than give a result may read, write and keep counts. So it matters in which order they are done,
and in which store each of them begins. `Calculation.contributions` lists what is done of them when
a calculation is run, in the order in which it is demanded, and each with the store that it finds.
For every combinator, the list is put together from the lists of its operands.
-/

namespace Deferred

variable {kind : Kind}

/-- Something supplied from outside that is done, and the store that it finds. -/
inductive Contribution where
  | supplied {kind : Kind} (procedure : Procedure (Outcome kind.Value)) (store : Store)
  | preceded (procedure : Procedure Unit) (store : Store)
  | applied {kind : Kind} (operation : Operation kind) (lhs rhs : kind.Value) (store : Store)
  | reduced {kind : Kind} (reducer : Reducer kind) (accumulated next : kind.Value) (store : Store)

open Classical in
/-- What a task itself does that is supplied from outside, apart from its parts. Calls of pure
functions do not count. -/
noncomputable def Task.contribution? (store : Store) : Task kind → Option Contribution
  | .run (.supplied procedure) => some (.supplied procedure store)
  | .run (.preceded procedure _) => some (.preceded procedure store)
  | .run _ => none
  | .apply operation lhs rhs =>
    if Fragment.pure.operation operation then none else some (.applied operation lhs rhs store)
  | .reduce reducer accumulated next =>
    if Fragment.pure.reducer reducer then none else some (.reduced reducer accumulated next store)

/-- What is supplied from outside and done in the course of a task, in the order in which it is
demanded. -/
noncomputable def Task.contributions (tracing : Bool) (store : Store) (task : Task kind) :
    List Contribution :=
  (task.occurrences tracing store).filterMap fun occurrence =>
    occurrence.task.contribution? occurrence.store

theorem Task.contributions_eq (tracing : Bool) (store : Store) (task : Task kind) :
    task.contributions tracing store =
      (task.contribution? store).toList ++
        (task.visits tracing store).flatMap fun visit =>
          visit.task.contributions tracing visit.store := by
  rw [contributions, filterMap_occurrences]
  rfl

theorem Task.contributions_apply_pure (tracing : Bool) (store : Store) (name : Option String)
    (apply : kind.Value → kind.Value → kind.Value) (lhs rhs : kind.Value) :
    (Task.apply (.pure name apply) lhs rhs).contributions tracing store = [] := by
  have isPure : Fragment.pure.operation (.pure name apply : Operation kind) := fun _ _ => ⟨_, rfl⟩
  rw [contributions_eq, contribution?, if_pos isPure]
  rfl

/-- What is supplied from outside and done in the steps of a reducing function. -/
noncomputable def Reducer.contributions (tracing : Bool) (reducer : Reducer kind) :
    Store → kind.Value → List kind.Value → List Contribution
  | _, _, [] => []
  | store, accumulated, next :: rest =>
    let step := (reducer.call accumulated next).run tracing store
    (Task.reduce reducer accumulated next).contributions tracing store ++
      match step.outcome with
      | .ok reduced => reducer.contributions tracing step.store reduced rest
      | .error _ => []

theorem Reducer.flatMap_visits (tracing : Bool) (reducer : Reducer kind) (index : Nat)
    (store : Store) (accumulated : kind.Value) (values : List kind.Value) :
    ((reducer.visits tracing index store accumulated values).flatMap fun visit =>
        visit.task.contributions tracing visit.store) =
      reducer.contributions tracing store accumulated values := by
  induction values generalizing index store accumulated with
  | nil => rfl
  | cons next rest ih =>
      rw [visits, List.flatMap_cons, contributions]
      cases ((reducer.call accumulated next).run tracing store).outcome with
      | error failure => rfl
      | ok reduced => simp only [ih]

namespace Calculation

/-- What is supplied from outside and done when a calculation is run. -/
noncomputable def contributions (tracing : Bool) (store : Store) (calculation : Calculation kind) :
    List Contribution :=
  (Task.run calculation).contributions tracing store

/-- What is supplied from outside and done when operands are run one after the other. -/
noncomputable def operandContributions (tracing : Bool) :
    Store → List (Calculation kind) → List Contribution
  | _, [] => []
  | store, operand :: operands =>
    operand.contributions tracing store ++
      operandContributions tracing (operand.evaluate.run tracing store).store operands

theorem flatMap_operandVisits (tracing : Bool) (index : Nat) (store : Store)
    (operands : List (Calculation kind)) :
    ((operandVisits tracing index store operands).flatMap fun visit =>
        visit.task.contributions tracing visit.store) =
      operandContributions tracing store operands := by
  induction operands generalizing index store with
  | nil => rfl
  | cons operand operands ih =>
      rw [operandVisits, List.flatMap_cons, ih, operandContributions, contributions]

variable (tracing : Bool) (store : Store)

theorem contributions_constant (value : kind.Value) :
    (constant value).contributions tracing store = [] := by
  rw [contributions, Task.contributions_eq]
  rfl

theorem contributions_input (source : Variable kind) :
    (input source).contributions tracing store = [] := by
  rw [contributions, Task.contributions_eq]
  rfl

theorem contributions_supplied (procedure : Procedure (Outcome kind.Value)) :
    (supplied procedure).contributions tracing store = [.supplied procedure store] := by
  rw [contributions, Task.contributions_eq]
  rfl

theorem contributions_preceded (procedure : Procedure Unit) (operand : Calculation kind) :
    (preceded procedure operand).contributions tracing store =
      .preceded procedure store ::
        operand.contributions tracing (procedure.perform.run tracing store).store := by
  rw [contributions, Task.contributions_eq]
  simp [Task.contribution?, Task.visits, visits, contributions]

theorem contributions_not (operand : Calculation .bool) :
    operand.not.contributions tracing store = operand.contributions tracing store := by
  rw [contributions, Task.contributions_eq]
  simp [Task.contribution?, Task.visits, visits, contributions]

theorem contributions_signum (operand : Calculation .int) :
    operand.signum.contributions tracing store = operand.contributions tracing store := by
  rw [contributions, Task.contributions_eq]
  simp [Task.contribution?, Task.visits, visits, contributions]

theorem contributions_equals (lhs rhs : Calculation kind) :
    (equals lhs rhs).contributions tracing store =
      lhs.contributions tracing store ++
        rhs.contributions tracing (lhs.evaluate.run tracing store).store := by
  rw [contributions, Task.contributions_eq]
  simp [Task.contribution?, Task.visits, visits, contributions]

theorem contributions_binary (operation : Operation kind) (lhs rhs : Calculation kind) :
    (binary operation lhs rhs).contributions tracing store =
      let left := lhs.evaluate.run tracing store
      let right := rhs.evaluate.run tracing left.store
      lhs.contributions tracing store ++ rhs.contributions tracing left.store ++
        match left.outcome, right.outcome with
        | .ok first, .ok second =>
          (Task.apply operation first second).contributions tracing right.store
        | _, _ => [] := by
  rw [contributions, Task.contributions_eq]
  simp only [Task.contribution?, Task.visits, visits, List.flatMap_cons, Option.toList_none,
    List.nil_append]
  rw [List.append_assoc]
  congr 2
  split <;> simp_all

theorem contributions_binary_pure (name : Option String)
    (apply : kind.Value → kind.Value → kind.Value) (lhs rhs : Calculation kind) :
    (binary (.pure name apply) lhs rhs).contributions tracing store =
      lhs.contributions tracing store ++
        rhs.contributions tracing (lhs.evaluate.run tracing store).store := by
  simp only [contributions_binary, Task.contributions_apply_pure]
  split <;> simp

theorem contributions_conditional (condition : Calculation .bool)
    (ifTrue ifFalse : Calculation kind) :
    (conditional condition ifTrue ifFalse).contributions tracing store =
      let selected := condition.evaluate.run tracing store
      condition.contributions tracing store ++
        match selected.outcome with
        | .ok true => ifTrue.contributions tracing selected.store
        | .ok false => ifFalse.contributions tracing selected.store
        | .error _ => [] := by
  rw [contributions, Task.contributions_eq]
  simp only [Task.contribution?, Task.visits, visits, List.flatMap_cons, Option.toList_none,
    List.nil_append]
  congr 1
  cases (condition.evaluate.run tracing store).outcome with
  | error failure => rfl
  | ok selected => cases selected <;> simp [contributions]

theorem contributions_reduceLeft (reducer : Reducer kind) (initial : Calculation kind)
    (operands : Operands kind) :
    (reduceLeft reducer initial operands).contributions tracing store =
      let begun := initial.evaluate.run tracing store
      let collected := (Evaluation.all (operands.toList.map evaluate)).run tracing begun.store
      initial.contributions tracing store ++
        match begun.outcome with
        | .ok start =>
          operandContributions tracing begun.store operands.toList ++
            match collected.outcome with
            | .ok values => reducer.contributions tracing collected.store start values
            | .error _ => []
        | .error _ => [] := by
  rw [contributions, Task.contributions_eq]
  simp only [Task.contribution?, Task.visits, visits, List.flatMap_cons, Option.toList_none,
    List.nil_append]
  congr 1
  cases (initial.evaluate.run tracing store).outcome with
  | error failure => rfl
  | ok start =>
      simp only [List.flatMap_append, flatMap_operandVisits]
      congr 1
      split <;> simp_all [Reducer.flatMap_visits]

end Calculation

end Deferred
