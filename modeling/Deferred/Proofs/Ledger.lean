import Deferred.Proofs.Demand
import Deferred.Proofs.FailureTree

/-!
# The ledger of failures

A failure comes up in a failing calculation, in a calculation supplied from outside, or in a
reducing function. Everything else that fails passes such a failure on, or puts several of them
together. `Task.raised` lists the failures that come up when a task is done, each with the number of
aggregates that are put around it.

`Ledger` says how a journal, the failures that an evaluation ends with, and the failures that came
up hang together: one rule for everything that can happen on the way. Every run keeps a ledger
(`Task.accounts`), and whatever relates the journal to the failure of a run follows by an induction
on the rules.
-/

namespace Deferred

variable {kind : Kind} {α β : Type}

/-- Whether a failure of a task comes up in the task itself, and not in one of its parts. -/
def Task.isPrimitive : Task kind → Bool
  | .run (.failing _) => true
  | .run (.supplied _) => true
  | .run _ => false
  | .apply _ _ _ => false
  | .reduce _ _ _ => true

/-- The failure that comes up in an occurrence, if there is one. -/
def Occurrence.raised? (tracing : Bool) (occurrence : Occurrence) : Option Nested :=
  if occurrence.task.isPrimitive then
    (occurrence.task.evaluate.run tracing occurrence.store).outcome.failure?.map
      fun failure => ⟨occurrence.depth, failure⟩
  else
    none

namespace Task

/-- The failures that come up when a task is done, in order. -/
def raised (tracing : Bool) (task : Task kind) (store : Store) : List Nested :=
  (task.occurrences tracing store).filterMap (Occurrence.raised? tracing)

/-- The failure that comes up in a task itself, if there is one. -/
def raisedHere (tracing : Bool) (task : Task kind) (store : Store) : List Nested :=
  (Occurrence.raised? tracing ⟨[], 0, task, store⟩).toList

/-- The failures that come up in some parts of a task. -/
def raisedIn (tracing : Bool) (visits : List Visit) : List Nested :=
  visits.flatMap fun visit => (visit.task.raised tracing visit.store).map (.beneath visit.layers)

theorem raised_eq (tracing : Bool) (task : Task kind) (store : Store) :
    task.raised tracing store =
      task.raisedHere tracing store ++ raisedIn tracing (task.visits tracing store) := by
  have below (visit : Visit) (occurrence : Occurrence) :
      Occurrence.raised? tracing (occurrence.inside visit) =
        (Occurrence.raised? tracing occurrence).map (.beneath visit.layers) := by
    by_cases primitive : occurrence.task.isPrimitive
    · simp [Occurrence.raised?, Occurrence.inside, primitive, Function.comp_def, Nested.beneath]
    · simp [Occurrence.raised?, Occurrence.inside, primitive]
  rw [raised, filterMap_occurrences, raisedHere, raisedIn]
  simp only [below, raised, List.map_filterMap]

end Task

/-- Whether an entry says nothing about failures. -/
def Entry.isQuiet : Entry → Bool
  | .raised _ _ => false
  | .event (.setVariable _) => true
  | .event _ => false
  | _ => true

/-- Whether an event announces a failure that is passed on as it is. -/
def Event.isPassing : Event → Bool
  | .negatedOperandFailed => true
  | .signumOperandFailed => true
  | .conditionFailed => true
  | .initialFailed _ => true
  | _ => false

/-- What happens to failures in the course of an evaluation: the journal that is kept, the failures
that are left, and the failures that came up. -/
inductive Ledger (tracing : Bool) : List Entry → List Failure → List Nested → Prop where
  | quiet {journal : List Entry} (silent : ∀ entry ∈ journal, entry.isQuiet = true) :
      Ledger tracing journal [] []
  /-- A failure comes up in a calculation. -/
  | raised (origin : Origin) (notReducer : origin ≠ .reducer) (failure : Failure) :
      Ledger tracing [.raised origin failure] [failure] [⟨0, failure⟩]
  /-- A failure comes up in a step of a fold, and is announced. -/
  | stepFailed (step : Nat) (failure : Failure) :
      Ledger tracing
        (.raised .reducer failure :: Event.entries tracing (.stepFailed step failure))
        [failure] [⟨0, failure⟩]
  | append {first second : List Entry} {firstLeft secondLeft : List Failure}
      {firstRaised secondRaised : List Nested}
      (before : Ledger tracing first firstLeft firstRaised)
      (after : Ledger tracing second secondLeft secondRaised) :
      Ledger tracing (first ++ second) (firstLeft ++ secondLeft) (firstRaised ++ secondRaised)
  /-- A failure is announced and passed on. -/
  | passed {journal : List Entry} {failure : Failure} {raised : List Nested}
      (before : Ledger tracing journal [failure] raised) (event : Event)
      (passing : event.isPassing = true) :
      Ledger tracing (journal ++ event.entries tracing) [failure] raised
  /-- Failures are announced and put together. -/
  | gathered {journal : List Entry} {failures : List Failure} {raised : List Nested}
      (before : Ledger tracing journal failures raised) (nonempty : failures ≠ []) :
      Ledger tracing (journal ++ Event.entries tracing (.operandsFailed failures.length))
        [.aggregate failures] (raised.map (.beneath 1))

namespace Ledger

variable {tracing : Bool} {journal : List Entry} {failures : List Failure} {raised : List Nested}

/-- Something is left exactly if something came up. -/
theorem eq_nil_iff (ledger : Ledger tracing journal failures raised) :
    failures = [] ↔ raised = [] := by
  induction ledger with
  | quiet silent => simp
  | raised origin notReducer failure => simp
  | stepFailed step failure => simp
  | append before after ihBefore ihAfter => simp [ihBefore, ihAfter]
  | passed before event passing ih => simpa using ih
  | gathered before nonempty ih => simpa [nonempty] using ih

theorem cons (ledger : Ledger tracing journal failures raised) (entry : Entry)
    (silent : entry.isQuiet = true) : Ledger tracing (entry :: journal) failures raised := by
  have quiet : Ledger tracing [entry] [] [] := .quiet (by simpa using silent)
  exact quiet.append ledger

theorem gather (ledger : Ledger tracing journal failures raised) {value : α} :
    Ledger tracing (journal ++ Event.ofFailures tracing failures)
      (Outcome.gathered failures value).failure?.toList (raised.map (.beneath 1)) := by
  by_cases nonempty : failures = []
  · have nothing := ledger.eq_nil_iff.mp nonempty
    subst nonempty
    subst nothing
    simpa using ledger
  · rw [Event.ofFailures_of_ne_nil tracing nonempty, Outcome.gathered_of_ne_nil value nonempty]
    exact ledger.gathered nonempty

end Ledger

/-- A run keeps a ledger of its journal and its failure. -/
def Run.Accounts (tracing : Bool) (run : Run α) (raised : List Nested) : Prop :=
  Ledger tracing run.journal run.outcome.failure?.toList raised

namespace Evaluation

variable {tracing : Bool} {store : Store}

theorem accounts_map (function : α → β) {evaluation : Evaluation α} {raised : List Nested}
    (accounts : (evaluation.run tracing store).Accounts tracing raised) :
    ((function <$> evaluation).run tracing store).Accounts tracing raised := by
  simpa [Run.Accounts] using accounts

theorem accounts_bind {first : Evaluation α} {rest : α → Evaluation β} {before : List Nested}
    {after : α → List Nested} (begun : (first.run tracing store).Accounts tracing before)
    (goesOn : ∀ value, (first.run tracing store).outcome = .ok value →
      ((rest value).run tracing (first.run tracing store).store).Accounts tracing (after value)) :
    ((first >>= rest).run tracing store).Accounts tracing
      (before ++ (first.run tracing store).outcome.followedBy after) := by
  cases ran : (first.run tracing store).outcome with
  | ok value =>
      rw [run_bind_of_ok tracing store rest ran]
      have both := begun.append (goesOn value ran)
      simpa [Run.Accounts, ran] using both
  | error failure =>
      rw [run_bind_of_error tracing store rest ran]
      simpa [Run.Accounts, ran] using begun

theorem accounts_reportingFailure {evaluation : Evaluation α} {event : Failure → Event}
    (passing : ∀ failure, (event failure).isPassing = true) {raised : List Nested}
    (accounts : (evaluation.run tracing store).Accounts tracing raised) :
    ((evaluation.reportingFailure event).run tracing store).Accounts tracing raised := by
  cases ran : (evaluation.run tracing store).outcome with
  | ok value =>
      rw [run_reportingFailure_of_ok tracing store event ran]
      exact accounts
  | error failure =>
      rw [run_reportingFailure_of_error tracing store event ran]
      unfold Run.Accounts at accounts
      rw [ran] at accounts
      exact accounts.passed (event failure) (passing failure)

theorem accounts_both {lhs : Evaluation α} {rhs : Evaluation β} {left right : List Nested}
    (leftAccounts : (lhs.run tracing store).Accounts tracing left)
    (rightAccounts : (rhs.run tracing (lhs.run tracing store).store).Accounts tracing right) :
    ((both lhs rhs).run tracing store).Accounts tracing ((left ++ right).map (.beneath 1)) := by
  unfold Run.Accounts
  rw [run_both, Outcome.failure?_both]
  exact (leftAccounts.append rightAccounts).gather

theorem accounts_all {evaluations : List (Evaluation α)} {raised : List Nested}
    (ledger : Ledger tracing ((runs tracing store evaluations).flatMap Run.journal)
      (Outcome.failures ((runs tracing store evaluations).map Run.outcome)) raised) :
    ((all evaluations).run tracing store).Accounts tracing (raised.map (.beneath 1)) := by
  unfold Run.Accounts
  rw [run_all]
  exact ledger.gather

/-! One rule for each combinator with parts that depend on an outcome. -/

theorem accounts_conditional {condition : Evaluation Bool} {ifTrue ifFalse : Evaluation α}
    {before : List Nested} {after : Bool → List Nested}
    (selecting : (condition.run tracing store).Accounts tracing before)
    (selected : ∀ value, (condition.run tracing store).outcome = .ok value →
      ((if value then ifTrue else ifFalse).run tracing
        (condition.run tracing store).store).Accounts tracing (after value)) :
    ((condition.conditional ifTrue ifFalse).run tracing store).Accounts tracing
      (before ++ (condition.run tracing store).outcome.followedBy after) := by
  rw [← outcome_reportingFailure tracing store condition fun _ => .conditionFailed]
  apply accounts_bind (accounts_reportingFailure (fun _ => rfl) selecting)
  intro value succeeds
  rw [outcome_reportingFailure] at succeeds
  rw [store_reportingFailure]
  exact selected value succeeds

theorem accounts_binary {function : α → α → Evaluation α} {lhs rhs : Evaluation α}
    {left right : List Nested} (leftAccounts : (lhs.run tracing store).Accounts tracing left)
    (rightAccounts : (rhs.run tracing (lhs.run tracing store).store).Accounts tracing right)
    (called : ∀ first second store,
      ((function first second).run tracing store).Accounts tracing []) :
    ((binary function lhs rhs).run tracing store).Accounts tracing
      ((left ++ right).map (.beneath 1)) := by
  have whole := accounts_bind (accounts_both leftAccounts rightAccounts)
    fun values _ => called values.1 values.2 _
  rwa [Outcome.followedBy_nil, List.append_nil] at whole

/-- The failures that come up in the three phases of a fold. -/
theorem accounts_reduceLeft {reduce : α → α → Evaluation α} {initial : Evaluation α}
    {operands : List (Evaluation α)} {before during : List Nested}
    {steps : α → List α → List Nested}
    (starting : (initial.run tracing store).Accounts tracing before)
    (collecting : ∀ start, (initial.run tracing store).outcome = .ok start →
      ((all operands).run tracing (initial.run tracing store).store).Accounts tracing during)
    (reducing : ∀ start values,
      ((reduceFrom reduce 0 start values).run tracing
        ((all operands).run tracing (initial.run tracing store).store).store).Accounts tracing
        (steps start values)) :
    ((reduceLeft reduce initial operands).run tracing store).Accounts tracing
      (before ++ (initial.run tracing store).outcome.followedBy fun start =>
        during ++ ((all operands).run tracing (initial.run tracing store).store).outcome.followedBy
          (steps start)) := by
  rw [← outcome_reportingFailure tracing store initial fun _ => .initialFailed operands.length]
  apply accounts_bind (accounts_reportingFailure (fun _ => rfl) starting)
  intro start begun
  rw [outcome_reportingFailure] at begun
  rw [store_reportingFailure]
  exact accounts_bind (collecting start begun) fun values _ => reducing start values

end Evaluation

/-- A procedure comes to its end, and nothing fails on the way. -/
theorem Procedure.perform_spec (procedure : Procedure α) (tracing : Bool) (store : Store) :
    ∃ result, (procedure.perform.run tracing store).outcome = .ok result ∧
      (procedure.perform.run tracing store).Accounts tracing [] := by
  induction procedure generalizing store with
  | finish result => exact ⟨result, rfl, .quiet (by simp)⟩
  | announce label rest ih =>
      rcases ih store with ⟨result, finished, accounts⟩
      refine ⟨result, by simpa [perform_announce, Evaluation.run_bind] using finished, ?_⟩
      simpa [Run.Accounts, perform_announce, Evaluation.run_bind] using accounts.cons _ rfl
  | read source rest ih =>
      rcases ih (store.read source) store with ⟨result, finished, accounts⟩
      refine ⟨result, by simpa [perform_read, Evaluation.run_bind] using finished, ?_⟩
      simpa [Run.Accounts, perform_read, Evaluation.run_bind] using accounts.cons _ rfl
  | write target value rest ih =>
      rcases ih (store.write target value) with ⟨result, finished, accounts⟩
      refine ⟨result, by simpa [perform_write, Evaluation.run_bind] using finished, ?_⟩
      have announced : ∀ entry ∈ Event.entries tracing (.setVariable (.ofValue value)),
          entry.isQuiet = true := by
        intro entry kept
        cases tracing <;> simp [Event.entries] at kept
        subst kept
        rfl
      have written := (Ledger.quiet announced).append (accounts.cons (.wrote target value) rfl)
      simpa [Run.Accounts, perform_write, Evaluation.run_bind] using written
  | fetch slot rest ih =>
      rcases ih (store.count slot) store with ⟨result, finished, accounts⟩
      refine ⟨result, by simpa [perform_fetch, Evaluation.run_bind] using finished, ?_⟩
      simpa [Run.Accounts, perform_fetch, Evaluation.run_bind] using accounts
  | keep slot count rest ih =>
      rcases ih (store.setCount slot count) with ⟨result, finished, accounts⟩
      refine ⟨result, by simpa [perform_keep, Evaluation.run_bind] using finished, ?_⟩
      simpa [Run.Accounts, perform_keep, Evaluation.run_bind] using accounts

theorem Procedure.accounts_perform (procedure : Procedure α) (tracing : Bool) (store : Store) :
    (procedure.perform.run tracing store).Accounts tracing [] := by
  rcases procedure.perform_spec tracing store with ⟨result, finished, accounts⟩
  exact accounts

namespace Task

variable {tracing : Bool} {store : Store}

theorem raised_of_isPrimitive {task : Task kind} (primitive : task.isPrimitive = true)
    (alone : task.visits tracing store = []) :
    task.raised tracing store =
      (task.evaluate.run tracing store).outcome.failure?.toList.map (Nested.mk 0) := by
  rw [raised_eq, alone]
  cases failed : (task.evaluate.run tracing store).outcome.failure? <;>
    simp [raisedIn, raisedHere, Occurrence.raised?, primitive, failed]

theorem raised_of_not_isPrimitive {task : Task kind} (composed : task.isPrimitive = false) :
    task.raised tracing store = raisedIn tracing (task.visits tracing store) := by
  rw [raised_eq]
  simp [raisedHere, Occurrence.raised?, composed]

@[simp]
theorem raised_apply (operation : Operation kind) (lhs rhs : kind.Value) :
    (apply operation lhs rhs).raised tracing store = [] := by
  rw [raised_of_not_isPrimitive rfl]
  rfl

theorem raised_preceded (procedure : Procedure Unit) (operand : Calculation kind) :
    (run (.preceded procedure operand)).raised tracing store =
      (run operand).raised tracing (procedure.perform.run tracing store).store := by
  rw [raised_of_not_isPrimitive rfl]
  simp [raisedIn, visits, Calculation.visits]

theorem raised_not (operand : Calculation .bool) :
    (run operand.not).raised tracing store = (run operand).raised tracing store := by
  rw [raised_of_not_isPrimitive rfl]
  simp [raisedIn, visits, Calculation.visits]

theorem raised_signum (operand : Calculation .int) :
    (run operand.signum).raised tracing store = (run operand).raised tracing store := by
  rw [raised_of_not_isPrimitive rfl]
  simp [raisedIn, visits, Calculation.visits]

theorem raised_equals (lhs rhs : Calculation kind) :
    (run (.equals lhs rhs)).raised tracing store =
      ((run lhs).raised tracing store ++
        (run rhs).raised tracing (lhs.evaluate.run tracing store).store).map (.beneath 1) := by
  rw [raised_of_not_isPrimitive rfl]
  simp [raisedIn, visits, Calculation.visits]

theorem raised_conditional (condition : Calculation .bool) (ifTrue ifFalse : Calculation kind) :
    (run (.conditional condition ifTrue ifFalse)).raised tracing store =
      let selected := condition.evaluate.run tracing store
      (run condition).raised tracing store ++
        selected.outcome.followedBy fun value =>
          (run (if value then ifTrue else ifFalse)).raised tracing selected.store := by
  rw [raised_of_not_isPrimitive rfl]
  simp [raisedIn, visits, Calculation.visits_conditional]

theorem raised_binary (operation : Operation kind) (lhs rhs : Calculation kind) :
    (run (.binary operation lhs rhs)).raised tracing store =
      ((run lhs).raised tracing store ++
        (run rhs).raised tracing (lhs.evaluate.run tracing store).store).map (.beneath 1) := by
  rw [raised_of_not_isPrimitive rfl]
  simp [raisedIn, visits, Calculation.visits_binary]

theorem raised_reduceLeft (reducer : Reducer kind) (initial : Calculation kind)
    (operands : Operands kind) :
    (run (.reduceLeft reducer initial operands)).raised tracing store =
      let begun := initial.evaluate.run tracing store
      let collected :=
        (Evaluation.all (operands.toList.map Calculation.evaluate)).run tracing begun.store
      (run initial).raised tracing store ++
        begun.outcome.followedBy fun start =>
          raisedIn tracing (Calculation.operandVisits tracing 1 begun.store operands.toList) ++
            collected.outcome.followedBy fun values =>
              raisedIn tracing (reducer.visits tracing (operands.toList.length + 1)
                collected.store start values) := by
  rw [raised_of_not_isPrimitive rfl]
  simp [raisedIn, visits, Calculation.visits_reduceLeft]

end Task

namespace Reducer

theorem accounts_step (reducer : Reducer kind) (tracing : Bool) (step : Nat)
    (accumulated next : kind.Value) (store : Store) :
    (((reducer.call accumulated next).reportingFailure fun failure =>
      .stepFailed step failure).run tracing store).Accounts tracing
        ((Task.reduce reducer accumulated next).raised tracing store) := by
  rcases (reducer.body accumulated next).perform_spec tracing store with
    ⟨outcome, finished, accounts⟩
  rw [Task.raised_of_isPrimitive rfl rfl]
  unfold Run.Accounts at accounts ⊢
  rw [finished] at accounts
  have called :=
    accounts.cons (.reduced reducer.name (.ofValue accumulated) (.ofValue next)) rfl
  cases outcome with
  | ok value =>
      simpa [Task.evaluate, call, Evaluation.run_reportingFailure_eq, Evaluation.run_bind, finished]
        using called
  | error failure =>
      have failed := called.append (.stepFailed step failure)
      simpa [Task.evaluate, call, Evaluation.run_reportingFailure_eq, Evaluation.run_bind, finished]
        using failed

/-- The steps of a fold account for the failures that come up in them. -/
theorem accounts_reduceFrom (reducer : Reducer kind) (tracing : Bool) (index step : Nat)
    (accumulated : kind.Value) (values : List kind.Value) (store : Store) :
    ((Evaluation.reduceFrom reducer.call step accumulated values).run tracing store).Accounts
      tracing (Task.raisedIn tracing (reducer.visits tracing index store accumulated values)) := by
  induction values generalizing index step accumulated store with
  | nil => exact .quiet (by simp)
  | cons next rest ih =>
      have first := reducer.accounts_step tracing step accumulated next store
      have steps := Evaluation.accounts_bind first fun reduced _ =>
        ih (index + 1) (step + 1) reduced _
      rw [Evaluation.reduceFrom_cons]
      simpa [visits_cons, Task.raisedIn] using steps

end Reducer

theorem Operation.accounts_call (operation : Operation kind) (lhs rhs : kind.Value)
    (tracing : Bool) (store : Store) :
    ((operation.call lhs rhs).run tracing store).Accounts tracing [] := by
  have applied : ((Evaluation.record (.applied operation.name (.ofValue lhs) (.ofValue rhs))).run
      tracing store).Accounts tracing [] :=
    .quiet (by simp [Entry.isQuiet])
  have called := Evaluation.accounts_bind applied fun _ _ =>
    (operation.body lhs rhs).accounts_perform tracing store
  rwa [Outcome.followedBy_nil] at called

namespace Calculation

variable {tracing : Bool}

theorem ledger_runs (operands : List (Calculation kind)) (index : Nat) (store : Store)
    (each : ∀ visit ∈ operandVisits tracing index store operands,
      ∀ operand, visit.task = .run operand →
        (operand.evaluate.run tracing visit.store).Accounts tracing
          ((Task.run operand).raised tracing visit.store)) :
    ∃ raised,
      Task.raisedIn tracing (operandVisits tracing index store operands) =
        raised.map (.beneath 1) ∧
      Ledger tracing
        ((Evaluation.runs tracing store (operands.map evaluate)).flatMap Run.journal)
        (Outcome.failures
          ((Evaluation.runs tracing store (operands.map evaluate)).map Run.outcome)) raised := by
  induction operands generalizing index store with
  | nil => exact ⟨[], rfl, .quiet (by simp)⟩
  | cons operand operands ih =>
      simp only [operandVisits, List.mem_cons, forall_eq_or_imp] at each
      rcases each with ⟨first, others⟩
      rcases ih (index + 1) (operand.evaluate.run tracing store).store others with
        ⟨raised, same, ledger⟩
      refine ⟨(Task.run operand).raised tracing store ++ raised, ?_, ?_⟩
      · rw [operandVisits, List.map_append, ← same]
        rfl
      · have both := (first operand rfl).append ledger
        simp only [List.map_cons, Evaluation.runs_cons, List.flatMap_cons]
        cases ran : (operand.evaluate.run tracing store).outcome with
        | ok value => simpa [ran] using both
        | error failure => simpa [ran] using both

theorem accounts_all (operands : List (Calculation kind)) (index : Nat) (store : Store)
    (each : ∀ visit ∈ operandVisits tracing index store operands,
      ∀ operand, visit.task = .run operand →
        (operand.evaluate.run tracing visit.store).Accounts tracing
          ((Task.run operand).raised tracing visit.store)) :
    ((Evaluation.all (operands.map evaluate)).run tracing store).Accounts tracing
      (Task.raisedIn tracing (operandVisits tracing index store operands)) := by
  rcases ledger_runs operands index store each with ⟨raised, same, ledger⟩
  rw [same]
  exact Evaluation.accounts_all ledger

/-- A calculation accounts for what comes up in it, if its parts account for what comes up in
them. -/
theorem accounts_of_parts (calculation : Calculation kind) (store : Store)
    (parts : ∀ visit ∈ calculation.visits tracing store, ∀ part, visit.task = .run part →
      (part.evaluate.run tracing visit.store).Accounts tracing
        ((Task.run part).raised tracing visit.store)) :
    (calculation.evaluate.run tracing store).Accounts tracing
      ((Task.run calculation).raised tracing store) := by
  cases calculation with
  | constant value =>
      rw [Task.raised_of_not_isPrimitive rfl]
      exact .quiet (by simp)
  | input source =>
      rw [Task.raised_of_not_isPrimitive rfl]
      exact .quiet (by simp [Entry.isQuiet])
  | failing failure =>
      rw [Task.raised_of_isPrimitive rfl rfl]
      exact .raised .failing (by decide) failure
  | supplied procedure =>
      -- The procedure itself does not fail; its result is an outcome, and may be a failure.
      rcases procedure.perform_spec tracing store with ⟨outcome, finished, accounts⟩
      rw [Task.raised_of_isPrimitive rfl rfl, Task.evaluate, evaluate_supplied]
      unfold Run.Accounts at accounts ⊢
      rw [finished] at accounts
      cases outcome with
      | ok value => simpa [Evaluation.run_bind, finished] using accounts
      | error failure =>
          have failed := accounts.append (.raised .supplied (by decide) failure)
          simpa [Evaluation.run_bind, finished] using failed
  | preceded procedure operand =>
      have rest := parts _ (List.mem_singleton.mpr rfl) operand rfl
      rcases procedure.perform_spec tracing store with ⟨_, finished, quiet⟩
      have whole := Evaluation.accounts_bind quiet fun _ _ => rest
      rw [finished, Outcome.followedBy_ok] at whole
      rw [Task.raised_preceded]
      exact whole
  | not operand =>
      have inner := parts _ (List.mem_singleton.mpr rfl) operand rfl
      rw [Task.raised_not]
      exact Evaluation.accounts_map _
        (Evaluation.accounts_reportingFailure (fun _ => rfl) inner)
  | signum operand =>
      have inner := parts _ (List.mem_singleton.mpr rfl) operand rfl
      rw [Task.raised_signum]
      exact Evaluation.accounts_map _
        (Evaluation.accounts_reportingFailure (fun _ => rfl) inner)
  | equals lhs rhs =>
      have left := parts _ List.mem_cons_self lhs rfl
      have right := parts _ (List.mem_cons_of_mem _ List.mem_cons_self) rhs rfl
      rw [Task.raised_equals]
      exact Evaluation.accounts_map _ (Evaluation.accounts_both left right)
  | conditional condition ifTrue ifFalse =>
      have selecting := parts _ List.mem_cons_self condition rfl
      rw [Task.raised_conditional, evaluate_conditional]
      apply Evaluation.accounts_conditional selecting
      intro value selected
      have branch := parts _ (branch_mem_visits selected) _ rfl
      cases value <;> exact branch
  | binary operation lhs rhs =>
      have left := parts _ List.mem_cons_self lhs rfl
      have right := parts _ (List.mem_cons_of_mem _ List.mem_cons_self) rhs rfl
      rw [Task.raised_binary]
      exact Evaluation.accounts_binary left right fun first second _ =>
        operation.accounts_call first second tracing _
  | reduceLeft reducer initial operands =>
      have starting := parts _ List.mem_cons_self initial rfl
      rw [Task.raised_reduceLeft, evaluate_reduceLeft]
      apply Evaluation.accounts_reduceLeft starting
      · intro start begun
        exact accounts_all operands.toList 1 _ fun visit visited =>
          parts visit (operandVisits_subset_visits begun visited)
      · intro start values
        exact reducer.accounts_reduceFrom tracing _ 0 start values _

/-- Every run accounts for the failures that come up in its course. -/
theorem accounts (calculation : Calculation kind) (store : Store) :
    (calculation.evaluate.run tracing store).Accounts tracing
      ((Task.run calculation).raised tracing store) := by
  induction calculation, store using visitInduction tracing with
  | step calculation store ih => exact accounts_of_parts calculation store ih

end Calculation

end Deferred
