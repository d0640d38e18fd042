import Deferred.Calculation

/-!
# Runs of the combinators

This file says what comes of running a combinator in terms of the runs of its parts: which store
each part is run in, how the outcomes are put together, and in which order the journals of the parts
and the events of the combinator follow each other.

Operands are run one after the other, each in the store that the one before left behind, whether or
not it failed. `Evaluation.runs` lists these runs; `Evaluation.run_all` and `Evaluation.run_both`
express a run of all operands through them.
-/

namespace Deferred

variable {α β : Type}

namespace Run

/-- The store left behind by runs that follow each other. -/
def storeAfter (store : Store) (runs : List (Run α)) : Store :=
  runs.foldl (fun _ run => run.store) store

@[simp]
theorem storeAfter_nil (store : Store) : storeAfter store ([] : List (Run α)) = store := rfl

@[simp]
theorem storeAfter_cons (store : Store) (run : Run α) (runs : List (Run α)) :
    storeAfter store (run :: runs) = storeAfter run.store runs := rfl

end Run

namespace Outcome

/-- The outcome of operands that failed with the given failures, or all of them gave a value. -/
def gathered (failures : List Failure) (value : α) : Outcome α :=
  if failures = [] then .ok value else .error (.aggregate failures)

/-- The outcome of two operands that were run in any case. -/
def both (left : Outcome α) (right : Outcome β) : Outcome (α × β) :=
  match left, right with
  | .ok left, .ok right => .ok (left, right)
  | left, right => .error (.aggregate (left.failure?.toList ++ right.failure?.toList))

@[simp]
theorem map_ok (function : α → β) (value : α) :
    Except.map function (.ok value : Outcome α) = .ok (function value) := rfl

@[simp]
theorem map_error (function : α → β) (failure : Failure) :
    Except.map function (.error failure : Outcome α) = .error failure := rfl

@[simp]
theorem failure?_map (function : α → β) (outcome : Outcome α) :
    failure? (outcome.map function) = outcome.failure? := by
  cases outcome <;> rfl

theorem failure?_eq_none_iff {outcome : Outcome α} :
    outcome.failure? = none ↔ ∃ value, outcome = .ok value := by
  cases outcome <;> simp

@[simp]
theorem gathered_nil (value : α) : gathered [] value = .ok value := rfl

theorem gathered_of_ne_nil {failures : List Failure} (value : α) (nonempty : failures ≠ []) :
    gathered failures value = .error (.aggregate failures) := by
  simp [gathered, nonempty]

/-- Two operands fail together like any number of them. -/
theorem failure?_both (left : Outcome α) (right : Outcome β) :
    (both left right).failure? =
      (gathered (left.failure?.toList ++ right.failure?.toList) ()).failure? := by
  cases left <;> cases right <;> rfl

/-- What follows on a value. Nothing follows on a failure. -/
def followedBy (outcome : Outcome α) (next : α → List β) : List β :=
  match outcome with
  | .ok value => next value
  | .error _ => []

@[simp]
theorem followedBy_ok (value : α) (next : α → List β) :
    followedBy (.ok value) next = next value := rfl

@[simp]
theorem followedBy_error (failure : Failure) (next : α → List β) :
    followedBy (.error failure) next = [] := rfl

@[simp]
theorem followedBy_nil (outcome : Outcome α) :
    outcome.followedBy (fun _ => ([] : List β)) = [] := by
  cases outcome <;> rfl

@[simp]
theorem mem_followedBy {outcome : Outcome α} {next : α → List β} {entry : β} :
    entry ∈ outcome.followedBy next ↔ ∃ value, outcome = .ok value ∧ entry ∈ next value := by
  cases outcome <;> simp

@[simp]
theorem map_followedBy {γ : Type} (function : β → γ) (outcome : Outcome α) (next : α → List β) :
    (outcome.followedBy next).map function =
      outcome.followedBy fun value => (next value).map function := by
  cases outcome <;> rfl

@[simp]
theorem flatMap_followedBy {γ : Type} (outcome : Outcome α) (next : α → List β)
    (observe : β → List γ) :
    (outcome.followedBy next).flatMap observe =
      outcome.followedBy fun value => (next value).flatMap observe := by
  cases outcome <;> rfl

end Outcome

/-- The event about a failure, if there is one. -/
def Event.ofOutcome (tracing : Bool) (event : Failure → Event) : Outcome α → List Entry
  | .ok _ => []
  | .error failure => (event failure).entries tracing

@[simp]
theorem Event.ofOutcome_ok (tracing : Bool) (event : Failure → Event) (value : α) :
    Event.ofOutcome tracing event (.ok value : Outcome α) = [] := rfl

@[simp]
theorem Event.ofOutcome_error (tracing : Bool) (event : Failure → Event) (failure : Failure) :
    Event.ofOutcome tracing event (.error failure : Outcome α) =
      (event failure).entries tracing := rfl

/-- The event about operands that failed, if there are any. -/
def Event.ofFailures (tracing : Bool) (failures : List Failure) : List Entry :=
  if failures = [] then [] else Event.entries tracing (.operandsFailed failures.length)

@[simp]
theorem Event.ofFailures_nil (tracing : Bool) : Event.ofFailures tracing [] = [] := rfl

theorem Event.ofFailures_of_ne_nil (tracing : Bool) {failures : List Failure}
    (nonempty : failures ≠ []) :
    Event.ofFailures tracing failures =
      Event.entries tracing (.operandsFailed failures.length) := by
  simp [Event.ofFailures, nonempty]

namespace Evaluation

/-- The runs of evaluations, each in the store that the one before left behind. -/
def runs (tracing : Bool) : Store → List (Evaluation α) → List (Run α)
  | _, [] => []
  | store, evaluation :: evaluations =>
    evaluation.run tracing store ::
      runs tracing (evaluation.run tracing store).store evaluations

section Closed

variable (tracing : Bool) (store : Store)

@[simp]
theorem runs_nil : runs tracing store ([] : List (Evaluation α)) = [] := rfl

@[simp]
theorem runs_cons (evaluation : Evaluation α) (evaluations : List (Evaluation α)) :
    runs tracing store (evaluation :: evaluations) =
      evaluation.run tracing store ::
        runs tracing (evaluation.run tracing store).store evaluations := rfl

@[simp]
theorem length_runs (evaluations : List (Evaluation α)) :
    (runs tracing store evaluations).length = evaluations.length := by
  induction evaluations generalizing store with
  | nil => rfl
  | cons evaluation evaluations ih => simp [ih]

theorem take_runs (evaluations : List (Evaluation α)) (count : Nat) :
    (runs tracing store evaluations).take count =
      runs tracing store (evaluations.take count) := by
  induction evaluations generalizing store count with
  | nil => simp
  | cons evaluation evaluations ih => cases count <;> simp [ih]

/-- Every evaluation is run exactly once, in its place, in the store left by those before it. -/
theorem getElem?_runs (evaluations : List (Evaluation α)) (index : Nat) :
    (runs tracing store evaluations)[index]? =
      evaluations[index]?.map fun evaluation =>
        evaluation.run tracing
          (Run.storeAfter store ((runs tracing store evaluations).take index)) := by
  induction evaluations generalizing store index with
  | nil => simp
  | cons evaluation evaluations ih =>
      rcases index with _ | index
      · simp
      · simpa using ih (evaluation.run tracing store).store index

/-- A report about a failure is one more entry at the end, and changes nothing else. -/
theorem run_reportingFailure_eq (evaluation : Evaluation α) (event : Failure → Event) :
    (evaluation.reportingFailure event).run tracing store =
      ⟨(evaluation.run tracing store).outcome, (evaluation.run tracing store).store,
        (evaluation.run tracing store).journal ++
          Event.ofOutcome tracing event (evaluation.run tracing store).outcome⟩ := by
  cases ran : evaluation.run tracing store with
  | mk outcome left journal =>
      cases outcome <;> simp [run_reportingFailure, ran]

@[simp]
theorem outcome_reportingFailure (evaluation : Evaluation α) (event : Failure → Event) :
    ((evaluation.reportingFailure event).run tracing store).outcome =
      (evaluation.run tracing store).outcome := by
  rw [run_reportingFailure_eq]

@[simp]
theorem store_reportingFailure (evaluation : Evaluation α) (event : Failure → Event) :
    ((evaluation.reportingFailure event).run tracing store).store =
      (evaluation.run tracing store).store := by
  rw [run_reportingFailure_eq]

theorem run_outcomes (evaluations : List (Evaluation α)) :
    (outcomes evaluations).run tracing store =
      ⟨.ok ((runs tracing store evaluations).map Run.outcome),
        Run.storeAfter store (runs tracing store evaluations),
        (runs tracing store evaluations).flatMap Run.journal⟩ := by
  induction evaluations generalizing store with
  | nil => rfl
  | cons evaluation evaluations ih => simp [outcomes_cons, run_bind, ih]

theorem run_check (failures : List Failure) :
    (check failures).run tracing store =
      ⟨Outcome.gathered failures (), store, Event.ofFailures tracing failures⟩ := by
  by_cases nonempty : failures = []
  · simp [nonempty]
  · rw [check_of_ne_nil nonempty, Outcome.gathered_of_ne_nil _ nonempty,
      Event.ofFailures_of_ne_nil _ nonempty]
    simp [run_bind]

theorem run_all (evaluations : List (Evaluation α)) :
    (all evaluations).run tracing store =
      let done := runs tracing store evaluations
      let failures := Outcome.failures (done.map Run.outcome)
      ⟨Outcome.gathered failures (Outcome.values (done.map Run.outcome)),
        Run.storeAfter store done,
        done.flatMap Run.journal ++ Event.ofFailures tracing failures⟩ := by
  by_cases nonempty : Outcome.failures ((runs tracing store evaluations).map Run.outcome) = []
  · simp [all, run_bind, run_outcomes, nonempty]
  · simp [all, run_bind, run_outcomes, run_check, Outcome.gathered_of_ne_nil _ nonempty]

theorem run_both (lhs : Evaluation α) (rhs : Evaluation β) :
    (both lhs rhs).run tracing store =
      let left := lhs.run tracing store
      let right := rhs.run tracing left.store
      ⟨Outcome.both left.outcome right.outcome, right.store,
        left.journal ++ right.journal ++
          Event.ofFailures tracing
            (left.outcome.failure?.toList ++ right.outcome.failure?.toList)⟩ := by
  cases leftRan : (lhs.run tracing store).outcome with
  | ok left =>
      cases rightRan : (rhs.run tracing (lhs.run tracing store).store).outcome <;>
        simp [both, run_bind, run_check, leftRan, rightRan, Outcome.both, Outcome.gathered]
  | error failure =>
      cases rightRan : (rhs.run tracing (lhs.run tracing store).store).outcome <;>
        simp [both, run_bind, run_check, leftRan, rightRan, Outcome.both, Outcome.gathered]

end Closed

end Evaluation

end Deferred
