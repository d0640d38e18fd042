import Deferred.Proofs.Runs
import Deferred.Operation

/-!
# Evaluations that leave the store as it is

Many calculations do not change anything. What such operands come to does not depend on which of
them were run before, so the outcome of a combinator can be written down without any store in
between. `Evaluation.Gives` says that an evaluation comes to an outcome and leaves the store as it
is, and the lemmas below compute the outcome of a combinator from those of its operands. A fold with
a pure reducing function comes to the monadic fold of that function over the values of its operands.
-/

namespace Deferred

variable {α β ι : Type}

/-- The outcome of operands that are all run: their values, or all their failures together. -/
def Outcome.collected (outcomes : List (Outcome α)) : Outcome (List α) :=
  gathered (failures outcomes) (values outcomes)

namespace Outcome

@[simp]
theorem failures_map_ok (values : List α) : failures (values.map .ok) = [] := by
  induction values with
  | nil => rfl
  | cons value values ih => simpa using ih

@[simp]
theorem values_map_ok (values : List α) : Outcome.values (values.map .ok) = values := by
  induction values with
  | nil => rfl
  | cons value values ih => simpa using ih

@[simp]
theorem collected_map_ok (values : List α) : collected (values.map .ok) = .ok values := by
  simp [collected]

theorem mem_failures_iff {outcomes : List (Outcome α)} {failure : Failure} :
    failure ∈ failures outcomes ↔ .error failure ∈ outcomes := by
  induction outcomes with
  | nil => simp
  | cons outcome outcomes ih => cases outcome <;> simp [ih]

theorem collected_of_failures_ne_nil {outcomes : List (Outcome α)}
    (nonempty : failures outcomes ≠ []) :
    collected outcomes = .error (.aggregate (failures outcomes)) :=
  gathered_of_ne_nil _ nonempty

theorem collected_eq_ok_iff {outcomes : List (Outcome α)} {values : List α} :
    collected outcomes = .ok values ↔ outcomes = values.map .ok := by
  constructor
  · intro succeeds
    by_cases nothing : failures outcomes = []
    · rw [failures_eq_nil_iff.mp nothing, collected_map_ok, Except.ok.injEq] at succeeds
      rw [failures_eq_nil_iff.mp nothing, succeeds]
    · rw [collected_of_failures_ne_nil nothing] at succeeds
      cases succeeds
  · rintro rfl
    exact collected_map_ok values

theorem bind_eq_ok_iff {outcome : Outcome α} {rest : α → Outcome β} {value : β} :
    outcome.bind rest = .ok value ↔ ∃ first, outcome = .ok first ∧ rest first = .ok value := by
  cases outcome <;> simp [Except.bind]

end Outcome

namespace Evaluation

/-- Run in a store, an evaluation comes to an outcome and leaves the store as it is. -/
structure Gives (tracing : Bool) (store : Store) (evaluation : Evaluation α)
    (outcome : Outcome α) : Prop where
  outcome_eq : (evaluation.run tracing store).outcome = outcome
  store_eq : (evaluation.run tracing store).store = store

variable {tracing : Bool} {store : Store}

theorem gives_pure (value : α) : (pure value : Evaluation α).Gives tracing store (.ok value) :=
  ⟨rfl, rfl⟩

theorem gives_read {kind : Kind} (source : Variable kind) :
    (read source).Gives tracing store (.ok (store.read source)) :=
  ⟨rfl, rfl⟩

namespace Gives

theorem map {evaluation : Evaluation α} {outcome : Outcome α}
    (gives : evaluation.Gives tracing store outcome) (function : α → β) :
    (function <$> evaluation).Gives tracing store (outcome.map function) :=
  ⟨congrArg (Except.map function) gives.outcome_eq, gives.store_eq⟩

theorem reportingFailure {evaluation : Evaluation α} {outcome : Outcome α}
    (gives : evaluation.Gives tracing store outcome) (event : Failure → Event) :
    (evaluation.reportingFailure event).Gives tracing store outcome := by
  constructor
  · rw [run_reportingFailure_eq]
    exact gives.outcome_eq
  · rw [run_reportingFailure_eq]
    exact gives.store_eq

/-- After a success, what the rest comes to is what the whole comes to. -/
theorem bind {first : Evaluation α} {rest : α → Evaluation β} {outcome : Outcome α}
    {after : α → Outcome β} (begun : first.Gives tracing store outcome)
    (goesOn : ∀ value, outcome = .ok value → (rest value).Gives tracing store (after value)) :
    (first >>= rest).Gives tracing store (outcome.bind after) := by
  rcases begun with ⟨rfl, kept⟩
  cases ran : (first.run tracing store).outcome with
  | ok value =>
      have ended := goesOn value ran
      constructor
      · rw [run_bind_of_ok tracing store rest ran, kept]
        exact ended.outcome_eq
      · rw [run_bind_of_ok tracing store rest ran, kept]
        exact ended.store_eq
  | error failure =>
      constructor
      · rw [run_bind_of_error tracing store rest ran]
        rfl
      · rw [run_bind_of_error tracing store rest ran]
        exact kept

theorem both {lhs : Evaluation α} {rhs : Evaluation β} {left : Outcome α} {right : Outcome β}
    (leftGives : lhs.Gives tracing store left) (rightGives : rhs.Gives tracing store right) :
    (both lhs rhs).Gives tracing store (Outcome.both left right) := by
  constructor
  · simp only [run_both, leftGives.store_eq, leftGives.outcome_eq, rightGives.outcome_eq]
  · simp only [run_both, leftGives.store_eq, rightGives.store_eq]

theorem binary {function : α → α → Evaluation α} {result : α → α → Outcome α}
    {lhs rhs : Evaluation α} {left right : Outcome α} (leftGives : lhs.Gives tracing store left)
    (rightGives : rhs.Gives tracing store right)
    (called : ∀ first second, (function first second).Gives tracing store (result first second)) :
    (binary function lhs rhs).Gives tracing store
      ((Outcome.both left right).bind fun values => result values.1 values.2) := by
  apply (leftGives.both rightGives).bind
  intro values _
  exact called values.1 values.2

end Gives

/-- Operands that leave the store as it is all find the same store. -/
theorem runs_of_gives {items : List ι} {evaluation : ι → Evaluation α} {outcome : ι → Outcome α}
    (each : ∀ item ∈ items, (evaluation item).Gives tracing store (outcome item)) :
    (runs tracing store (items.map evaluation)).map Run.outcome = items.map outcome ∧
      Run.storeAfter store (runs tracing store (items.map evaluation)) = store := by
  induction items with
  | nil => exact ⟨rfl, rfl⟩
  | cons item items ih =>
      rcases each item List.mem_cons_self with ⟨same, kept⟩
      have others := ih fun other member => each other (List.mem_cons_of_mem _ member)
      simpa [same, kept] using others

theorem gives_all {items : List ι} {evaluation : ι → Evaluation α} {outcome : ι → Outcome α}
    (each : ∀ item ∈ items, (evaluation item).Gives tracing store (outcome item)) :
    (all (items.map evaluation)).Gives tracing store (Outcome.collected (items.map outcome)) := by
  rcases runs_of_gives each with ⟨same, kept⟩
  constructor
  · simp only [run_all, same, Outcome.collected]
  · simp only [run_all, kept]

end Evaluation

variable {kind : Kind} {tracing : Bool} {store : Store}

theorem Operation.gives_call_pure (name : Option String)
    (apply : kind.Value → kind.Value → kind.Value) (lhs rhs : kind.Value) :
    ((Operation.pure name apply).call lhs rhs).Gives tracing store (.ok (apply lhs rhs)) :=
  ⟨rfl, rfl⟩

namespace Reducer

theorem gives_call_pure (name : Option String) (step : kind.Value → kind.Value → Outcome kind.Value)
    (accumulated next : kind.Value) :
    ((Reducer.pure name step).call accumulated next).Gives tracing store
      (step accumulated next) := by
  rw [call_pure]
  cases reduced : step accumulated next with
  | ok value => exact ⟨rfl, rfl⟩
  | error failure => exact ⟨rfl, rfl⟩

/-- Steps that do nothing else amount to a fold that stops at the first failure. -/
theorem gives_reduceFrom_pure (name : Option String)
    (step : kind.Value → kind.Value → Outcome kind.Value) (index : Nat) (accumulated : kind.Value)
    (values : List kind.Value) :
    (Evaluation.reduceFrom (Reducer.pure name step).call index accumulated values).Gives tracing
      store (values.foldlM step accumulated) := by
  induction values generalizing index accumulated with
  | nil => exact Evaluation.gives_pure accumulated
  | cons next rest ih =>
      rw [Evaluation.reduceFrom_cons, List.foldlM_cons]
      apply ((gives_call_pure name step accumulated next).reportingFailure _).bind
      intro reduced _
      exact ih (index + 1) reduced

/-- What a fold with a pure reducing function comes to, if its parts leave the store as it is. -/
theorem gives_reduceLeft_pure (name : Option String)
    (step : kind.Value → kind.Value → Outcome kind.Value) {initial : Evaluation kind.Value}
    {start : Outcome kind.Value} (begun : initial.Gives tracing store start) {items : List ι}
    {evaluation : ι → Evaluation kind.Value} {outcome : ι → Outcome kind.Value}
    (each : ∀ item ∈ items, (evaluation item).Gives tracing store (outcome item)) :
    (Evaluation.reduceLeft (Reducer.pure name step).call initial (items.map evaluation)).Gives
      tracing store
      (start.bind fun first =>
        (Outcome.collected (items.map outcome)).bind fun values => values.foldlM step first) := by
  apply (begun.reportingFailure _).bind
  intro first _
  apply (Evaluation.gives_all each).bind
  intro values _
  exact gives_reduceFrom_pure name step 0 first values

end Reducer

end Deferred
