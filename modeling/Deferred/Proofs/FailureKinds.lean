import Deferred.Proofs.Surfacing

/-!
# Which failures a combinator can give

Combinators that run all their operands fail with an aggregate or not at all, whatever the operands
fail with: the aggregate has at least one cause and at most one for each operand. Only a reducing
function can add another failure to this, and the reducing functions of the library add nothing but
an overflow.

Failures are put together by `Aggregate.ofFailures?` only, and what is put together is not empty. If
this is true of the failures that come up, it is true of every failure that an evaluation ends with,
at any depth. The induction goes over the ledger of a run, which knows only one way of putting
failures together.
-/

namespace Deferred

variable {kind : Kind} {α β : Type}

/-- Some failures put together, at least one and at most the given number. -/
def Failure.IsAggregateOf (count : Nat) (failure : Failure) : Prop :=
  ∃ causes, failure = .aggregate causes ∧ 1 ≤ causes.length ∧ causes.length ≤ count

theorem Outcome.isAggregateOf_gathered {failures : List Failure} {value : α} {failure : Failure}
    {count : Nat} (few : failures.length ≤ count)
    (fails : (gathered failures value).failure? = some failure) :
    failure.IsAggregateOf count := by
  by_cases nonempty : failures = []
  · simp [nonempty] at fails
  · rw [gathered_of_ne_nil _ nonempty] at fails
    cases fails
    exact ⟨failures, rfl, List.length_pos_iff.mpr nonempty, few⟩

/-- Whatever an evaluation finds, it fails with nothing but what is allowed. -/
structure Evaluation.FailsOnly (allowed : Failure → Prop) (evaluation : Evaluation α) : Prop where
  allows : ∀ tracing store failure, (evaluation.run tracing store).outcome = .error failure →
    allowed failure

namespace Evaluation

/-- Gives a value that is already known, or takes an exit if there is a failure instead. -/
def orExit (exit : Failure → Evaluation α) : Outcome α → Evaluation α
  | .ok value => pure value
  | .error failure => exit failure

/-- Runs two operands and gives both values, with any exits for the failures that the check of both
outcomes has let pass. -/
def bothWith (leftExit : Failure → Evaluation α) (rightExit : Failure → Evaluation β)
    (lhs : Evaluation α) (rhs : Evaluation β) : Evaluation (α × β) := do
  let left ← lhs.attempt
  let right ← rhs.attempt
  check (left.failure?.toList ++ right.failure?.toList)
  return (← orExit leftExit left, ← orExit rightExit right)

theorem check_bind_of_ne_nil {failures : List Failure} (nonempty : failures ≠ [])
    (rest : Unit → Evaluation α) :
    check failures >>= rest =
      emit (.operandsFailed failures.length) >>= fun _ => fail (.aggregate failures) := by
  rw [check_of_ne_nil nonempty, Evaluation.bind_assoc]
  rfl

/-- The exits after the check are never taken, so it does not matter what they are. -/
theorem bothWith_eq_both (leftExit : Failure → Evaluation α) (rightExit : Failure → Evaluation β)
    (lhs : Evaluation α) (rhs : Evaluation β) :
    bothWith leftExit rightExit lhs rhs = both lhs rhs := by
  apply bind_congr
  intro left
  apply bind_congr
  intro right
  -- If the check lets both outcomes pass, both are values. Otherwise it fails itself.
  by_cases passed : left.failure?.toList ++ right.failure?.toList = []
  · rcases List.append_eq_nil_iff.mp passed with ⟨leftPassed, rightPassed⟩
    rcases Outcome.failure?_eq_none_iff.mp (Option.toList_eq_nil_iff.mp leftPassed) with ⟨_, rfl⟩
    rcases Outcome.failure?_eq_none_iff.mp (Option.toList_eq_nil_iff.mp rightPassed) with ⟨_, rfl⟩
    rfl
  · rw [check_bind_of_ne_nil passed, check_bind_of_ne_nil passed]

namespace FailsOnly

variable {allowed : Failure → Prop}

theorem of_succeeds {evaluation : Evaluation α}
    (succeeds : ∀ tracing store, ∃ value, (evaluation.run tracing store).outcome = .ok value) :
    evaluation.FailsOnly allowed := by
  constructor
  intro tracing store failure fails
  rcases succeeds tracing store with ⟨value, succeeded⟩
  rw [succeeded] at fails
  cases fails

theorem mono {larger : Failure → Prop} {evaluation : Evaluation α}
    (failsOnly : evaluation.FailsOnly allowed) (included : ∀ failure, allowed failure →
      larger failure) : evaluation.FailsOnly larger :=
  ⟨fun tracing store failure fails =>
    included failure (failsOnly.allows tracing store failure fails)⟩

theorem map (function : α → β) {evaluation : Evaluation α}
    (failsOnly : evaluation.FailsOnly allowed) : (function <$> evaluation).FailsOnly allowed := by
  constructor
  intro tracing store failure fails
  rw [run_map] at fails
  cases ran : (evaluation.run tracing store).outcome with
  | ok value => simp [ran] at fails
  | error own =>
      obtain rfl : own = failure := by simpa [ran] using fails
      exact failsOnly.allows tracing store own ran

theorem reportingFailure (event : Failure → Event) {evaluation : Evaluation α}
    (failsOnly : evaluation.FailsOnly allowed) :
    (evaluation.reportingFailure event).FailsOnly allowed := by
  constructor
  intro tracing store failure fails
  rw [run_reportingFailure_eq] at fails
  exact failsOnly.allows tracing store failure fails

theorem bind {first : Evaluation α} {rest : α → Evaluation β} (begun : first.FailsOnly allowed)
    (goesOn : ∀ value, (rest value).FailsOnly allowed) : (first >>= rest).FailsOnly allowed := by
  constructor
  intro tracing store failure fails
  cases ran : (first.run tracing store).outcome with
  | ok value =>
      rw [run_bind_of_ok tracing store rest ran] at fails
      exact (goesOn value).allows tracing _ failure fails
  | error own =>
      rw [run_bind_of_error tracing store rest ran] at fails
      obtain rfl : own = failure := by simpa using fails
      exact begun.allows tracing store own ran

theorem both (lhs : Evaluation α) (rhs : Evaluation β) :
    (both lhs rhs).FailsOnly (Failure.IsAggregateOf 2) := by
  constructor
  intro tracing store failure fails
  rw [run_both] at fails
  have gathered := congrArg Outcome.failure? fails
  rw [Outcome.failure?_both] at gathered
  apply Outcome.isAggregateOf_gathered _ gathered
  rw [List.length_append]
  exact Nat.add_le_add Option.length_toList_le Option.length_toList_le

theorem all (operands : List (Evaluation α)) :
    (all operands).FailsOnly (Failure.IsAggregateOf operands.length) := by
  constructor
  intro tracing store failure fails
  rw [run_all] at fails
  have few := List.length_filterMap_le Outcome.failure?
    ((runs tracing store operands).map Run.outcome)
  rw [List.length_map, length_runs] at few
  exact Outcome.isAggregateOf_gathered few (congrArg Outcome.failure? fails)

theorem reduceFrom {reduce : α → α → Evaluation α}
    (called : ∀ accumulated next, (reduce accumulated next).FailsOnly allowed) (step : Nat)
    (accumulated : α) (values : List α) :
    (reduceFrom reduce step accumulated values).FailsOnly allowed := by
  induction values generalizing step accumulated with
  | nil => exact of_succeeds fun _ _ => ⟨accumulated, rfl⟩
  | cons next rest ih =>
      apply ((called accumulated next).reportingFailure _).bind
      intro reduced
      exact ih (step + 1) reduced

/-- Once the initial value is there, a fold fails with an aggregate, or like its reducing
function. -/
theorem reduceLeft {reduce : α → α → Evaluation α} {initial : Evaluation α}
    (succeeds : ∀ tracing store, ∃ value, (initial.run tracing store).outcome = .ok value)
    (called : ∀ accumulated next, (reduce accumulated next).FailsOnly allowed)
    (operands : List (Evaluation α)) :
    (reduceLeft reduce initial operands).FailsOnly fun failure =>
      allowed failure ∨ failure.IsAggregateOf operands.length := by
  unfold Evaluation.reduceLeft
  apply ((of_succeeds succeeds).reportingFailure _).bind
  intro start
  apply ((all operands).mono fun _ => .inr).bind
  intro values
  apply (reduceFrom called 0 start values).mono
  intro failure
  exact .inl

end FailsOnly

end Evaluation

theorem Operation.failsOnly_call (operation : Operation kind) (lhs rhs : kind.Value)
    (allowed : Failure → Prop) : (operation.call lhs rhs).FailsOnly allowed := by
  apply Evaluation.FailsOnly.bind
  · exact .of_succeeds fun _ _ => ⟨(), rfl⟩
  · intro _
    apply Evaluation.FailsOnly.of_succeeds
    intro tracing store
    rcases (operation.body lhs rhs).perform_spec tracing store with ⟨value, succeeds, _⟩
    exact ⟨value, succeeds⟩

theorem Reducer.failsOnly_call_pure (name : Option String)
    {step : kind.Value → kind.Value → Outcome kind.Value} {allowed : Failure → Prop}
    (steps : ∀ accumulated next failure, step accumulated next = .error failure → allowed failure)
    (accumulated next : kind.Value) :
    ((Reducer.pure name step).call accumulated next).FailsOnly allowed := by
  rw [call_pure]
  apply Evaluation.FailsOnly.bind
  · exact .of_succeeds fun _ _ => ⟨(), rfl⟩
  · intro _
    constructor
    intro tracing store failure fails
    apply steps accumulated next failure
    cases reduced : step accumulated next with
    | ok value => simp [reduced] at fails
    | error own => simpa [reduced] using fails

/-! ## Failures that were put together properly -/

namespace Failure

/-- A failure that was made by the constructors that are open to everybody. -/
inductive IsBuilt : Failure → Prop
  | message (text : String) : IsBuilt (.message text)
  | external (text : String) : IsBuilt (.external text)
  | overflow (operation : String) : IsBuilt (.overflow operation)
  | aggregate {failures : List Failure} {aggregate : Aggregate}
    (built : ∀ failure ∈ failures, IsBuilt failure)
    (put : Aggregate.ofFailures? failures = some aggregate) : IsBuilt aggregate.toFailure

/-- A failure is another one, or is nested in it at any depth. An error from outside is known by
its text, and nothing is nested in it. -/
inductive IsWithin (failure : Failure) : Failure → Prop
  | here : IsWithin failure failure
  | cause {cause : Failure} {causes : List Failure} (member : cause ∈ causes)
    (inside : IsWithin failure cause) : IsWithin failure (.aggregate causes)

theorem isBuilt_aggregate {causes : List Failure} (built : ∀ cause ∈ causes, cause.IsBuilt)
    (nonempty : causes ≠ []) : (aggregate causes).IsBuilt := by
  have put : Aggregate.ofFailures? causes = some ⟨causes, nonempty⟩ :=
    Aggregate.ofFailures?_eq_some_iff.mpr rfl
  exact .aggregate built put

namespace IsBuilt

theorem within {failure inner : Failure} (built : failure.IsBuilt)
    (nested : inner.IsWithin failure) : inner.IsBuilt := by
  induction built with
  | message text =>
      cases nested
      exact .message text
  | external text =>
      cases nested
      exact .external text
  | overflow operation =>
      cases nested
      exact .overflow operation
  | @aggregate failures whole built put ih =>
      have same := Aggregate.ofFailures?_eq_some_iff.mp put
      cases nested with
      | here => exact .aggregate built put
      | cause member inside => exact ih _ (same ▸ member) inside

/-- An aggregate that was put together properly has causes, and putting these together again gives
it back. -/
theorem rebuilds {causes : List Failure} (built : (Failure.aggregate causes).IsBuilt) :
    causes.isEmpty = false ∧
      (Aggregate.ofFailures? causes).map Aggregate.toFailure = some (.aggregate causes) := by
  generalize same : Failure.aggregate causes = failure at built
  cases built with
  | message text => cases same
  | external text => cases same
  | overflow operation => cases same
  | @aggregate failures whole built put =>
      obtain rfl : causes = whole.causes := by cases same; rfl
      have again : Aggregate.ofFailures? whole.causes = some whole :=
        Aggregate.ofFailures?_eq_some_iff.mpr rfl
      exact ⟨whole.isEmpty_eq_false, by rw [again]; rfl⟩

end IsBuilt

end Failure

/-- Failures that are left are put together properly if those that came up are. -/
theorem Ledger.isBuilt {tracing : Bool} {journal : List Entry} {failures : List Failure}
    {raised : List Nested} (ledger : Ledger tracing journal failures raised)
    (built : ∀ nested ∈ raised, nested.failure.IsBuilt) :
    ∀ failure ∈ failures, failure.IsBuilt := by
  induction ledger with
  | quiet silent => exact List.forall_mem_nil _
  | raised origin notReducer failure =>
      exact List.forall_mem_singleton.mpr (built _ (List.mem_singleton.mpr rfl))
  | stepFailed step failure =>
      exact List.forall_mem_singleton.mpr (built _ (List.mem_singleton.mpr rfl))
  | append before after ihBefore ihAfter =>
      rcases List.forall_mem_append.mp built with ⟨first, second⟩
      exact List.forall_mem_append.mpr ⟨ihBefore first, ihAfter second⟩
  | passed before event passing ih => exact ih built
  | gathered before nonempty ih =>
      have causes := ih fun nested member => built (nested.beneath 1) (List.mem_map_of_mem member)
      exact List.forall_mem_singleton.mpr (Failure.isBuilt_aggregate causes nonempty)

/-! ## Calculations -/

namespace Calculation

theorem failsOnly_equals (lhs rhs : Calculation kind) :
    (equals lhs rhs).evaluate.FailsOnly (Failure.IsAggregateOf 2) :=
  (Evaluation.FailsOnly.both lhs.evaluate rhs.evaluate).map _

theorem failsOnly_binary (operation : Operation kind) (lhs rhs : Calculation kind) :
    (binary operation lhs rhs).evaluate.FailsOnly (Failure.IsAggregateOf 2) := by
  apply (Evaluation.FailsOnly.both lhs.evaluate rhs.evaluate).bind
  intro values
  exact operation.failsOnly_call values.1 values.2 _

theorem failsOnly_reduceLeft_pure {name : Option String}
    {step : kind.Value → kind.Value → Outcome kind.Value} {allowed : Failure → Prop}
    (steps : ∀ accumulated next failure, step accumulated next = .error failure → allowed failure)
    (start : kind.Value) (operands : Operands kind) :
    (reduceLeft (.pure name step) (.constant start) operands).evaluate.FailsOnly fun failure =>
      allowed failure ∨ failure.IsAggregateOf operands.toList.length := by
  have begun : ∀ tracing store, ∃ value,
      ((constant start).evaluate.run tracing store).outcome = .ok value :=
    fun _ _ => ⟨start, rfl⟩
  have folds := Evaluation.FailsOnly.reduceLeft begun (Reducer.failsOnly_call_pure name steps)
    (operands.toList.map evaluate)
  rw [List.length_map] at folds
  rw [evaluate_reduceLeft]
  exact folds

theorem failsOnly_reduceLeft_total {name : Option String}
    {step : kind.Value → kind.Value → kind.Value} (start : kind.Value) (operands : Operands kind) :
    (reduceLeft (.pure name fun accumulated next => .ok (step accumulated next))
      (.constant start) operands).evaluate.FailsOnly
        (Failure.IsAggregateOf operands.toList.length) := by
  have never : ∀ accumulated next failure,
      (.ok (step accumulated next) : Outcome kind.Value) = .error failure → False := by simp
  apply (failsOnly_reduceLeft_pure never start operands).mono
  intro failure kinds
  exact kinds.resolve_left id

theorem failsOnly_reduceLeft_checked {name : Option String} (operation : String)
    {result : Int64 → Int64 → Int} (start : Int64) (operands : Operands .int) :
    let reducer : Reducer .int :=
      .pure name fun accumulated next => Arithmetic.checked operation (result accumulated next)
    (reduceLeft reducer (.constant start) operands).evaluate.FailsOnly fun failure =>
      failure = .overflow operation ∨ failure.IsAggregateOf operands.toList.length := by
  apply failsOnly_reduceLeft_pure
  intro accumulated next failure fails
  exact (Arithmetic.checked_eq_error_iff.mp fails).2

theorem isBuilt_of_raised {calculation : Calculation kind} {tracing : Bool} {store : Store}
    {failure : Failure}
    (built : ∀ raised ∈ (calculation.evaluate.run tracing store).journal.filterMap Entry.raised?,
      raised.IsBuilt)
    (fails : (calculation.evaluate.run tracing store).outcome = .error failure) :
    failure.IsBuilt := by
  have ledger : Ledger tracing _ _ _ := calculation.accounts store
  rw [ledger.filterMap_raised?] at built
  rw [fails] at ledger
  apply ledger.isBuilt
  · intro nested member
    exact built nested.failure (List.mem_map_of_mem member)
  · exact List.mem_singleton.mpr rfl

/-- Which failures calculations give, whatever their operands fail with. Comparisons, binary
functions, sums and products fail with aggregates only, of at least one cause and at most one for
each operand; checked sums and products can overflow besides. What stands at the exits after both
operands were checked does not matter. If the failures that come up in the course of a run were made
by the constructors that are open to everybody, so was the failure of the whole: no aggregate in it
is empty, and each of them is given back when its causes are put together. -/
theorem failures_have_kinds :
    (∀ {kind : Kind} (lhs rhs : Calculation kind),
      (equals lhs rhs).evaluate.FailsOnly (Failure.IsAggregateOf 2)) ∧
    (∀ {kind : Kind} (operation : Operation kind) (lhs rhs : Calculation kind),
      (binary operation lhs rhs).evaluate.FailsOnly (Failure.IsAggregateOf 2)) ∧
    (∀ lhs rhs : Calculation .int,
      (difference lhs rhs).evaluate.FailsOnly (Failure.IsAggregateOf 2)) ∧
    (∀ operands : Operands .int,
      let aggregates := Failure.IsAggregateOf operands.toList.length
      (sum operands).evaluate.FailsOnly aggregates ∧
      (product operands).evaluate.FailsOnly aggregates ∧
      ((checkedSum operands).evaluate.FailsOnly fun failure =>
        failure = .overflow "addition" ∨ aggregates failure) ∧
      ((checkedProduct operands).evaluate.FailsOnly fun failure =>
        failure = .overflow "multiplication" ∨ aggregates failure)) ∧
    (∀ {α β : Type} (leftExit : Failure → Evaluation α) (rightExit : Failure → Evaluation β)
      (lhs : Evaluation α) (rhs : Evaluation β),
      Evaluation.bothWith leftExit rightExit lhs rhs = Evaluation.both lhs rhs) ∧
    ∀ {kind : Kind} (calculation : Calculation kind) (tracing : Bool) (store : Store)
      (failure : Failure),
      let run := calculation.evaluate.run tracing store
      (∀ raised ∈ run.journal.filterMap Entry.raised?, raised.IsBuilt) →
      run.outcome = .error failure →
        failure.IsBuilt ∧
        ∀ causes, (Failure.aggregate causes).IsWithin failure →
          causes.isEmpty = false ∧
            (Aggregate.ofFailures? causes).map Aggregate.toFailure =
              some (.aggregate causes) := by
  refine ⟨failsOnly_equals, failsOnly_binary, failsOnly_binary _, ?_,
    Evaluation.bothWith_eq_both, ?_⟩
  · intro operands aggregates
    refine ⟨?_, ?_, ?_, ?_⟩
    · exact failsOnly_reduceLeft_total (0 : Int64) operands
    · exact failsOnly_reduceLeft_total (1 : Int64) operands
    · exact failsOnly_reduceLeft_checked "addition" 0 operands
    · exact failsOnly_reduceLeft_checked "multiplication" 1 operands
  · intro kind calculation tracing store failure run built fails
    have whole := isBuilt_of_raised built fails
    refine ⟨whole, fun causes nested => ?_⟩
    exact (whole.within nested).rebuilds

/-- A failure put together before and one from outside that wraps it are operands of a sum. -/
theorem failures_have_kinds_of_sum :
    let lost : Failure := .aggregate [.message "lost"]
    let calculation : Calculation .int :=
      .sum (.ofList [.failing lost, .constant (1 : Int64), .failing lost.ofForeign])
    let failure : Failure := .aggregate [lost, .external "multiple errors: lost"]
    let run := calculation.evaluate.run true .empty
    run.outcome = .error failure ∧ failure.IsAggregateOf 3 ∧
      (∀ raised ∈ run.journal.filterMap Entry.raised?, raised.IsBuilt) ∧
      lost.IsWithin failure ∧
      (Aggregate.ofFailures? [.message "lost"]).map Aggregate.toFailure = some lost := by
  intro lost calculation failure run
  rcases failures_have_kinds with ⟨_, _, _, folds, _, builds⟩
  have fails : run.outcome = .error failure := rfl
  have built : ∀ raised ∈ run.journal.filterMap Entry.raised?, raised.IsBuilt := by
    have raised : run.journal.filterMap Entry.raised? = [lost, lost.ofForeign] := rfl
    rw [raised]
    intro own member
    simp only [List.mem_cons, List.not_mem_nil, or_false] at member
    rcases member with rfl | rfl
    · apply Failure.isBuilt_aggregate
      · exact List.forall_mem_singleton.mpr (.message "lost")
      · simp
    · exact .external _
  have nested : lost.IsWithin failure := .cause List.mem_cons_self .here
  rcases builds calculation true .empty failure built fails with ⟨_, rebuilds⟩
  refine ⟨fails, ?_, built, nested, (rebuilds _ nested).2⟩
  exact (folds _).1.allows true .empty failure fails

end Calculation

end Deferred
