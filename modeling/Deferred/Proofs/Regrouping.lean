import Deferred.Proofs.Overflow

/-!
# Folds of groups

The operands of a sum or product can be put into groups, each of which becomes a sum or product of
its own. This changes neither what is run, nor in which store, nor the value: operations that wrap
around are associative, and a group without operands contributes what a fold starts from.

What changes is how failures are put together. The nested form has an aggregate for each group in
which something failed, and an aggregate of these. The flat form has all failures in one list, which
is what the lists of the nested form add up to.
-/

namespace Deferred

variable {α : Type}

theorem Run.storeAfter_append (store : Store) (first second : List (Run α)) :
    storeAfter store (first ++ second) = storeAfter (storeAfter store first) second := by
  simp [storeAfter]

namespace Evaluation

/-- The runs of groups of evaluations. Each evaluation finds the store that the one before left
behind, which may belong to an earlier group. -/
def groupRuns (tracing : Bool) : Store → List (List (Evaluation α)) → List (List (Run α))
  | _, [] => []
  | store, group :: groups =>
    let done := runs tracing store group
    done :: groupRuns tracing (Run.storeAfter store done) groups

variable (tracing : Bool) (store : Store)

theorem runs_append (first second : List (Evaluation α)) :
    runs tracing store (first ++ second) =
      runs tracing store first ++
        runs tracing (Run.storeAfter store (runs tracing store first)) second := by
  induction first generalizing store with
  | nil => rfl
  | cons evaluation first ih => simp [ih]

theorem flatten_groupRuns (groups : List (List (Evaluation α))) :
    (groupRuns tracing store groups).flatten = runs tracing store groups.flatten := by
  induction groups generalizing store with
  | nil => rfl
  | cons group groups ih => simp [groupRuns, runs_append, ih]

end Evaluation

namespace Folding

variable (folding : Folding)

/-! ## A fold after its operands -/

/-- What a fold that wraps around makes of the outcomes of its operands. -/
def settled (outcomes : List (Outcome Int64)) : Outcome Int64 :=
  Outcome.gathered (Outcome.failures outcomes)
    ((Outcome.values outcomes).foldl folding.operation.wrapping folding.start)

/-- What a fold that wraps around notes when its operands have run: either calls of the reducing
function, or an event about failures. -/
def closing (tracing : Bool) (outcomes : List (Outcome Int64)) : List Entry :=
  if Outcome.failures outcomes = [] then
    folding.calls (Outcome.values outcomes)
  else
    Event.entries tracing (.operandsFailed (Outcome.failures outcomes).length)

theorem ofInt_total (values : List Int64) :
    .ofInt (folding.total (values.map Int64.toInt)) =
      values.foldl folding.operation.wrapping folding.start := by
  rw [total, ← RingOperation.foldl_wrapping]
  simp [Function.comp_def]

/-- What comes of a fold that wraps around, by the runs of its operands. -/
def completed (tracing : Bool) (store : Store) (done : List (Run Int64)) : Run Int64 :=
  ⟨folding.settled (done.map Run.outcome), Run.storeAfter store done,
    done.flatMap Run.journal ++ folding.closing tracing (done.map Run.outcome)⟩

theorem run_wrapping (operands : List (Calculation .int)) (tracing : Bool) (store : Store) :
    (folding.wrapping (.ofList operands)).evaluate.run tracing store =
      folding.completed tracing store
        (Evaluation.runs tracing store (operands.map Calculation.evaluate)) := by
  rw [wrapping_eq]
  by_cases nothing : Outcome.failures
      ((Evaluation.runs tracing store (operands.map Calculation.evaluate)).map Run.outcome) = []
  · have succeed := Outcome.failures_eq_nil_iff.mp nothing
    rw [← Operands.toList_ofList operands] at succeed
    rcases Calculation.reduces_of_succeed (.pure none fun accumulated next =>
      .ok (folding.operation.wrapping accumulated next)) folding.start succeed with
      ⟨reduced, reduces, ran⟩
    rw [ran, wrapping_of_reduces reduces, ofInt_total, Operands.toList_ofList]
    simp [completed, settled, closing, nothing]
  · rw [Calculation.evaluate_reduceLeft, Operands.toList_ofList]
    apply ((Evaluation.foldsInPhases_reduceLeft (pure folding.start) _).operandsFail folding.start
      rfl nothing).trans
    simp [completed, settled, closing, nothing, Outcome.gathered]

/-! ## Groups -/

theorem wrapping_assoc (first second third : Int64) :
    folding.operation.wrapping (folding.operation.wrapping first second) third =
      folding.operation.wrapping first (folding.operation.wrapping second third) := by
  cases folding with
  | sum => exact Int64.add_assoc first second third
  | product => exact Int64.mul_assoc first second third

theorem wrapping_start (value : Int64) :
    folding.operation.wrapping value folding.start = value := by
  cases folding with
  | sum => exact Int64.add_zero value
  | product => exact Int64.mul_one value

theorem foldl_wrapping_flatten (groups : List (List Int64)) (accumulated : Int64) :
    groups.flatten.foldl folding.operation.wrapping accumulated =
      (groups.map fun group => group.foldl folding.operation.wrapping folding.start).foldl
        folding.operation.wrapping accumulated := by
  have associative : Std.Associative folding.operation.wrapping := ⟨folding.wrapping_assoc⟩
  induction groups generalizing accumulated with
  | nil => rfl
  | cons group groups ih =>
      have restarted : group.foldl folding.operation.wrapping accumulated =
          folding.operation.wrapping accumulated
            (group.foldl folding.operation.wrapping folding.start) := by
        apply Eq.trans _ List.foldl_assoc
        rw [wrapping_start]
      simp only [List.flatten_cons, List.foldl_append, List.map_cons, List.foldl_cons, restarted,
        ih]

theorem settled_of_failures_eq_nil {outcomes : List (Outcome Int64)}
    (nothing : Outcome.failures outcomes = []) :
    folding.settled outcomes =
      .ok ((Outcome.values outcomes).foldl folding.operation.wrapping folding.start) := by
  rw [settled, nothing, Outcome.gathered_nil]

theorem settled_of_failures_ne_nil {outcomes : List (Outcome Int64)}
    (failing : Outcome.failures outcomes ≠ []) :
    folding.settled outcomes = .error (.aggregate (Outcome.failures outcomes)) :=
  Outcome.gathered_of_ne_nil _ failing

/-- The lists of failures of those groups in which something failed. -/
def failingGroups (groups : List (List (Outcome α))) : List (List Failure) :=
  (groups.map Outcome.failures).filter (· ≠ [])

theorem flatten_failingGroups (groups : List (List (Outcome α))) :
    (failingGroups groups).flatten = Outcome.failures groups.flatten := by
  induction groups with
  | nil => rfl
  | cons group groups ih =>
      by_cases nothing : Outcome.failures group = [] <;>
        simp_all [failingGroups]

theorem failures_map_settled (groups : List (List (Outcome Int64))) :
    Outcome.failures (groups.map folding.settled) =
      (failingGroups groups).map .aggregate := by
  induction groups with
  | nil => rfl
  | cons group groups ih =>
      by_cases nothing : Outcome.failures group = []
      · rw [List.map_cons, folding.settled_of_failures_eq_nil nothing]
        simp_all [failingGroups]
      · rw [List.map_cons, folding.settled_of_failures_ne_nil nothing]
        simp_all [failingGroups]

theorem values_map_settled {groups : List (List (Outcome Int64))}
    (nothing : failingGroups groups = []) :
    Outcome.values (groups.map folding.settled) =
      (groups.map Outcome.values).map fun group =>
        group.foldl folding.operation.wrapping folding.start := by
  induction groups with
  | nil => rfl
  | cons group groups ih =>
      have first : Outcome.failures group = [] := by
        by_contra failing
        simp [failingGroups, failing] at nothing
      have others : failingGroups groups = [] := by
        simpa [failingGroups, first] using nothing
      rw [List.map_cons, folding.settled_of_failures_eq_nil first]
      simp [ih others]

theorem settled_map_settled (groups : List (List (Outcome Int64))) :
    folding.settled (groups.map folding.settled) =
      Outcome.gathered ((failingGroups groups).map .aggregate)
        ((Outcome.values groups.flatten).foldl folding.operation.wrapping folding.start) := by
  rw [settled, failures_map_settled]
  by_cases nothing : failingGroups groups = []
  · rw [folding.values_map_settled nothing, ← foldl_wrapping_flatten]
    rw [Outcome.values, List.filterMap_flatten]
    rfl
  · simp [Outcome.gathered, nothing]

theorem failingGroups_eq_nil_iff {groups : List (List (Outcome α))} :
    failingGroups groups = [] ↔ Outcome.failures groups.flatten = [] := by
  rw [← flatten_failingGroups]
  simp [failingGroups, List.flatten_eq_nil_iff]

theorem settled_flatten (groups : List (List (Outcome Int64))) :
    (∀ value, folding.settled groups.flatten = .ok value ↔
      folding.settled (groups.map folding.settled) = .ok value) ∧
    ∀ failure, folding.settled (groups.map folding.settled) = .error failure →
      failure = .aggregate ((failingGroups groups).map .aggregate) ∧
        folding.settled groups.flatten = .error (.aggregate (failingGroups groups).flatten) := by
  rw [settled_map_settled]
  by_cases nothing : failingGroups groups = []
  · rw [folding.settled_of_failures_eq_nil (failingGroups_eq_nil_iff.mp nothing), nothing]
    simp
  · have failing := mt failingGroups_eq_nil_iff.mpr nothing
    rw [folding.settled_of_failures_ne_nil failing, flatten_failingGroups,
      Outcome.gathered_of_ne_nil _ (by simpa using nothing)]
    simp [eq_comm]

/-! ## Flat and nested folds -/

section

variable (tracing : Bool) (store : Store)

/-- What comes of the folds of groups, by the runs of the operands of each group. -/
def completedGroups (tracing : Bool) : Store → List (List (Run Int64)) → List (Run Int64)
  | _, [] => []
  | store, done :: groups =>
    folding.completed tracing store done ::
      completedGroups tracing (Run.storeAfter store done) groups

theorem runs_wrapping (groups : List (List (Calculation .int))) :
    Evaluation.runs tracing store
        ((groups.map fun group => folding.wrapping (.ofList group)).map Calculation.evaluate) =
      folding.completedGroups tracing store
        (Evaluation.groupRuns tracing store (groups.map (List.map Calculation.evaluate))) := by
  induction groups generalizing store with
  | nil => rfl
  | cons group groups ih =>
      simp only [List.map_cons, Evaluation.runs_cons, Evaluation.groupRuns, completedGroups,
        run_wrapping]
      rw [← ih]
      rfl

variable (done : List (List (Run Int64)))

theorem map_outcome_completedGroups :
    (folding.completedGroups tracing store done).map Run.outcome =
      (done.map (List.map Run.outcome)).map folding.settled := by
  induction done generalizing store with
  | nil => rfl
  | cons group groups ih => simp [completedGroups, completed, ih]

theorem storeAfter_completedGroups :
    Run.storeAfter store (folding.completedGroups tracing store done) =
      Run.storeAfter store done.flatten := by
  induction done generalizing store with
  | nil => rfl
  | cons group groups ih => simp [completedGroups, completed, Run.storeAfter_append, ih]

theorem flatMap_journal_completedGroups :
    (folding.completedGroups tracing store done).flatMap Run.journal =
      done.flatMap fun group =>
        group.flatMap Run.journal ++ folding.closing tracing (group.map Run.outcome) := by
  induction done generalizing store with
  | nil => rfl
  | cons group groups ih => simp [completedGroups, completed, ih]

end

/-- How a fold of all operands and a fold of the folds of their groups are related, by the runs of
the operands of each group. -/
structure Regroups (tracing : Bool) (store : Store) (done : List (List (Run Int64)))
    (flat nested : Run Int64) : Prop where
  flat_eq : flat = folding.completed tracing store done.flatten
  nested_eq : nested = folding.completed tracing store (folding.completedGroups tracing store done)
  store_eq : nested.store = flat.store
  /-- The nested form runs the same operands, and closes each group when its operands have run. -/
  journal_eq : nested.journal =
    (done.flatMap fun group =>
      group.flatMap Run.journal ++ folding.closing tracing (group.map Run.outcome)) ++
        folding.closing tracing ((done.map (List.map Run.outcome)).map folding.settled)
  succeed : ∀ value, flat.outcome = .ok value ↔ nested.outcome = .ok value
  fail : ∀ failure, nested.outcome = .error failure →
    let causes := failingGroups (done.map (List.map Run.outcome))
    failure = .aggregate (causes.map .aggregate) ∧
      flat.outcome = .error (.aggregate causes.flatten)

theorem regroups_completed (tracing : Bool) (store : Store) (done : List (List (Run Int64))) :
    folding.Regroups tracing store done (folding.completed tracing store done.flatten)
      (folding.completed tracing store (folding.completedGroups tracing store done)) := by
  have outcomes := folding.map_outcome_completedGroups tracing store done
  have nested : (folding.completed tracing store
      (folding.completedGroups tracing store done)).outcome =
      folding.settled ((done.map (List.map Run.outcome)).map folding.settled) := by
    rw [completed, outcomes]
  have flat : (folding.completed tracing store done.flatten).outcome =
      folding.settled (done.map (List.map Run.outcome)).flatten := by
    rw [completed, List.map_flatten]
  rcases folding.settled_flatten (done.map (List.map Run.outcome)) with ⟨succeed, fail⟩
  refine ⟨rfl, rfl, folding.storeAfter_completedGroups tracing store done, ?_, ?_, ?_⟩
  · simp only [completed, outcomes, flatMap_journal_completedGroups]
  · rw [flat, nested]
    exact succeed
  · rw [flat, nested]
    exact fail

/-- Sums and products that wrap around can be regrouped. Both forms run the same operands in the
same order, each in the same store, and come to the same value. The failures of the flat form are
those in the aggregates that the nested form has for its groups, in the same order. -/
theorem wrapping_regroups (folding : Folding) (groups : List (List (Calculation .int)))
    (tracing : Bool) (store : Store) :
    let evaluations := groups.map (List.map Calculation.evaluate)
    let done := Evaluation.groupRuns tracing store evaluations
    done.flatten = Evaluation.runs tracing store evaluations.flatten ∧
      folding.Regroups tracing store done
        ((folding.wrapping (.ofList groups.flatten)).evaluate.run tracing store)
        ((folding.wrapping (.ofList (groups.map fun group =>
          folding.wrapping (.ofList group)))).evaluate.run tracing store) := by
  intro evaluations done
  have flattened : done.flatten = Evaluation.runs tracing store evaluations.flatten :=
    Evaluation.flatten_groupRuns tracing store evaluations
  refine ⟨flattened, ?_⟩
  rw [run_wrapping, run_wrapping, runs_wrapping, List.map_flatten, ← flattened]
  exact folding.regroups_completed tracing store done

end Folding

end Deferred
