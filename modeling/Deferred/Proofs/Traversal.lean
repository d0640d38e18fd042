import Deferred.Proofs.Ledger

/-!
# The journal follows the graph

Events apart, nothing is noted but by the leaves of a graph, by what is supplied from outside, and
by the functions that are called. `Task.own` is what a task notes itself, before it takes up its
parts. The journal of a run is what the demanded tasks note themselves, in the order in which they
are demanded: a task before its parts, and the parts from left to right. In particular this is the
order of the accesses to variables (`Calculation.accessesInOrder`).
-/

namespace Deferred

variable {kind : Kind} {α β : Type} {keep : Entry → Bool} {tracing : Bool} {store : Store}

/-- What a task notes itself, events apart, before its parts are taken up. -/
def Task.own (tracing : Bool) (store : Store) : Task kind → List Entry
  | .run (.input source) => ((Evaluation.read source).run tracing store).journal
  | .run (.failing failure) =>
    ((Evaluation.raise .failing failure : Evaluation kind.Value).run tracing store).journal
  | .run (.supplied procedure) =>
    ((procedure.perform >>= Evaluation.settle .supplied).run tracing store).journal
  | .run (.preceded procedure _) => (procedure.perform.run tracing store).journal
  | .run _ => []
  | .apply operation lhs rhs => ((operation.call lhs rhs).run tracing store).journal
  | .reduce reducer accumulated next => ((reducer.call accumulated next).run tracing store).journal

/-- What is noted when a part is done. -/
def Visit.journal (tracing : Bool) (visit : Visit) : List Entry :=
  (visit.task.evaluate.run tracing visit.store).journal

/-- What a sequence notes is what its first part notes, and then what the rest notes. -/
theorem Evaluation.filter_journal_bind (first : Evaluation α) (rest : α → Evaluation β) :
    ((first >>= rest).run tracing store).journal.filter keep =
      (first.run tracing store).journal.filter keep ++
        (first.run tracing store).outcome.followedBy fun value =>
          ((rest value).run tracing (first.run tracing store).store).journal.filter keep := by
  cases ran : (first.run tracing store).outcome with
  | ok value =>
      rw [run_bind_of_ok tracing store rest ran, List.filter_append, Outcome.followedBy_ok]
  | error failure =>
      rw [run_bind_of_error tracing store rest ran, Outcome.followedBy_error, List.append_nil]

theorem Calculation.filter_journal_operands (index : Nat) (store : Store)
    (operands : List (Calculation kind)) :
    ((Evaluation.runs tracing store (operands.map evaluate)).flatMap Run.journal).filter keep =
      (operandVisits tracing index store operands).flatMap fun visit =>
        (visit.journal tracing).filter keep := by
  induction operands generalizing index store with
  | nil => rfl
  | cons operand operands ih =>
      have others := ih (index + 1) (operand.evaluate.run tracing store).store
      simp only [List.map_cons, Evaluation.runs_cons, List.flatMap_cons, List.filter_append, others]
      rfl

section Silent

variable (silent : ∀ event, keep (.event event) = false)
include silent

theorem Event.filter_entries_eq_nil (event : Event) : (event.entries tracing).filter keep = [] := by
  cases tracing <;> simp [entries, silent]

theorem Event.filter_ofOutcome_eq_nil (event : Failure → Event) (outcome : Outcome α) :
    (Event.ofOutcome tracing event outcome).filter keep = [] := by
  cases outcome with
  | ok value => rfl
  | error failure => exact filter_entries_eq_nil silent (event failure)

theorem Event.filter_ofFailures_eq_nil (failures : List Failure) :
    (Event.ofFailures tracing failures).filter keep = [] := by
  by_cases nonempty : failures = []
  · rw [nonempty]
    rfl
  · rw [ofFailures_of_ne_nil tracing nonempty]
    exact filter_entries_eq_nil silent _

namespace Evaluation

theorem filter_journal_reportingFailure (evaluation : Evaluation α) (event : Failure → Event) :
    ((evaluation.reportingFailure event).run tracing store).journal.filter keep =
      (evaluation.run tracing store).journal.filter keep := by
  rw [run_reportingFailure_eq, List.filter_append, Event.filter_ofOutcome_eq_nil silent,
    List.append_nil]

theorem filter_journal_both (lhs : Evaluation α) (rhs : Evaluation β) :
    ((both lhs rhs).run tracing store).journal.filter keep =
      (lhs.run tracing store).journal.filter keep ++
        (rhs.run tracing (lhs.run tracing store).store).journal.filter keep := by
  rw [run_both]
  simp only [List.filter_append, Event.filter_ofFailures_eq_nil silent, List.append_nil]

theorem filter_journal_all (evaluations : List (Evaluation α)) :
    ((all evaluations).run tracing store).journal.filter keep =
      ((runs tracing store evaluations).flatMap Run.journal).filter keep := by
  rw [run_all]
  simp only [List.filter_append, Event.filter_ofFailures_eq_nil silent, List.append_nil]

theorem filter_journal_conditional (condition : Evaluation Bool) (ifTrue ifFalse : Evaluation α) :
    ((condition.conditional ifTrue ifFalse).run tracing store).journal.filter keep =
      let selected := condition.run tracing store
      selected.journal.filter keep ++
        selected.outcome.followedBy fun value =>
          ((if value then ifTrue else ifFalse).run tracing selected.store).journal.filter keep := by
  rw [conditional, filter_journal_bind, filter_journal_reportingFailure silent,
    outcome_reportingFailure, store_reportingFailure]

theorem filter_journal_binary (function : α → α → Evaluation α) (lhs rhs : Evaluation α) :
    ((binary function lhs rhs).run tracing store).journal.filter keep =
      let left := lhs.run tracing store
      let right := rhs.run tracing left.store
      left.journal.filter keep ++ right.journal.filter keep ++
        (Outcome.both left.outcome right.outcome).followedBy fun values =>
          ((function values.1 values.2).run tracing right.store).journal.filter keep := by
  rw [binary, filter_journal_bind, filter_journal_both silent, run_both]

/-- What is noted in the three phases of a fold. -/
theorem filter_journal_reduceLeft (reduce : α → α → Evaluation α) (initial : Evaluation α)
    (operands : List (Evaluation α)) :
    ((reduceLeft reduce initial operands).run tracing store).journal.filter keep =
      let begun := initial.run tracing store
      let collected := (all operands).run tracing begun.store
      begun.journal.filter keep ++
        begun.outcome.followedBy fun start =>
          ((runs tracing begun.store operands).flatMap Run.journal).filter keep ++
            collected.outcome.followedBy fun values =>
              ((reduceFrom reduce 0 start values).run tracing collected.store).journal.filter
                keep := by
  rw [reduceLeft, filter_journal_bind, filter_journal_reportingFailure silent,
    outcome_reportingFailure, store_reportingFailure]
  simp only [filter_journal_bind, filter_journal_all silent]

end Evaluation

theorem Reducer.filter_journal_steps (reducer : Reducer kind) (index step : Nat) (store : Store)
    (accumulated : kind.Value) (values : List kind.Value) :
    ((Evaluation.reduceFrom reducer.call step accumulated values).run tracing store).journal.filter
        keep =
      (reducer.visits tracing index store accumulated values).flatMap fun visit =>
        (visit.journal tracing).filter keep := by
  induction values generalizing index step store accumulated with
  | nil => rfl
  | cons next rest ih =>
      rw [Evaluation.reduceFrom_cons, Evaluation.filter_journal_bind,
        Evaluation.filter_journal_reportingFailure silent, visits_cons]
      simp only [Evaluation.outcome_reportingFailure, Evaluation.store_reportingFailure,
        List.flatMap_cons, Outcome.flatMap_followedBy, ih (index + 1) (step + 1)]
      rfl

/-- Events apart, the journal of a calculation is what it notes itself, and then what is noted in
its parts. -/
theorem Calculation.filter_journal (calculation : Calculation kind) (store : Store) :
    (calculation.evaluate.run tracing store).journal.filter keep =
      ((Task.run calculation).own tracing store).filter keep ++
        (calculation.visits tracing store).flatMap fun visit =>
          (visit.journal tracing).filter keep := by
  cases calculation with
  | constant value => rfl
  | input source => simp [Task.own, visits]
  | failing failure => simp [Task.own, visits]
  | supplied procedure => simp [Task.own, visits, evaluate_supplied]
  | preceded procedure operand =>
      rcases procedure.perform_spec tracing store with ⟨_, finished, _⟩
      rw [evaluate_preceded, Evaluation.filter_journal_bind, finished, visits,
        List.flatMap_singleton]
      rfl
  | not operand =>
      rw [evaluate_not, Evaluation.negate, Evaluation.run_map,
        Evaluation.filter_journal_reportingFailure silent, visits, List.flatMap_singleton]
      rfl
  | signum operand =>
      rw [evaluate_signum, Evaluation.signum, Evaluation.run_map,
        Evaluation.filter_journal_reportingFailure silent, visits, List.flatMap_singleton]
      rfl
  | equals lhs rhs =>
      rw [evaluate_equals, Evaluation.equals, Evaluation.run_map,
        Evaluation.filter_journal_both silent, visits, List.flatMap_cons, List.flatMap_singleton]
      rfl
  | conditional condition ifTrue ifFalse =>
      simp only [evaluate_conditional, Evaluation.filter_journal_conditional silent,
        visits_conditional, List.flatMap_cons, Outcome.flatMap_followedBy, List.flatMap_nil,
        List.append_nil]
      cases (condition.evaluate.run tracing store).outcome with
      | error failure => rfl
      | ok value => cases value <;> rfl
  | binary operation lhs rhs =>
      simp only [evaluate_binary, Evaluation.filter_journal_binary silent, visits_binary,
        List.flatMap_cons, Outcome.flatMap_followedBy, List.flatMap_nil, List.append_nil]
      rw [List.append_assoc]
      rfl
  | reduceLeft reducer initial operands =>
      simp only [evaluate_reduceLeft, Evaluation.filter_journal_reduceLeft silent,
        visits_reduceLeft, List.flatMap_cons, List.flatMap_append, Outcome.flatMap_followedBy,
        filter_journal_operands 1,
        reducer.filter_journal_steps silent (operands.toList.length + 1) 0]
      rfl

namespace Task

/-- Events apart, the journal of a task is what it notes itself, and then what is noted in its
parts. -/
theorem filter_journal (task : Task kind) (store : Store) :
    (task.evaluate.run tracing store).journal.filter keep =
      (task.own tracing store).filter keep ++
        (task.visits tracing store).flatMap fun visit => (visit.journal tracing).filter keep := by
  cases task with
  | run calculation => exact calculation.filter_journal silent store
  | apply operation lhs rhs => simp [own, visits, evaluate]
  | reduce reducer accumulated next => simp [own, visits, evaluate]

/-- Events apart, the journal of a task is what the demanded tasks note themselves, in the order in
which they are demanded. -/
theorem filter_journal_eq_flatMap_occurrences (task : Task kind) (store : Store) :
    (task.evaluate.run tracing store).journal.filter keep =
      (task.occurrences tracing store).flatMap fun occurrence =>
        (occurrence.task.own tracing occurrence.store).filter keep := by
  induction task, store using visitInduction tracing with
  | step task store ih =>
      have inside : ∀ visit ∈ task.visits tracing store,
          (visit.journal tracing).filter keep =
            ((visit.task.occurrences tracing visit.store).map (Occurrence.inside visit)).flatMap
              fun occurrence => (occurrence.task.own tracing occurrence.store).filter keep := by
        intro visit visited
        rw [List.flatMap_map]
        exact ih visit visited
      rw [filter_journal silent, occurrences_eq, List.flatMap_cons, List.flatMap_assoc,
        List.flatMap_def, List.flatMap_def, List.map_congr_left inside]

end Task

end Silent

/-! ## The order of accesses -/

/-- Whether an entry is an access to a variable. -/
def Entry.isAccess : Entry → Bool
  | .created _ _ => true
  | .read _ _ => true
  | .wrote _ _ => true
  | _ => false

/-- Variables are accessed in the order in which what is demanded stands in the graph, and a
variable in the graph gives the value that it notes to have been read. -/
def Calculation.AccessesInOrder (tracing : Bool) (calculation : Calculation kind) (store : Store) :
    Prop :=
  ∃ demanded : List Occurrence,
    demanded.Pairwise (·.position < ·.position) ∧
    (∀ occurrence, occurrence ∈ demanded ↔ Demands tracing (.run calculation) store occurrence) ∧
    (calculation.evaluate.run tracing store).journal.filter Entry.isAccess =
      demanded.flatMap (fun occurrence =>
        (occurrence.task.own tracing occurrence.store).filter Entry.isAccess) ∧
    ∀ occurrence ∈ demanded, ∀ source, occurrence.task = .run (.input source) →
      ∃ value, occurrence.task.own tracing occurrence.store = [.read source value] ∧
        (occurrence.task.evaluate.run tracing occurrence.store).outcome = .ok value

theorem Calculation.accessesInOrder (tracing : Bool) (calculation : Calculation kind)
    (store : Store) : calculation.AccessesInOrder tracing store := by
  refine ⟨_, Task.pairwise_position_occurrences tracing (.run calculation) store,
    fun occurrence => Task.mem_occurrences_iff,
    Task.filter_journal_eq_flatMap_occurrences (fun _ => rfl) (.run calculation) store, ?_⟩
  intro occurrence _ source same
  rw [same]
  exact ⟨occurrence.store.read source, rfl, rfl⟩

end Deferred
