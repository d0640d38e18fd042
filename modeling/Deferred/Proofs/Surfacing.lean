import Deferred.Proofs.Ledger

/-!
# How failures surface

Every failure that comes up in the course of an evaluation is found again in the failure that the
evaluation ends with, and nothing else is found there. Its leaves are the leaves of the failures
that came up, in the order in which they did, and each of them is as many aggregates deeper as lie
between the place where it came up and the root. An evaluation gives a value exactly if no failure
came up at all.

The failures that came up are those noted in the journal. Their depths are those of the occurrences
in which they came up (`Task.raised`).
-/

namespace Deferred

variable {kind : Kind}

/-- The failure that came up, for the entries that note one. -/
def Entry.raised? : Entry → Option Failure
  | .raised _ failure => some failure
  | _ => none

@[simp]
theorem Entry.raised?_eq_none_of_isQuiet {entry : Entry} (silent : entry.isQuiet = true) :
    entry.raised? = none := by
  cases entry with
  | raised origin failure => simp [isQuiet] at silent
  | evaluated label => rfl
  | applied name lhs rhs => rfl
  | reduced name accumulated next => rfl
  | event event => rfl
  | created source value => rfl
  | read source value => rfl
  | wrote target value => rfl

@[simp]
theorem Event.filterMap_raised?_entries (tracing : Bool) (event : Event) :
    (event.entries tracing).filterMap Entry.raised? = [] := by
  cases tracing <;> rfl

/-- The leaves of a failure that lies inside some aggregates. -/
def Nested.leaves (nested : Nested) : List Nested :=
  nested.failure.leaves.map (.beneath nested.depth)

@[simp]
theorem Nested.leaves_mk_zero (failure : Failure) :
    (Nested.mk 0 failure).leaves = failure.leaves := by
  simp [leaves]

theorem Nested.leaves_beneath (layers : Nat) (nested : Nested) :
    (nested.beneath layers).leaves = nested.leaves.map (.beneath layers) := by
  simp [leaves, beneath_comp_beneath]

namespace Ledger

variable {tracing : Bool} {journal : List Entry} {failures : List Failure} {raised : List Nested}

/-- The failures that came up are the ones noted in the journal. -/
theorem filterMap_raised? (ledger : Ledger tracing journal failures raised) :
    journal.filterMap Entry.raised? = raised.map Nested.failure := by
  induction ledger with
  | quiet silent =>
      simp only [List.map_nil, List.filterMap_eq_nil_iff]
      intro entry member
      exact Entry.raised?_eq_none_of_isQuiet (silent entry member)
  | raised origin notReducer failure => rfl
  | stepFailed step failure => simp [Entry.raised?]
  | append before after ihBefore ihAfter => simp [ihBefore, ihAfter]
  | passed before event passing ih => simpa using ih
  | gathered before nonempty ih => simpa [Function.comp_def] using ih

/-- What is left has the leaves of what came up, each at its depth. -/
theorem flatMap_leaves (ledger : Ledger tracing journal failures raised) :
    failures.flatMap Failure.leaves = raised.flatMap Nested.leaves := by
  induction ledger with
  | quiet silent => rfl
  | raised origin notReducer failure => simp
  | stepFailed step failure => simp
  | append before after ihBefore ihAfter => simp [ihBefore, ihAfter]
  | passed before event passing ih => exact ih
  | gathered before nonempty ih =>
      rw [List.flatMap_singleton, Failure.leaves_aggregate, ih, List.map_flatMap,
        List.flatMap_map]
      simp only [Nested.leaves_beneath]

end Ledger

/-- No failure is swallowed, made up, doubled or put in another place. What came up is what the
journal notes, there is a value exactly if nothing came up, and a failure has the leaves of what
came up, in this order and each at its depth. -/
theorem Calculation.failures_surface (calculation : Calculation kind) (tracing : Bool)
    (store : Store) :
    let run := calculation.evaluate.run tracing store
    let raised := (Task.run calculation).raised tracing store
    run.journal.filterMap Entry.raised? = raised.map Nested.failure ∧
      ((∃ value, run.outcome = .ok value) ↔ raised = []) ∧
      ∀ failure, run.outcome = .error failure → failure.leaves = raised.flatMap Nested.leaves := by
  intro run raised
  have ledger : Ledger tracing run.journal run.outcome.failure?.toList raised :=
    calculation.accounts store
  refine ⟨ledger.filterMap_raised?, ?_, ?_⟩
  · rw [← ledger.eq_nil_iff, Option.toList_eq_nil_iff, Outcome.failure?_eq_none_iff]
  · intro failure fails
    have same := ledger.flatMap_leaves
    rw [fails] at same
    simpa using same

end Deferred
