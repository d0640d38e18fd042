import Deferred.Proofs.Surfacing

/-!
# Events announce failures

The events of an evaluation that somebody listens to and the failure that it ends with tell the same
story. Every aggregate in the failure is announced once, with the number of its causes, after
everything in its causes; every step of a fold that fails is announced with the text of its failure;
and an evaluation that gives a value announces nothing but writes to variables.
-/

namespace Deferred

variable {kind : Kind}

/-- A particular of an event with the given message. -/
def Entry.particular? (message name : String) : Entry → Option String
  | .event announced =>
    if announced.message = message then announced.fields.lookup name else none
  | _ => none

/-- The number of failures in an announcement that operands failed. -/
def Entry.operandsFailed? : Entry → Option String :=
  particular? "aggregating operand failures" "failures"

/-- The text of the failure in an announcement that a step of a fold failed. -/
def Entry.stepFailed? : Entry → Option String :=
  particular? "reducing step failed" "err"

/-- The failure that came up in a reducing function, for the entries that note one. -/
def Entry.raisedByReducer? : Entry → Option Failure
  | .raised .reducer failure => some failure
  | _ => none

namespace Entry

@[simp]
theorem operandsFailed?_raised (origin : Origin) (failure : Failure) :
    (raised origin failure).operandsFailed? = none := rfl

@[simp]
theorem stepFailed?_raised (origin : Origin) (failure : Failure) :
    (raised origin failure).stepFailed? = none := rfl

@[simp]
theorem operandsFailed?_operandsFailed (failures : Nat) :
    (event (.operandsFailed failures)).operandsFailed? = some (toString failures) := by
  simp [operandsFailed?, particular?, Event.message, Event.fields]

@[simp]
theorem stepFailed?_operandsFailed (failures : Nat) :
    (event (.operandsFailed failures)).stepFailed? = none := by
  simp [stepFailed?, particular?, Event.message]

@[simp]
theorem operandsFailed?_stepFailed (step : Nat) (failure : Failure) :
    (event (.stepFailed step failure)).operandsFailed? = none := by
  simp [operandsFailed?, particular?, Event.message]

@[simp]
theorem stepFailed?_stepFailed (step : Nat) (failure : Failure) :
    (event (.stepFailed step failure)).stepFailed? = some failure.render := by
  simp [stepFailed?, particular?, Event.message, Event.fields]

theorem eq_setVariable_of_isQuiet {event : Event} (silent : (Entry.event event).isQuiet = true) :
    ∃ value, event = .setVariable value := by
  cases event with
  | setVariable value => exact ⟨value, rfl⟩
  | _ => simp [isQuiet] at silent

@[simp]
theorem filterMap_raisedByReducer?_entries (tracing : Bool) (event : Event) :
    (event.entries tracing).filterMap raisedByReducer? = [] := by
  cases tracing <;> rfl

theorem announces_nothing_of_isQuiet {entry : Entry} (silent : entry.isQuiet = true) :
    entry.operandsFailed? = none ∧ entry.stepFailed? = none ∧ entry.raisedByReducer? = none := by
  cases entry with
  | raised origin failure => simp [isQuiet] at silent
  | event event =>
      rcases eq_setVariable_of_isQuiet silent with ⟨value, rfl⟩
      simp [operandsFailed?, stepFailed?, particular?, Event.message, raisedByReducer?]
  | evaluated label => exact ⟨rfl, rfl, rfl⟩
  | applied name lhs rhs => exact ⟨rfl, rfl, rfl⟩
  | reduced name accumulated next => exact ⟨rfl, rfl, rfl⟩
  | created source value => exact ⟨rfl, rfl, rfl⟩
  | read source value => exact ⟨rfl, rfl, rfl⟩
  | wrote target value => exact ⟨rfl, rfl, rfl⟩

theorem announces_nothing_of_isPassing {event : Event} (passing : event.isPassing = true) :
    (Entry.event event).operandsFailed? = none ∧ (Entry.event event).stepFailed? = none := by
  cases event with
  | setVariable value => simp [Event.isPassing] at passing
  | operandsFailed failures => simp [Event.isPassing] at passing
  | stepFailed step failure => simp [Event.isPassing] at passing
  | negatedOperandFailed => simp [operandsFailed?, stepFailed?, particular?, Event.message]
  | signumOperandFailed => simp [operandsFailed?, stepFailed?, particular?, Event.message]
  | conditionFailed => simp [operandsFailed?, stepFailed?, particular?, Event.message]
  | initialFailed operands => simp [operandsFailed?, stepFailed?, particular?, Event.message]

end Entry

namespace Ledger

variable {journal : List Entry} {failures : List Failure} {raised : List Nested}

/-- The announced numbers of failures are those of the causes of all aggregates that are left, if
none of them was there when it came up. -/
theorem filterMap_operandsFailed? (ledger : Ledger true journal failures raised)
    (single : ∀ nested ∈ raised, nested.failure.isAggregate = false) :
    journal.filterMap Entry.operandsFailed? =
      (failures.flatMap Failure.aggregateSizes).map toString := by
  induction ledger with
  | quiet silent =>
      simp only [List.flatMap_nil, List.map_nil, List.filterMap_eq_nil_iff]
      intro entry member
      exact (Entry.announces_nothing_of_isQuiet (silent entry member)).1
  | raised origin notReducer failure =>
      have leaf := single _ (List.mem_singleton.mpr rfl)
      simp [Failure.aggregateSizes_of_not_isAggregate leaf]
  | stepFailed step failure =>
      have leaf := single _ (List.mem_singleton.mpr rfl)
      simp [Event.entries, Failure.aggregateSizes_of_not_isAggregate leaf]
  | append before after ihBefore ihAfter =>
      have first := ihBefore fun nested member => single nested (by simp [member])
      have second := ihAfter fun nested member => single nested (by simp [member])
      simp [first, second]
  | passed before event passing ih =>
      have nothing := (Entry.announces_nothing_of_isPassing passing).1
      rw [List.filterMap_append, ih single]
      simp [Event.entries, nothing]
  | @gathered journal failures raised before nonempty ih =>
      have causes := ih fun nested member =>
        single (nested.beneath 1) (List.mem_map_of_mem member)
      rw [List.filterMap_append, causes, List.flatMap_singleton, Failure.aggregateSizes_aggregate]
      simp [Event.entries]

/-- The announced steps are those in which a reducing function failed. -/
theorem filterMap_stepFailed? (ledger : Ledger true journal failures raised) :
    journal.filterMap Entry.stepFailed? =
      (journal.filterMap Entry.raisedByReducer?).map Failure.render := by
  induction ledger with
  | quiet silent =>
      have nothing : ∀ entry ∈ _, Entry.stepFailed? entry = none ∧ entry.raisedByReducer? = none :=
        fun entry member => (Entry.announces_nothing_of_isQuiet (silent entry member)).2
      rw [List.filterMap_eq_nil_iff.mpr fun entry member => (nothing entry member).1,
        List.filterMap_eq_nil_iff.mpr fun entry member => (nothing entry member).2]
      rfl
  | raised origin notReducer failure =>
      cases origin with
      | reducer => exact absurd rfl notReducer
      | failing => rfl
      | supplied => rfl
  | stepFailed step failure =>
      have noted : Entry.raisedByReducer? (.raised .reducer failure) = some failure := rfl
      rw [List.filterMap_cons_some noted, Entry.filterMap_raisedByReducer?_entries,
        List.filterMap_cons_none (Entry.stepFailed?_raised .reducer failure), Event.entries,
        if_pos rfl, List.filterMap_cons_some (Entry.stepFailed?_stepFailed step failure)]
      rfl
  | append before after ihBefore ihAfter => simp [ihBefore, ihAfter]
  | passed before event passing ih =>
      have nothing := (Entry.announces_nothing_of_isPassing passing).2
      rw [List.filterMap_append, List.filterMap_append, ih,
        Entry.filterMap_raisedByReducer?_entries]
      simp [Event.entries, nothing]
  | gathered before nonempty ih =>
      rw [List.filterMap_append, List.filterMap_append, ih,
        Entry.filterMap_raisedByReducer?_entries]
      simp [Event.entries]

/-- If nothing is left, no event but a write was announced. -/
theorem message_eq_of_nil {tracing : Bool} (ledger : Ledger tracing journal failures raised)
    (nothing : failures = []) {event : Event} (announced : Entry.event event ∈ journal) :
    event.message = "set variable" := by
  induction ledger with
  | quiet silent =>
      rcases Entry.eq_setVariable_of_isQuiet (silent _ announced) with ⟨value, rfl⟩
      rfl
  | raised origin notReducer failure => simp at nothing
  | stepFailed step failure => simp at nothing
  | append before after ihBefore ihAfter =>
      rw [List.append_eq_nil_iff] at nothing
      rcases List.mem_append.mp announced with first | second
      · exact ihBefore nothing.1 first
      · exact ihAfter nothing.2 second
  | passed before event passing ih => simp at nothing
  | gathered before nonempty ih => simp at nothing

end Ledger

/-- The events of an evaluation mirror its failure, if no failure was an aggregate when it came up.
The announced numbers of failures are those of the causes of its aggregates, causes before the
whole; the announced steps are those in which a reducing function failed, with its failure; and
without a failure nothing but writes is announced. -/
theorem Calculation.events_mirror_failure (calculation : Calculation kind) (store : Store)
    (single : ∀ failure ∈ (calculation.evaluate.run true store).journal.filterMap Entry.raised?,
      failure.isAggregate = false) :
    let run := calculation.evaluate.run true store
    run.journal.filterMap Entry.operandsFailed? =
        (run.outcome.failure?.elim [] Failure.aggregateSizes).map toString ∧
      run.journal.filterMap Entry.stepFailed? =
        (run.journal.filterMap Entry.raisedByReducer?).map Failure.render ∧
      ∀ value, run.outcome = .ok value →
        ∀ event, Entry.event event ∈ run.journal → event.message = "set variable" := by
  intro run
  have ledger : Ledger true run.journal run.outcome.failure?.toList
      ((Task.run calculation).raised true store) := calculation.accounts store
  refine ⟨?_, ledger.filterMap_stepFailed?, ?_⟩
  · have leaves : ∀ nested ∈ (Task.run calculation).raised true store,
        nested.failure.isAggregate = false := by
      intro nested member
      apply single
      rw [ledger.filterMap_raised?]
      exact List.mem_map_of_mem member
    rw [ledger.filterMap_operandsFailed? leaves]
    cases run.outcome.failure? <;> simp
  · intro value succeeds event announced
    apply ledger.message_eq_of_nil _ announced
    simp [succeeds]

/-- A sum that overflows is compared with a failure: one aggregate of two causes, and one step that
failed. -/
theorem Calculation.events_mirror_failure_of_overflow :
    let calculation : Calculation .bool :=
      .equals (checkedSum (.ofList [.constant Int64.maxValue, .constant (1 : Int64)]))
        (.failing (.message "no value"))
    let journal := (calculation.evaluate.run true .empty).journal
    journal.filterMap Entry.raised? = [.overflow "addition", .message "no value"] ∧
      journal.filterMap Entry.operandsFailed? = ["2"] ∧
      journal.filterMap Entry.stepFailed? = ["integer overflow in addition"] := by
  intro calculation journal
  have raised : journal.filterMap Entry.raised? = [.overflow "addition", .message "no value"] := rfl
  have single : ∀ failure ∈ journal.filterMap Entry.raised?, failure.isAggregate = false := by
    rw [raised]
    simp [Failure.isAggregate, Failure.causes?]
  rcases calculation.events_mirror_failure .empty single with ⟨sizes, steps, _⟩
  refine ⟨raised, sizes, ?_⟩
  rw [steps]
  rfl

end Deferred
