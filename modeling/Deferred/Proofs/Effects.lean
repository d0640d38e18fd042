import Deferred.Proofs.Fragment

/-!
# Effects

An `Effect` says what may happen in the course of an evaluation, as a relation between the store
that it finds, the journal, and the store that it leaves behind. Nothing may always happen, what may
happen one after the other may happen, and events and failures do not matter.

Every combinator respects an effect if its parts do. So a graph respects an effect if the variables,
procedures and functions in it do: this is the induction on graphs that properties of single
accesses are lifted by (`Calculation.respects`). `Effect.readOnly` is the first case of it: a pure
graph changes nothing, and what it reads is what the variables held in the beginning.
-/

namespace Deferred

variable {kind : Kind} {α β : Type}

/-- What may happen in the course of an evaluation. -/
structure Effect where
  allows : Store → List Entry → Store → Prop
  nothing : ∀ store, allows store [] store
  append : ∀ {store middle last first second}, allows store first middle →
    allows middle second last → allows store (first ++ second) last
  event : ∀ store event, allows store [.event event] store
  raised : ∀ store origin failure, allows store [.raised origin failure] store

namespace Effect

variable (effect : Effect) (tracing : Bool) (store : Store)

theorem allows_entries (event : Event) : effect.allows store (event.entries tracing) store := by
  cases tracing with
  | true => exact effect.event store event
  | false => exact effect.nothing store

theorem allows_ofOutcome (event : Failure → Event) (outcome : Outcome α) :
    effect.allows store (Event.ofOutcome tracing event outcome) store := by
  cases outcome with
  | ok value => exact effect.nothing store
  | error failure => exact effect.allows_entries tracing store (event failure)

theorem allows_ofFailures (failures : List Failure) :
    effect.allows store (Event.ofFailures tracing failures) store := by
  by_cases nonempty : failures = []
  · rw [nonempty]
    exact effect.nothing store
  · rw [Event.ofFailures_of_ne_nil tracing nonempty]
    exact effect.allows_entries tracing store _

end Effect

/-- Nothing but what an effect allows happens in the course of an evaluation. -/
def Evaluation.Respects (effect : Effect) (evaluation : Evaluation α) : Prop :=
  ∀ tracing store, effect.allows store (evaluation.run tracing store).journal
    (evaluation.run tracing store).store

namespace Evaluation.Respects

variable {effect : Effect}

theorem pure (value : α) : (pure value : Evaluation α).Respects effect :=
  fun _ store => effect.nothing store

theorem ofExcept (outcome : Outcome α) : (ofExcept outcome).Respects effect := by
  cases outcome with
  | ok value => exact pure value
  | error failure => exact fun _ store => effect.nothing store

theorem raise (origin : Origin) (failure : Failure) :
    (raise origin failure : Evaluation α).Respects effect :=
  fun _ store => effect.raised store origin failure

theorem settle (origin : Origin) (outcome : Outcome α) :
    (settle origin outcome).Respects effect := by
  cases outcome with
  | ok value => exact pure value
  | error failure => exact raise origin failure

theorem emit (event : Event) : (emit event).Respects effect :=
  fun tracing store => effect.allows_entries tracing store event

theorem check (failures : List Failure) : (check failures).Respects effect := by
  intro tracing store
  rw [run_check]
  exact effect.allows_ofFailures tracing store failures

theorem map (function : α → β) {evaluation : Evaluation α} (respects : evaluation.Respects effect) :
    (function <$> evaluation).Respects effect :=
  respects

theorem attempt {evaluation : Evaluation α} (respects : evaluation.Respects effect) :
    evaluation.attempt.Respects effect :=
  respects

theorem reportingFailure {evaluation : Evaluation α} (respects : evaluation.Respects effect)
    (event : Failure → Event) : (evaluation.reportingFailure event).Respects effect := by
  intro tracing store
  rw [run_reportingFailure_eq]
  exact effect.append (respects tracing store) (effect.allows_ofOutcome tracing _ event _)

theorem bind {first : Evaluation α} {rest : α → Evaluation β} (begun : first.Respects effect)
    (goesOn : ∀ value, (rest value).Respects effect) : (first >>= rest).Respects effect := by
  intro tracing store
  cases ran : (first.run tracing store).outcome with
  | ok value =>
      rw [run_bind_of_ok tracing store rest ran]
      exact effect.append (begun tracing store) (goesOn value tracing _)
  | error failure =>
      rw [run_bind_of_error tracing store rest ran]
      exact begun tracing store

theorem both {lhs : Evaluation α} {rhs : Evaluation β} (left : lhs.Respects effect)
    (right : rhs.Respects effect) : (both lhs rhs).Respects effect := by
  apply left.attempt.bind
  intro leftOutcome
  apply right.attempt.bind
  intro rightOutcome
  apply (check _).bind
  intro _
  apply (ofExcept leftOutcome).bind
  intro leftValue
  apply (ofExcept rightOutcome).bind
  intro rightValue
  exact pure _

theorem outcomes {evaluations : List (Evaluation α)}
    (each : ∀ evaluation ∈ evaluations, evaluation.Respects effect) :
    (outcomes evaluations).Respects effect := by
  induction evaluations with
  | nil => exact pure []
  | cons evaluation evaluations ih =>
      rcases List.forall_mem_cons.mp each with ⟨first, others⟩
      apply first.attempt.bind
      intro outcome
      exact (ih others).map _

theorem all {evaluations : List (Evaluation α)}
    (each : ∀ evaluation ∈ evaluations, evaluation.Respects effect) :
    (all evaluations).Respects effect := by
  apply (outcomes each).bind
  intro collected
  apply (check _).bind
  intro _
  exact pure _

theorem reduceFrom {reduce : α → α → Evaluation α}
    (each : ∀ accumulated next, (reduce accumulated next).Respects effect) (step : Nat)
    (accumulated : α) (values : List α) :
    (reduceFrom reduce step accumulated values).Respects effect := by
  induction values generalizing step accumulated with
  | nil => exact pure accumulated
  | cons next rest ih =>
      apply ((each accumulated next).reportingFailure _).bind
      intro reduced
      exact ih (step + 1) reduced

end Evaluation.Respects

/-- Whatever a fragment allows respects an effect. -/
structure Fragment.Respects (effect : Effect) (fragment : Fragment) : Prop where
  input : ∀ {kind : Kind} {source : Variable kind}, fragment.input source →
    (Evaluation.read source).Respects effect
  supplied : ∀ {kind : Kind} {procedure : Procedure (Outcome kind.Value)},
    fragment.supplied procedure → procedure.perform.Respects effect
  preceded : ∀ {procedure : Procedure Unit}, fragment.preceded procedure →
    procedure.perform.Respects effect
  operation : ∀ {kind : Kind} {operation : Operation kind}, fragment.operation operation →
    ∀ lhs rhs, (operation.call lhs rhs).Respects effect
  reducer : ∀ {kind : Kind} {reducer : Reducer kind}, fragment.reducer reducer →
    ∀ accumulated next, (reducer.call accumulated next).Respects effect

theorem Fragment.Respects.mono {effect larger : Effect} {fragment : Fragment}
    (respects : fragment.Respects effect)
    (allowed : ∀ {store journal after}, effect.allows store journal after →
      larger.allows store journal after) : fragment.Respects larger where
  input within tracing store := allowed (respects.input within tracing store)
  supplied within tracing store := allowed (respects.supplied within tracing store)
  preceded within tracing store := allowed (respects.preceded within tracing store)
  operation within lhs rhs tracing store :=
    allowed (respects.operation within lhs rhs tracing store)
  reducer within accumulated next tracing store :=
    allowed (respects.reducer within accumulated next tracing store)

mutual

/-- A graph respects an effect if everything in it does. -/
theorem Calculation.respects {effect : Effect} {fragment : Fragment}
    (allowed : fragment.Respects effect) : {kind : Kind} → (calculation : Calculation kind) →
    calculation.IsIn fragment → calculation.evaluate.Respects effect
  | _, .constant value, _ => .pure value
  | _, .input _, within => allowed.input within
  | _, .failing failure, _ => .raise .failing failure
  | _, .supplied _, within => (allowed.supplied within).bind (.settle .supplied)
  | _, .preceded _ operand, within =>
    (allowed.preceded within.1).bind fun _ => operand.respects allowed within.2
  | _, .not operand, within => ((operand.respects allowed within).reportingFailure _).map _
  | _, .signum operand, within => ((operand.respects allowed within).reportingFailure _).map _
  | _, .equals lhs rhs, within =>
    ((lhs.respects allowed within.1).both (rhs.respects allowed within.2)).map _
  | _, .conditional condition ifTrue ifFalse, within => by
      apply ((condition.respects allowed within.1).reportingFailure _).bind
      intro selected
      cases selected with
      | true => exact ifTrue.respects allowed within.2.1
      | false => exact ifFalse.respects allowed within.2.2
  | _, .binary _ lhs rhs, within => by
      apply ((lhs.respects allowed within.2.1).both (rhs.respects allowed within.2.2)).bind
      intro values
      exact allowed.operation within.1 values.1 values.2
  | _, .reduceLeft _ initial operands, within => by
      rw [Calculation.evaluate_reduceLeft]
      apply ((initial.respects allowed within.2.1).reportingFailure _).bind
      intro start
      apply (Evaluation.Respects.all (operands.respects allowed within.2.2)).bind
      intro values
      exact .reduceFrom (allowed.reducer within.1) 0 start values

/-- Operands respect an effect if everything in them does. -/
theorem Operands.respects {effect : Effect} {fragment : Fragment}
    (allowed : fragment.Respects effect) : {kind : Kind} → (operands : Operands kind) →
    operands.IsIn fragment →
    ∀ evaluation ∈ operands.toList.map Calculation.evaluate, evaluation.Respects effect
  | _, .nil, _ => List.forall_mem_nil _
  | _, .cons operand operands, within =>
    List.forall_mem_cons.mpr ⟨operand.respects allowed within.1, operands.respects allowed within.2⟩

end

/-! ## Evaluations that only read -/

/-- If an entry notes what a variable holds, the variable holds this in the given store. -/
def Entry.IsTrueOf (store : Store) : Entry → Prop
  | .read source value => value = store.read source
  | _ => True

/-- Nothing is changed, and what is noted about variables is what they hold. -/
def Effect.readOnly : Effect where
  allows store journal after := after = store ∧ ∀ entry ∈ journal, entry.IsTrueOf store
  nothing store := ⟨rfl, List.forall_mem_nil _⟩
  append := by
    rintro store middle last first second ⟨rfl, trueFirst⟩ ⟨rfl, trueSecond⟩
    exact ⟨rfl, List.forall_mem_append.mpr ⟨trueFirst, trueSecond⟩⟩
  event store event := ⟨rfl, List.forall_mem_singleton.mpr trivial⟩
  raised store origin failure := ⟨rfl, List.forall_mem_singleton.mpr trivial⟩

theorem Evaluation.Respects.store_eq {evaluation : Evaluation α}
    (readOnly : evaluation.Respects .readOnly) (tracing : Bool) (store : Store) :
    (evaluation.run tracing store).store = store :=
  (readOnly tracing store).1

theorem Evaluation.readOnly_record {entry : Entry}
    (isTrue : ∀ store, entry.IsTrueOf store) : (record entry).Respects .readOnly :=
  fun _ store => ⟨rfl, List.forall_mem_singleton.mpr (isTrue store)⟩

/-- Pure graphs only read. -/
theorem Fragment.readOnly_pure : Fragment.pure.Respects .readOnly where
  input _ := fun _ _ => ⟨rfl, List.forall_mem_singleton.mpr rfl⟩
  supplied := False.elim
  preceded := False.elim
  operation := by
    intro kind operation isPure lhs rhs
    rcases isPure lhs rhs with ⟨value, same⟩
    rw [Operation.call, same]
    apply Evaluation.Respects.bind
    · exact Evaluation.readOnly_record fun _ => trivial
    · intro _
      exact .pure value
  reducer := by
    intro kind reducer isPure accumulated next
    rcases isPure accumulated next with ⟨outcome, same⟩
    rw [Reducer.call, same]
    apply Evaluation.Respects.bind
    · exact Evaluation.readOnly_record fun _ => trivial
    · intro _
      apply (Evaluation.Respects.pure outcome).bind
      intro _
      exact .settle .reducer _

end Deferred
