import Deferred.Proofs.Traversal
import Deferred.Session

/-!
# Listening to events

Events are for whoever listens to them. An evaluation may emit events wherever it sets a variable,
passes a failure on, puts failures together, or gives up a fold; apart from them it does the same
whether or not somebody listens. The journal that is kept without a listener is the other journal
without its events, and nothing else differs.

`Evaluation.Indifferent` states this for single evaluations. Every access to the store has the
property and every combinator passes it on from its operands, so that it holds of all graphs and
procedures. A session carries its store and its scope from step to step, and since these agree after
every step, whole sessions agree as well.
-/

namespace Deferred

variable {kind : Kind} {α β : Type}

/-- The same run without the events in its journal. -/
def Run.withoutEvents (run : Run α) : Run α :=
  { run with journal := run.journal.filter (!·.isEvent) }

/-- The same report without the events in its journal. -/
def Report.withoutEvents (report : Report) : Report :=
  { report with journal := report.journal.filter (!·.isEvent) }

theorem Report.visible_withoutEvents (report : Report) :
    report.withoutEvents.visible = report.visible.filter (!·.isEvent) := by
  simp only [visible, withoutEvents, List.filter_filter, Bool.and_comm]

/-- Events apart, an evaluation does the same whether or not somebody listens. -/
structure Evaluation.Indifferent (evaluation : Evaluation α) : Prop where
  run_eq : ∀ store, evaluation.run false store = (evaluation.run true store).withoutEvents

namespace Evaluation

theorem indifferent_emit (event : Event) : (emit event).Indifferent := by
  constructor
  intro store
  simp [Run.withoutEvents, Event.entries, Entry.isEvent]

theorem indifferent_record {entry : Entry} (isNoEvent : entry.isEvent = false) :
    (record entry).Indifferent := by
  constructor
  intro store
  simp [Run.withoutEvents, isNoEvent]

theorem indifferent_read (source : Variable kind) : (read source).Indifferent :=
  ⟨fun _ => rfl⟩

theorem indifferent_write (target : Variable kind) (value : kind.Value) :
    (write target value).Indifferent := by
  constructor
  intro store
  simp [Run.withoutEvents, Event.entries, Entry.isEvent]

namespace Indifferent

theorem outcome_eq {evaluation : Evaluation α} (indifferent : evaluation.Indifferent)
    (tracing : Bool) (store : Store) :
    (evaluation.run tracing store).outcome = (evaluation.run false store).outcome := by
  cases tracing with
  | false => rfl
  | true =>
      rw [indifferent.run_eq]
      rfl

theorem pure (value : α) : (pure value : Evaluation α).Indifferent :=
  ⟨fun _ => rfl⟩

theorem fail (failure : Failure) : (fail failure : Evaluation α).Indifferent :=
  ⟨fun _ => rfl⟩

theorem ofExcept (outcome : Outcome α) : (ofExcept outcome).Indifferent := by
  cases outcome with
  | ok value => exact pure value
  | error failure => exact fail failure

theorem raise (origin : Origin) (failure : Failure) :
    (raise origin failure : Evaluation α).Indifferent :=
  ⟨fun _ => rfl⟩

theorem settle (origin : Origin) (outcome : Outcome α) : (settle origin outcome).Indifferent := by
  cases outcome with
  | ok value => exact pure value
  | error failure => exact raise origin failure

theorem bind {first : Evaluation α} {rest : α → Evaluation β} (begun : first.Indifferent)
    (goesOn : ∀ value, (rest value).Indifferent) : (first >>= rest).Indifferent := by
  constructor
  intro store
  rw [run_bind, run_bind, begun.run_eq]
  simp only [Run.withoutEvents]
  cases (first.run true store).outcome with
  | ok value => simp [(goesOn value).run_eq, Run.withoutEvents]
  | error failure => rfl

theorem map (function : α → β) {evaluation : Evaluation α}
    (indifferent : evaluation.Indifferent) : (function <$> evaluation).Indifferent := by
  constructor
  intro store
  rw [run_map, run_map, indifferent.run_eq]
  rfl

theorem attempt {evaluation : Evaluation α} (indifferent : evaluation.Indifferent) :
    evaluation.attempt.Indifferent := by
  constructor
  intro store
  rw [run_attempt, run_attempt, indifferent.run_eq]
  rfl

/-- A failure is reported after everything else has happened. -/
theorem reportingFailure {evaluation : Evaluation α} (indifferent : evaluation.Indifferent)
    (event : Failure → Event) : (evaluation.reportingFailure event).Indifferent := by
  constructor
  intro store
  rw [run_reportingFailure_eq, run_reportingFailure_eq, indifferent.run_eq]
  have deleted : (Event.ofOutcome true event (evaluation.run true store).outcome).filter
      (!·.isEvent) = [] := Event.filter_ofOutcome_eq_nil (fun _ => rfl) event _
  simp only [Run.withoutEvents, List.filter_append, deleted]
  cases (evaluation.run true store).outcome <;> rfl

theorem check (failures : List Failure) : (check failures).Indifferent := by
  by_cases nonempty : failures = []
  · rw [nonempty, check_nil]
    exact pure ()
  · rw [check_of_ne_nil nonempty]
    apply (indifferent_emit _).bind
    intro _
    exact fail _

theorem both {lhs : Evaluation α} {rhs : Evaluation β} (left : lhs.Indifferent)
    (right : rhs.Indifferent) : (both lhs rhs).Indifferent := by
  apply left.attempt.bind
  intro leftOutcome
  apply right.attempt.bind
  intro rightOutcome
  apply (check _).bind
  intro _
  apply (ofExcept leftOutcome).bind
  intro leftValue
  apply (ofExcept rightOutcome).bind
  intro rightValue
  exact pure _

theorem outcomes {evaluations : List (Evaluation α)}
    (each : ∀ evaluation ∈ evaluations, evaluation.Indifferent) :
    (outcomes evaluations).Indifferent := by
  induction evaluations with
  | nil => exact pure []
  | cons evaluation evaluations ih =>
      rcases List.forall_mem_cons.mp each with ⟨first, others⟩
      apply first.attempt.bind
      intro outcome
      exact (ih others).map _

theorem all {evaluations : List (Evaluation α)}
    (each : ∀ evaluation ∈ evaluations, evaluation.Indifferent) :
    (all evaluations).Indifferent := by
  apply (outcomes each).bind
  intro collected
  apply (check _).bind
  intro _
  exact pure _

theorem reduceFrom {reduce : α → α → Evaluation α}
    (each : ∀ accumulated next, (reduce accumulated next).Indifferent) (step : Nat)
    (accumulated : α) (values : List α) :
    (reduceFrom reduce step accumulated values).Indifferent := by
  induction values generalizing step accumulated with
  | nil => exact pure accumulated
  | cons next rest ih =>
      apply ((each accumulated next).reportingFailure _).bind
      intro reduced
      exact ih (step + 1) reduced

end Indifferent

end Evaluation

/-- Whatever a procedure does, it cannot tell whether somebody listens. -/
theorem Procedure.indifferent (procedure : Procedure α) : procedure.perform.Indifferent := by
  induction procedure with
  | finish result => exact .pure result
  | announce label rest ih =>
      apply (Evaluation.indifferent_record rfl).bind
      intro _
      exact ih
  | read source rest ih =>
      apply (Evaluation.indifferent_read source).bind
      intro value
      exact ih value
  | write target value rest ih =>
      apply (Evaluation.indifferent_write target value).bind
      intro _
      exact ih
  | fetch slot rest ih =>
      apply Evaluation.Indifferent.bind ⟨fun _ => rfl⟩
      intro count
      exact ih count
  | keep slot count rest ih =>
      apply Evaluation.Indifferent.bind ⟨fun _ => rfl⟩
      intro _
      exact ih

theorem Operation.indifferent (operation : Operation kind) (lhs rhs : kind.Value) :
    (operation.call lhs rhs).Indifferent := by
  apply (Evaluation.indifferent_record rfl).bind
  intro _
  exact (operation.body lhs rhs).indifferent

theorem Reducer.indifferent (reducer : Reducer kind) (accumulated next : kind.Value) :
    (reducer.call accumulated next).Indifferent := by
  apply (Evaluation.indifferent_record rfl).bind
  intro _
  apply (reducer.body accumulated next).indifferent.bind
  intro outcome
  exact .settle .reducer outcome

mutual

theorem Calculation.indifferent : {kind : Kind} → (calculation : Calculation kind) →
    calculation.evaluate.Indifferent
  | _, .constant value => .pure value
  | _, .input source => Evaluation.indifferent_read source
  | _, .failing failure => .raise .failing failure
  | _, .supplied procedure => procedure.indifferent.bind (.settle .supplied)
  | _, .preceded procedure operand => procedure.indifferent.bind fun _ => operand.indifferent
  | _, .not operand => (operand.indifferent.reportingFailure _).map _
  | _, .signum operand => (operand.indifferent.reportingFailure _).map _
  | _, .equals lhs rhs => (lhs.indifferent.both rhs.indifferent).map _
  | _, .conditional condition ifTrue ifFalse => by
      apply (condition.indifferent.reportingFailure _).bind
      intro selected
      cases selected with
      | true => exact ifTrue.indifferent
      | false => exact ifFalse.indifferent
  | _, .binary operation lhs rhs => by
      apply (lhs.indifferent.both rhs.indifferent).bind
      intro values
      exact operation.indifferent values.1 values.2
  | _, .reduceLeft reducer initial operands => by
      rw [Calculation.evaluate_reduceLeft]
      apply (initial.indifferent.reportingFailure _).bind
      intro start
      apply (Evaluation.Indifferent.all operands.indifferent).bind
      intro values
      exact .reduceFrom reducer.indifferent 0 start values

theorem Operands.indifferent : {kind : Kind} → (operands : Operands kind) →
    ∀ evaluation ∈ operands.toList.map Calculation.evaluate, evaluation.Indifferent
  | _, .nil => List.forall_mem_nil _
  | _, .cons operand operands =>
    List.forall_mem_cons.mpr ⟨operand.indifferent, operands.indifferent⟩

end

/-! ## Sessions -/

/-- Looking up and putting together has nothing to do with events, and what is left to do is
indifferent to who listens. -/
theorem Step.indifferent_of_planned {scope : Scope} {step : Step} {plan : Plan}
    {store left : Store} (planned : (step.plan scope).run store = some (plan, left)) :
    plan.evaluation.Indifferent := by
  cases step with
  | declare name kind given =>
      simp only [Step.plan] at planned
      rcases Option.bind_eq_some_iff.mp planned with ⟨⟨value, middle⟩, _, rest⟩
      cases rest
      apply (Evaluation.indifferent_record rfl).bind
      intro _
      exact .pure _
  | «alias» name other =>
      simp only [Step.plan] at planned
      split at planned <;> cases planned
      exact .pure _
  | assign name scalar =>
      simp only [Step.plan] at planned
      split at planned
      · next kind target found =>
        rcases Option.bind_eq_some_iff.mp planned with ⟨⟨value, middle⟩, _, rest⟩
        cases rest
        apply (Evaluation.indifferent_write target value).bind
        intro _
        exact .pure _
      · cases planned
  | inspect name =>
      simp only [Step.plan] at planned
      split at planned <;> cases planned
      apply (Evaluation.indifferent_read _).bind
      intro _
      exact .pure _
  | define name kind expression =>
      rcases Option.bind_eq_some_iff.mp planned with ⟨⟨calculation, middle⟩, _, rest⟩
      cases rest
      exact .pure _
  | defineFailing name failure =>
      cases planned
      exact .pure _
  | inspectFailing name =>
      simp only [Step.plan] at planned
      split at planned <;> cases planned
      exact .pure _
  | evaluate kind expression =>
      rcases Option.bind_eq_some_iff.mp planned with ⟨⟨calculation, middle⟩, _, rest⟩
      cases rest
      apply calculation.indifferent.bind
      intro _
      exact .pure _
  | evaluateOperands name =>
      simp only [Step.plan] at planned
      split at planned
      · next kind calculation operands found =>
        cases planned
        apply Evaluation.Indifferent.bind
        · apply Evaluation.Indifferent.outcomes
          intro evaluation member
          rcases List.mem_map.mp member with ⟨operand, _, rfl⟩
          exact operand.indifferent.map _
        · intro _
          exact .pure _
      · cases planned
  | drop name =>
      simp only [Step.plan] at planned
      split at planned <;> cases planned
      exact .pure _

namespace Session

theorem step?_false (session : Session) (step : Step) :
    session.step? false step =
      (session.step? true step).map fun taken => (taken.1.withoutEvents, taken.2) := by
  simp only [step?]
  cases planned : (step.plan session.scope).run session.store with
  | none => rfl
  | some made =>
      have indifferent := Step.indifferent_of_planned planned
      simp only [Option.bind_eq_bind, Option.bind_some, indifferent.run_eq]
      rfl

theorem take_false (session : Session) (step : Option Step) :
    session.take false step =
      ((session.take true step).1.map Report.withoutEvents, (session.take true step).2) := by
  cases step with
  | none => rfl
  | some step =>
      simp only [take, Option.bind_some, step?_false]
      cases session.step? true step <;> rfl

theorem run_false (session : Session) (steps : List (Option Step)) :
    session.run false steps =
      ((session.run true steps).1.map (Option.map Report.withoutEvents),
        (session.run true steps).2) := by
  induction steps generalizing session with
  | nil => rfl
  | cons step steps ih =>
      -- Both sessions are the same after the first step, so the induction goes on from one of them.
      simp only [run_cons, take_false, ih, List.map_cons]

/-- Events do not interfere. Whatever steps a session takes, and whatever the graphs in it do to the
store and to their own counts, it replies the same with and without a listener, with the same values
and failures, and has the same store and scope afterwards. The journals without a listener are those
with a listener without their events, and so are the parts of them that are shown. -/
theorem events_do_not_interfere (session : Session) (steps : List (Option Step)) :
    let heard := session.run true steps
    let unheard := session.run false steps
    unheard.1 = heard.1.map (Option.map Report.withoutEvents) ∧
      unheard.2 = heard.2 ∧
      unheard.1.map (Option.map Report.visible) =
        heard.1.map (Option.map fun report => report.visible.filter (!·.isEvent)) := by
  intro heard unheard
  have replies : unheard.1 = heard.1.map (Option.map Report.withoutEvents) :=
    congrArg Prod.fst (session.run_false steps)
  have left : unheard.2 = heard.2 := by simp only [unheard, heard, run_false]
  refine ⟨replies, left, ?_⟩
  rw [replies, List.map_map]
  apply List.map_congr_left
  intro report _
  cases report with
  | none => rfl
  | some report => exact congrArg some report.visible_withoutEvents

end Session

end Deferred
