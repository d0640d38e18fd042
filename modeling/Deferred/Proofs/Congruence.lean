import Deferred.Proofs.Effects
import Mathlib.Data.List.Forall2

/-!
# Parts that can stand for each other

One part of a graph can stand for another one if nothing that matters tells them apart. What matters
is given by a `View`: the stores in which the parts are run, and the entries of the journal that are
looked at. Two evaluations match if in each of these stores they come to the same, leave the same
store behind, and keep the same journal as far as it is looked at. The store left behind has to be
in the view again, so that whatever runs next can be compared as well.

Every combinator passes matching on from its operands to the whole, also from operands that are not
run at all. So a rule for rewriting calculations may be applied anywhere in a graph, and in several
places at once, if the two sides of it match (`Calculation.Rewritten.matches`).
-/

namespace Deferred

variable {kind : Kind} {α β : Type}

/-- What matters when evaluations are compared. -/
structure View where
  store : Store → Prop
  entry : Entry → Bool

/-- The view in which a single store and nothing of the journal matters. -/
def View.only (store : Store) : View where
  store other := other = store
  entry _ := false

/-- Whatever happens, a store of the view is left behind. -/
def View.staying (view : View) : Effect where
  allows store _ after := view.store store → view.store after
  nothing _ := id
  append first second := second ∘ first
  event _ _ := id
  raised _ _ _ := id

/-- Two runs are the same as far as it matters, and leave a store of the view behind. -/
structure Run.Matches (view : View) (own other : Run α) : Prop where
  outcome_eq : other.outcome = own.outcome
  store_eq : other.store = own.store
  journal_eq : other.journal.filter view.entry = own.journal.filter view.entry
  closed : view.store own.store

/-- Two evaluations are the same as far as it matters. -/
def Evaluation.Matches (view : View) (own other : Evaluation α) : Prop :=
  ∀ tracing store, view.store store →
    (own.run tracing store).Matches view (other.run tracing store)

namespace Evaluation.Matches

variable {view : View}

/-- What does not leave the view matches itself. -/
theorem refl {evaluation : Evaluation α} (stays : evaluation.Respects view.staying) :
    evaluation.Matches view evaluation :=
  fun tracing store inView => ⟨rfl, rfl, rfl, stays tracing store inView⟩

theorem symm {own other : Evaluation α} (same : own.Matches view other) :
    other.Matches view own := by
  intro tracing store inView
  rcases same tracing store inView with ⟨outcome, left, journal, closed⟩
  exact ⟨outcome.symm, left.symm, journal.symm, left ▸ closed⟩

theorem trans {first second third : Evaluation α} (same : first.Matches view second)
    (further : second.Matches view third) : first.Matches view third := by
  intro tracing store inView
  rcases same tracing store inView with ⟨outcome, left, journal, closed⟩
  rcases further tracing store inView with ⟨outcomeToo, leftToo, journalToo, _⟩
  exact ⟨outcomeToo.trans outcome, leftToo.trans left, journalToo.trans journal, closed⟩

theorem map (function : α → β) {own other : Evaluation α} (same : own.Matches view other) :
    (function <$> own).Matches view (function <$> other) := by
  intro tracing store inView
  rcases same tracing store inView with ⟨outcome, left, journal, closed⟩
  exact ⟨congrArg (Except.map function) outcome, left, journal, closed⟩

theorem attempt {own other : Evaluation α} (same : own.Matches view other) :
    own.attempt.Matches view other.attempt := by
  intro tracing store inView
  rcases same tracing store inView with ⟨outcome, left, journal, closed⟩
  exact ⟨congrArg Except.ok outcome, left, journal, closed⟩

theorem reportingFailure (event : Failure → Event) {own other : Evaluation α}
    (same : own.Matches view other) :
    (own.reportingFailure event).Matches view (other.reportingFailure event) := by
  intro tracing store inView
  rcases same tracing store inView with ⟨outcome, left, journal, closed⟩
  rw [run_reportingFailure_eq, run_reportingFailure_eq]
  refine ⟨outcome, left, ?_, closed⟩
  simp only [List.filter_append, journal, outcome]

theorem bind {first otherFirst : Evaluation α} {rest otherRest : α → Evaluation β}
    (begun : first.Matches view otherFirst)
    (goesOn : ∀ value, (rest value).Matches view (otherRest value)) :
    (first >>= rest).Matches view (otherFirst >>= otherRest) := by
  intro tracing store inView
  have start := begun tracing store inView
  rw [run_bind, run_bind, start.outcome_eq, start.store_eq]
  cases (first.run tracing store).outcome with
  | error failure => exact ⟨rfl, rfl, start.journal_eq, start.closed⟩
  | ok value =>
      have ended := goesOn value tracing _ start.closed
      refine ⟨ended.outcome_eq, ended.store_eq, ?_, ended.closed⟩
      simp only [List.filter_append, start.journal_eq, ended.journal_eq]

theorem both {lhs otherLhs : Evaluation α} {rhs otherRhs : Evaluation β}
    (left : lhs.Matches view otherLhs) (right : rhs.Matches view otherRhs) :
    (both lhs rhs).Matches view (both otherLhs otherRhs) := by
  apply left.attempt.bind
  intro leftOutcome
  apply right.attempt.bind
  intro rightOutcome
  apply refl
  apply (Evaluation.Respects.check _).bind
  intro _
  apply (Evaluation.Respects.ofExcept leftOutcome).bind
  intro leftValue
  apply (Evaluation.Respects.ofExcept rightOutcome).bind
  intro rightValue
  exact .pure _

theorem outcomes {own other : List (Evaluation α)}
    (each : List.Forall₂ (Evaluation.Matches view) own other) :
    (outcomes own).Matches view (outcomes other) := by
  induction each with
  | nil => exact refl (.pure [])
  | cons first _ ih =>
      apply first.attempt.bind
      intro outcome
      exact ih.map _

theorem all {own other : List (Evaluation α)}
    (each : List.Forall₂ (Evaluation.Matches view) own other) :
    (all own).Matches view (all other) := by
  apply (outcomes each).bind
  intro collected
  apply (refl (.check _)).bind
  intro _
  exact refl (.pure _)

/-! ## The combinators -/

theorem negate {own other : Evaluation Bool} (operand : own.Matches view other) :
    own.negate.Matches view other.negate :=
  (operand.reportingFailure _).map _

theorem signum {own other : Evaluation Int64} (operand : own.Matches view other) :
    own.signum.Matches view other.signum :=
  (operand.reportingFailure _).map _

theorem equals [DecidableEq α] {lhs rhs otherLhs otherRhs : Evaluation α}
    (left : lhs.Matches view otherLhs) (right : rhs.Matches view otherRhs) :
    (lhs.equals rhs).Matches view (otherLhs.equals otherRhs) :=
  (left.both right).map _

theorem conditional {condition otherCondition : Evaluation Bool}
    {ifTrue ifFalse otherTrue otherFalse : Evaluation α}
    (selecting : condition.Matches view otherCondition) (whenTrue : ifTrue.Matches view otherTrue)
    (whenFalse : ifFalse.Matches view otherFalse) :
    (condition.conditional ifTrue ifFalse).Matches view
      (otherCondition.conditional otherTrue otherFalse) := by
  apply (selecting.reportingFailure _).bind
  intro selected
  cases selected with
  | true => exact whenTrue
  | false => exact whenFalse

theorem binary {function : α → α → Evaluation α} {lhs rhs otherLhs otherRhs : Evaluation α}
    (called : ∀ left right, (function left right).Respects view.staying)
    (left : lhs.Matches view otherLhs) (right : rhs.Matches view otherRhs) :
    (binary function lhs rhs).Matches view (binary function otherLhs otherRhs) := by
  apply (left.both right).bind
  intro values
  exact refl (called values.1 values.2)

theorem reduceLeft {reduce : α → α → Evaluation α} {initial otherInitial : Evaluation α}
    {operands otherOperands : List (Evaluation α)}
    (called : ∀ accumulated next, (reduce accumulated next).Respects view.staying)
    (starting : initial.Matches view otherInitial)
    (each : List.Forall₂ (Evaluation.Matches view) operands otherOperands) :
    (reduceLeft reduce initial operands).Matches view
      (reduceLeft reduce otherInitial otherOperands) := by
  unfold Evaluation.reduceLeft
  rw [each.length_eq]
  apply (starting.reportingFailure _).bind
  intro start
  apply (all each).bind
  intro values
  exact refl (.reduceFrom called 0 start values)

end Evaluation.Matches

/-! ## Rewriting anywhere in a graph -/

/-- A rule for rewriting calculations. -/
abbrev Rule := (kind : Kind) → Calculation kind → Calculation kind → Prop

mutual

/-- A graph becomes another one by a rule, applied to any number of its parts at once. -/
inductive Calculation.Rewritten (rule : Rule) :
    {kind : Kind} → Calculation kind → Calculation kind → Prop
  | rule {kind : Kind} {own other : Calculation kind} (applied : rule kind own other) :
    Calculation.Rewritten rule own other
  | constant {kind : Kind} (value : kind.Value) :
    Calculation.Rewritten rule (.constant value) (.constant value)
  | input {kind : Kind} (source : Variable kind) :
    Calculation.Rewritten rule (.input source) (.input source)
  | failing {kind : Kind} (failure : Failure) :
    Calculation.Rewritten rule (.failing failure : Calculation kind) (.failing failure)
  | supplied {kind : Kind} (procedure : Procedure (Outcome kind.Value)) :
    Calculation.Rewritten rule (.supplied procedure) (.supplied procedure)
  | preceded {kind : Kind} (procedure : Procedure Unit) {operand other : Calculation kind}
    (inside : Calculation.Rewritten rule operand other) :
    Calculation.Rewritten rule (.preceded procedure operand) (.preceded procedure other)
  | not {operand other : Calculation .bool} (inside : Calculation.Rewritten rule operand other) :
    Calculation.Rewritten rule operand.not other.not
  | signum {operand other : Calculation .int} (inside : Calculation.Rewritten rule operand other) :
    Calculation.Rewritten rule operand.signum other.signum
  | equals {kind : Kind} {lhs rhs otherLhs otherRhs : Calculation kind}
    (left : Calculation.Rewritten rule lhs otherLhs)
    (right : Calculation.Rewritten rule rhs otherRhs) :
    Calculation.Rewritten rule (.equals lhs rhs) (.equals otherLhs otherRhs)
  | conditional {kind : Kind} {condition otherCondition : Calculation .bool}
    {ifTrue ifFalse otherTrue otherFalse : Calculation kind}
    (selecting : Calculation.Rewritten rule condition otherCondition)
    (whenTrue : Calculation.Rewritten rule ifTrue otherTrue)
    (whenFalse : Calculation.Rewritten rule ifFalse otherFalse) :
    Calculation.Rewritten rule (.conditional condition ifTrue ifFalse)
      (.conditional otherCondition otherTrue otherFalse)
  | binary {kind : Kind} (operation : Operation kind)
    {lhs rhs otherLhs otherRhs : Calculation kind}
    (left : Calculation.Rewritten rule lhs otherLhs)
    (right : Calculation.Rewritten rule rhs otherRhs) :
    Calculation.Rewritten rule (.binary operation lhs rhs) (.binary operation otherLhs otherRhs)
  | reduceLeft {kind : Kind} (reducer : Reducer kind) {initial otherInitial : Calculation kind}
    {operands otherOperands : Operands kind}
    (starting : Calculation.Rewritten rule initial otherInitial)
    (each : Operands.Rewritten rule operands otherOperands) :
    Calculation.Rewritten rule (.reduceLeft reducer initial operands)
      (.reduceLeft reducer otherInitial otherOperands)

/-- Operands become other ones by a rule, applied to any number of their parts at once. -/
inductive Operands.Rewritten (rule : Rule) : {kind : Kind} → Operands kind → Operands kind → Prop
  | nil {kind : Kind} : Operands.Rewritten rule (.nil : Operands kind) .nil
  | cons {kind : Kind} {operand other : Calculation kind} {operands others : Operands kind}
    (first : Calculation.Rewritten rule operand other)
    (rest : Operands.Rewritten rule operands others) :
    Operands.Rewritten rule (.cons operand operands) (.cons other others)

end

section Sound

variable {view : View} {fragment : Fragment} {rule : Rule}

mutual

/-- If the sides of a rule match, whatever becomes of a graph by the rule matches the graph. -/
theorem Calculation.Rewritten.matches (stays : fragment.Respects view.staying)
    (sound : ∀ {kind : Kind} {own other : Calculation kind}, own.IsIn fragment →
      rule kind own other → own.evaluate.Matches view other.evaluate) :
    {kind : Kind} → {own other : Calculation kind} → own.Rewritten rule other →
    own.IsIn fragment → own.evaluate.Matches view other.evaluate
  | _, _, _, .rule applied, within => sound within applied
  | _, _, _, .constant value, _ => .refl (.pure value)
  | _, _, _, .input _, within => .refl (stays.input within)
  | _, _, _, .failing failure, _ => .refl (.raise .failing failure)
  | _, _, _, .supplied procedure, within =>
    .refl ((Calculation.supplied procedure).respects stays within)
  | _, _, _, .preceded _ inside, within =>
    (Evaluation.Matches.refl (stays.preceded within.1)).bind fun _ =>
      inside.matches stays sound within.2
  | _, _, _, .not inside, within => (inside.matches stays sound within).negate
  | _, _, _, .signum inside, within => (inside.matches stays sound within).signum
  | _, _, _, .equals left right, within =>
    (left.matches stays sound within.1).equals (right.matches stays sound within.2)
  | _, _, _, .conditional selecting whenTrue whenFalse, within =>
    (selecting.matches stays sound within.1).conditional (whenTrue.matches stays sound within.2.1)
      (whenFalse.matches stays sound within.2.2)
  | _, _, _, .binary _ left right, within =>
    .binary (stays.operation within.1) (left.matches stays sound within.2.1)
      (right.matches stays sound within.2.2)
  | _, _, _, .reduceLeft _ starting each, within => by
      rw [Calculation.evaluate_reduceLeft, Calculation.evaluate_reduceLeft]
      exact .reduceLeft (stays.reducer within.1) (starting.matches stays sound within.2.1)
        (each.matches stays sound within.2.2)

theorem Operands.Rewritten.matches (stays : fragment.Respects view.staying)
    (sound : ∀ {kind : Kind} {own other : Calculation kind}, own.IsIn fragment →
      rule kind own other → own.evaluate.Matches view other.evaluate) :
    {kind : Kind} → {own other : Operands kind} → own.Rewritten rule other → own.IsIn fragment →
    List.Forall₂ (Evaluation.Matches view) (own.toList.map Calculation.evaluate)
      (other.toList.map Calculation.evaluate)
  | _, _, _, .nil, _ => .nil
  | _, _, _, .cons first rest, within =>
    .cons (first.matches stays sound within.1) (rest.matches stays sound within.2)

end

end Sound

end Deferred
