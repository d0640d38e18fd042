import Deferred.Expression

/-!
# Sessions

A session keeps a store and a scope while it takes one step after the other: steps create and change
variables, name calculations, and evaluate them. A step first has everything that it mentions looked
up and put together. If that is refused, the step is rejected, and the session stays as it was.
Otherwise the step is carried out, and reports a reply or a failure, and what happened.
-/

namespace Deferred

/-- What a step of a session can ask for. -/
inductive Step where
  /-- Names a new variable. Without a value, it holds the zero value of its kind. -/
  | declare (name : String) (kind : Kind) (value : Option Scalar)
  /-- Names a variable that has a name already. -/
  | alias (name other : String)
  | assign (name : String) (value : Scalar)
  | inspect (name : String)
  | define (name : String) (kind : Kind) (expression : Expression)
  | defineFailing (name : String) (failure : Failure)
  | inspectFailing (name : String)
  | evaluate (kind : Kind) (expression : Expression)
  /-- Evaluates the operands of a fold, one after the other. -/
  | evaluateOperands (name : String)
  | drop (name : String)

/-- What a step replies when it is done. -/
inductive Reply where
  | done
  | value (value : Scalar)
  | failure (failure : Failure)
  | outcomes (outcomes : List (Outcome Scalar))

/-- What is known about a step that was carried out. -/
structure Report where
  outcome : Outcome Reply
  journal : List Entry

/-- The part of the journal that is shown to the outside. -/
def Report.visible (report : Report) : List Entry :=
  report.journal.filter Entry.isReported

/-- The variables and the names of a session. -/
structure Session where
  store : Store
  scope : Scope

/-- What is left to do for a step after everything has been looked up and put together. -/
structure Plan where
  evaluation : Evaluation Reply
  scope : Scope

/-- Creates a variable while a plan is made. -/
def Builder.newVariable {kind : Kind} (value : kind.Value) : Builder (Variable kind) :=
  modifyGet fun store => store.create value

/-- Looks up and puts together what a step mentions. -/
def Step.plan (scope : Scope) : Step → Builder Plan
  | .declare name kind value => do
    let value ← (value.getD (.ofValue kind.zero)).value? kind
    let source ← Builder.newVariable value
    return ⟨do .record (.created source value); pure .done, scope.insert name (.cell source)⟩
  | .alias name other => do
    let some (.cell source) := scope.find? other | failure
    return ⟨pure .done, scope.insert name (.cell source)⟩
  | .assign name value => do
    let some (.cell target) := scope.find? name | failure
    let value ← value.value? _
    return ⟨do .write target value; pure .done, scope⟩
  | .inspect name => do
    let some (.cell source) := scope.find? name | failure
    return ⟨do return .value (.ofValue (← .read source)), scope⟩
  | .define name kind expression => do
    let calculation ← expression.build scope kind
    let operands := if expression.showsOperands scope then calculation.operands? else none
    return ⟨pure .done, scope.insert name (.node calculation operands)⟩
  | .defineFailing name failure =>
    return ⟨pure .done, scope.insert name (.failing failure)⟩
  | .inspectFailing name => do
    let some (.failing reason) := scope.find? name | failure
    return ⟨pure (.failure reason), scope⟩
  | .evaluate kind expression => do
    let calculation ← expression.build scope kind
    return ⟨do return .value (.ofValue (← calculation.evaluate)), scope⟩
  | .evaluateOperands name => do
    let some (.node _ (some operands)) := scope.find? name | failure
    let evaluations := operands.toList.map fun operand => Scalar.ofValue <$> operand.evaluate
    return ⟨do return .outcomes (← Evaluation.outcomes evaluations), scope⟩
  | .drop name => do
    let some _ := scope.find? name | failure
    return ⟨pure .done, scope.erase name⟩

namespace Session

/-- A session that has not taken any step. -/
def empty : Session := ⟨.empty, .empty⟩

/-- Takes a step. It gives nothing if the step is rejected. -/
def step? (tracing : Bool) (session : Session) (step : Step) : Option (Report × Session) := do
  let (plan, store) ← (step.plan session.scope).run session.store
  let run := plan.evaluation.run tracing store
  return (⟨run.outcome, run.journal⟩, ⟨run.store, plan.scope⟩)

/-- Takes a step, if it could be read. A step that could not be read is rejected as well, and a
rejected step leaves the session as it was. -/
def take (tracing : Bool) (session : Session) (step : Option Step) : Option Report × Session :=
  match step.bind (session.step? tracing) with
  | some (report, after) => (some report, after)
  | none => (none, session)

/-- Takes several steps, one after the other, whether or not some of them are rejected. It gives the
reports of the steps and the session after the last one. -/
def run (tracing : Bool) : Session → List (Option Step) → List (Option Report) × Session
  | session, [] => ([], session)
  | session, step :: steps =>
    let (report, after) := session.take tracing step
    let (reports, last) := after.run tracing steps
    (report :: reports, last)

@[simp]
theorem take_none (tracing : Bool) (session : Session) :
    session.take tracing none = (none, session) := rfl

theorem take_of_rejected {tracing : Bool} {session : Session} {step : Step}
    (rejected : session.step? tracing step = none) :
    session.take tracing (some step) = (none, session) := by
  simp [take, rejected]

theorem take_of_accepted {tracing : Bool} {session after : Session} {step : Step} {report : Report}
    (accepted : session.step? tracing step = some (report, after)) :
    session.take tracing (some step) = (some report, after) := by
  simp [take, accepted]

@[simp]
theorem run_nil (tracing : Bool) (session : Session) :
    session.run tracing [] = ([], session) := rfl

theorem run_cons (tracing : Bool) (session : Session) (step : Option Step)
    (steps : List (Option Step)) :
    session.run tracing (step :: steps) =
      let rest := (session.take tracing step).2.run tracing steps
      ((session.take tracing step).1 :: rest.1, rest.2) := rfl

end Session

end Deferred
