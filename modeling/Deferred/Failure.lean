/-!
# Failures

A failure is a plain message, an error of somebody else's, an integer overflow, or several failures
together. Combinators that stop at the first failure pass it on unchanged; combinators that run all
their operands put every failure into an `Aggregate`, which is never empty, even if only one operand
failed. `Failure.render` gives the text of a failure; causes keep the order of detection.
-/

namespace Deferred

/-- Why an evaluation gave no value. -/
inductive Failure where
  | message (text : String)
  /-- An error from outside, known by its text only. -/
  | external (text : String)
  /-- The exact result of the named arithmetic operation does not fit 64 bits. -/
  | overflow (operation : String)
  | aggregate (causes : List Failure)

namespace Failure

mutual

/-- The text of a failure. An aggregate announces itself and joins the texts of its causes. -/
def render : Failure → String
  | .message text => text
  | .external text => text
  | .overflow operation => "integer overflow in " ++ operation
  | .aggregate causes => "multiple errors: " ++ "; ".intercalate (renderAll causes)

/-- The texts of several failures, in order. -/
def renderAll : List Failure → List String
  | [] => []
  | failure :: rest => failure.render :: renderAll rest

end

@[simp]
theorem renderAll_eq_map (failures : List Failure) : renderAll failures = failures.map render := by
  induction failures with
  | nil => rfl
  | cons failure rest ih => simp [renderAll, ih]

theorem render_aggregate (causes : List Failure) :
    (aggregate causes).render = "multiple errors: " ++ "; ".intercalate (causes.map render) := by
  rw [← renderAll_eq_map]
  rfl

/-- The failure that wraps another one as an error from outside: only its text remains. -/
def ofForeign (failure : Failure) : Failure :=
  .external failure.render

/-- The underlying failures of an aggregate. Other failures have none. -/
def causes? : Failure → Option (List Failure)
  | .aggregate causes => some causes
  | _ => none

/-- Whether several failures were put together here. -/
def isAggregate (failure : Failure) : Bool :=
  failure.causes?.isSome

end Failure

/-- Several failures in the order of detection, at least one. -/
structure Aggregate where
  causes : List Failure
  causes_ne_nil : causes ≠ []

namespace Aggregate

/-- Puts failures together. There is no aggregate of no failures. -/
def ofFailures? (failures : List Failure) : Option Aggregate :=
  if nonempty : failures ≠ [] then some ⟨failures, nonempty⟩ else none

/-- The number of failures put together. -/
def size (aggregate : Aggregate) : Nat :=
  aggregate.causes.length

/-- Whether nothing was put together. -/
def isEmpty (aggregate : Aggregate) : Bool :=
  aggregate.causes.isEmpty

/-- The aggregate as one failure. -/
def toFailure (aggregate : Aggregate) : Failure :=
  .aggregate aggregate.causes

/-- The text of the aggregate. -/
def render (aggregate : Aggregate) : String :=
  aggregate.toFailure.render

theorem ofFailures?_eq_some_iff {failures : List Failure} {aggregate : Aggregate} :
    ofFailures? failures = some aggregate ↔ failures = aggregate.causes := by
  rcases aggregate with ⟨causes, nonempty⟩
  by_cases empty : failures = []
  · subst empty
    simp [ofFailures?, Ne.symm nonempty]
  · simp [ofFailures?, empty]

@[simp]
theorem isEmpty_eq_false (aggregate : Aggregate) : aggregate.isEmpty = false := by
  simpa [isEmpty] using aggregate.causes_ne_nil

end Aggregate

end Deferred
