import Deferred.Arithmetic
import Deferred.Procedure

/-!
# Functions on values

An `Operation` gives a value for any two values. A `Reducer` takes one step of a fold, and may fail.
What they do besides is a `Procedure`, which does nothing but finish if the function is a pure one.
Calling a function leaves an entry in the journal. The functions that the library itself brings
along are pure and have no name, and their calls are not reported.
-/

namespace Deferred

/-- A binary function on the values of a kind. -/
structure Operation (kind : Kind) where
  name : Option String
  /-- What it does for two values, and the result. -/
  body : kind.Value → kind.Value → Procedure kind.Value

/-- A reducing function on the values of a kind. -/
structure Reducer (kind : Kind) where
  name : Option String
  /-- What a step does for what has been accumulated and the next value, and its outcome. -/
  body : kind.Value → kind.Value → Procedure (Outcome kind.Value)

variable {kind : Kind}

namespace Operation

/-- A binary function that does nothing but give a value. -/
def pure (name : Option String) (apply : kind.Value → kind.Value → kind.Value) : Operation kind :=
  ⟨name, fun lhs rhs => .finish (apply lhs rhs)⟩

/-- Calls a binary function. -/
def call (operation : Operation kind) (lhs rhs : kind.Value) : Evaluation kind.Value := do
  .record (.applied operation.name (.ofValue lhs) (.ofValue rhs))
  (operation.body lhs rhs).perform

/-- Subtraction that wraps around. -/
def subtract : Operation .int :=
  .pure none fun lhs rhs => lhs - rhs

@[simp]
theorem run_call_pure (name : Option String) (apply : kind.Value → kind.Value → kind.Value)
    (lhs rhs : kind.Value) (tracing : Bool) (store : Store) :
    ((pure name apply).call lhs rhs).run tracing store =
      ⟨.ok (apply lhs rhs), store, [.applied name (.ofValue lhs) (.ofValue rhs)]⟩ := rfl

end Operation

namespace Reducer

/-- A reducing function that does nothing but give a value or fail. -/
def pure (name : Option String) (step : kind.Value → kind.Value → Outcome kind.Value) :
    Reducer kind :=
  ⟨name, fun accumulated next => .finish (step accumulated next)⟩

/-- Calls a reducing function. -/
def call (reducer : Reducer kind) (accumulated next : kind.Value) : Evaluation kind.Value := do
  .record (.reduced reducer.name (.ofValue accumulated) (.ofValue next))
  let outcome ← (reducer.body accumulated next).perform
  .settle .reducer outcome

/-- The reducing function that never fails and calls a binary function. -/
def ofOperation (operation : Operation kind) : Reducer kind :=
  ⟨operation.name, fun accumulated next => (operation.body accumulated next).map .ok⟩

/-- Addition that wraps around. -/
def add : Reducer .int :=
  .pure none fun accumulated next => .ok (accumulated + next)

/-- Multiplication that wraps around. -/
def multiply : Reducer .int :=
  .pure none fun accumulated next => .ok (accumulated * next)

/-- Addition that fails instead of wrapping around. -/
def checkedAdd : Reducer .int :=
  .pure none Arithmetic.checkedAdd

/-- Multiplication that fails instead of wrapping around. -/
def checkedMultiply : Reducer .int :=
  .pure none Arithmetic.checkedMultiply

theorem call_pure (name : Option String) (step : kind.Value → kind.Value → Outcome kind.Value)
    (accumulated next : kind.Value) :
    (pure name step).call accumulated next =
      Evaluation.record (.reduced name (.ofValue accumulated) (.ofValue next)) >>= fun _ =>
        Evaluation.settle .reducer (step accumulated next) := rfl

end Reducer

end Deferred
