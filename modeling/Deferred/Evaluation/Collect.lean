import Deferred.Evaluation

/-!
# Running all operands

A combinator that runs all its operands goes on after a failure. When the last operand has run, the
failures, if there are any, become one aggregate in the order of the operands. A single failure is
put into an aggregate as well.
-/

namespace Deferred.Evaluation

variable {α β : Type}

/-- Runs evaluations one after the other, also after failures, and gives their outcomes. -/
def outcomes : List (Evaluation α) → Evaluation (List (Outcome α))
  | [] => pure []
  | operand :: operands => do
    let outcome ← operand.attempt
    (outcome :: ·) <$> outcomes operands

/-- Fails with all the given failures together, if there are any, and emits an event about that. -/
def check (failures : List Failure) : Evaluation Unit :=
  match Aggregate.ofFailures? failures with
  | some aggregate => do
    emit (.operandsFailed aggregate.size)
    fail aggregate.toFailure
  | none => pure ()

/-- Runs all operands and gives their values. If any of them fail, it fails with all failures. -/
def all (operands : List (Evaluation α)) : Evaluation (List α) := do
  let outcomes ← outcomes operands
  check (Outcome.failures outcomes)
  pure (Outcome.values outcomes)

/-- Runs two operands, which may differ in kind, and gives both values. If any of them fail, it
fails with all failures. -/
def both (lhs : Evaluation α) (rhs : Evaluation β) : Evaluation (α × β) := do
  let left ← lhs.attempt
  let right ← rhs.attempt
  check (left.failure?.toList ++ right.failure?.toList)
  return (← ofExcept left, ← ofExcept right)

@[simp]
theorem outcomes_nil : outcomes ([] : List (Evaluation α)) = pure [] := rfl

theorem outcomes_cons (operand : Evaluation α) (operands : List (Evaluation α)) :
    outcomes (operand :: operands) =
      operand.attempt >>= fun outcome => (outcome :: ·) <$> outcomes operands := rfl

@[simp]
theorem check_nil : check [] = pure () := rfl

theorem check_of_ne_nil {failures : List Failure} (nonempty : failures ≠ []) :
    check failures =
      emit (.operandsFailed failures.length) >>= fun _ => fail (.aggregate failures) := by
  simp [check, Aggregate.ofFailures?, nonempty, Aggregate.size, Aggregate.toFailure]

end Deferred.Evaluation
