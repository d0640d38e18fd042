import Deferred.Arithmetic
import Deferred.Evaluation.Collect

/-!
# Combinators with a fixed number of operands

Every combinator has a fixed policy for failures. Negation, the sign and the condition of a
conditional pass a failure on unchanged, and go no further. Comparison and binary functions run both
operands in any case, and put the failures together. The branch of a conditional that is not
selected is never run.
-/

namespace Deferred.Evaluation

variable {α : Type}

/-- The negation of a truth value. -/
def negate (operand : Evaluation Bool) : Evaluation Bool :=
  Bool.not <$> operand.reportingFailure fun _ => .negatedOperandFailed

/-- The sign of an integer. -/
def signum (operand : Evaluation Int64) : Evaluation Int64 :=
  Arithmetic.sign <$> operand.reportingFailure fun _ => .signumOperandFailed

/-- Whether two operands have the same value. -/
def equals [DecidableEq α] (lhs rhs : Evaluation α) : Evaluation Bool :=
  (fun (left, right) => left = right) <$> both lhs rhs

/-- A function of the values of two operands. -/
def binary (function : α → α → Evaluation α) (lhs rhs : Evaluation α) : Evaluation α := do
  let (left, right) ← both lhs rhs
  function left right

/-- Runs the condition, and then the branch that it selects. -/
def conditional (condition : Evaluation Bool) (ifTrue ifFalse : Evaluation α) :
    Evaluation α := do
  let selected ← condition.reportingFailure fun _ => .conditionFailed
  if selected then ifTrue else ifFalse

end Deferred.Evaluation
