import Deferred.Evaluation.Collect

/-!
# Folds

A fold has three phases. The initial value is run first, and if it fails, nothing else happens. Then
all operands are run in order, also after failures, and if any of them fail, the reducing function
is never called. Only then are the values reduced from the left, starting with the initial value,
and the first failing step ends the fold with its failure.

The values are those that the operands had when they were run: the second phase is over before the
third begins.
-/

namespace Deferred.Evaluation

variable {α : Type}

/-- Reduces values from the left. Steps are counted on from the given number, and a failing step is
reported with its number. -/
def reduceFrom (reduce : α → α → Evaluation α) (step : Nat) (accumulated : α) :
    List α → Evaluation α
  | [] => pure accumulated
  | next :: rest => do
    let reduced ← (reduce accumulated next).reportingFailure fun failure =>
      .stepFailed step failure
    reduceFrom reduce (step + 1) reduced rest

/-- Folds the values of operands from the left, starting with an initial value. -/
def reduceLeft (reduce : α → α → Evaluation α) (initial : Evaluation α)
    (operands : List (Evaluation α)) : Evaluation α := do
  let start ← initial.reportingFailure fun _ => .initialFailed operands.length
  let values ← all operands
  reduceFrom reduce 0 start values

@[simp]
theorem reduceFrom_nil (reduce : α → α → Evaluation α) (step : Nat) (accumulated : α) :
    reduceFrom reduce step accumulated [] = pure accumulated := rfl

theorem reduceFrom_cons (reduce : α → α → Evaluation α) (step : Nat) (accumulated next : α)
    (rest : List α) :
    reduceFrom reduce step accumulated (next :: rest) =
      ((reduce accumulated next).reportingFailure fun failure => .stepFailed step failure) >>=
        fun reduced => reduceFrom reduce (step + 1) reduced rest := rfl

end Deferred.Evaluation
