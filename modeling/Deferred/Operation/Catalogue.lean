import Deferred.Operation

/-!
# The catalogue of named functions

Written calculations call functions by name. Which functions a name stands for depends on the kind
of the operands. Every binary function is also a reducing function that never fails; some reducing
functions do fail, and are not binary functions.
-/

namespace Deferred

namespace Operation

/-- The binary functions on integers, by name. All of them wrap around. -/
def integer? : String → Option (Int64 → Int64 → Int64)
  | "add" => some fun lhs rhs => lhs + rhs
  | "sub" => some fun lhs rhs => lhs - rhs
  | "mul" => some fun lhs rhs => lhs * rhs
  | "min" => some fun lhs rhs => if rhs < lhs then rhs else lhs
  | "max" => some fun lhs rhs => if lhs < rhs then rhs else lhs
  | "digits" => some fun lhs rhs => lhs * 10 + rhs
  | "first" => some fun lhs _ => lhs
  | "second" => some fun _ rhs => rhs
  | _ => none

/-- The binary functions on truth values, by name. -/
def logical? : String → Option (Bool → Bool → Bool)
  | "and" => some fun lhs rhs => lhs && rhs
  | "or" => some fun lhs rhs => lhs || rhs
  | "xor" => some fun lhs rhs => lhs ^^ rhs
  | "implies" => some fun lhs rhs => !lhs || rhs
  | "first" => some fun lhs _ => lhs
  | "second" => some fun _ rhs => rhs
  | _ => none

/-- The binary function of a name, on the values of a kind. -/
def named? : (kind : Kind) → String → Option (Operation kind)
  | .int, name => (integer? name).map (.pure (some name))
  | .bool, name => (logical? name).map (.pure (some name))

end Operation

namespace Reducer

/-- Refuses to go on when two or more have been accumulated, and adds otherwise. -/
def refuse : Reducer .int :=
  .pure (some "refuse") fun accumulated next =>
    if 2 ≤ accumulated then
      .error <| .message <|
        "refusing to add " ++ (Scalar.int next).render ++ " to " ++
          (Scalar.int accumulated).render
    else
      .ok (accumulated + next)

/-- Subtraction that fails instead of wrapping around. -/
def checkedSubtract : Reducer .int :=
  .pure (some "checked_sub") Arithmetic.checkedSubtract

/-- Division that rounds toward zero. It fails if there is no quotient, or if it does not fit. -/
def checkedDivide : Reducer .int :=
  .pure (some "div") Arithmetic.checkedDivide

/-- Adds two values of a kind. Integers wrap around, and truth values are added modulo two. -/
def combine : {kind : Kind} → kind.Value → kind.Value → kind.Value
  | .int, accumulated, next => accumulated + next
  | .bool, accumulated, next => accumulated ^^ next

/-- Fails if the next value is the given one, and adds otherwise. -/
def failingOn {kind : Kind} (value : kind.Value) (failure : Failure) : Reducer kind :=
  .pure (some "fail_on") fun accumulated next =>
    if next = value then .error failure else .ok (combine accumulated next)

/-- The reducing function of a name, on the values of a kind. -/
def named? : (kind : Kind) → String → Option (Reducer kind)
  | .int, "refuse" => some refuse
  | .int, "checked_sub" => some checkedSubtract
  | .int, "div" => some checkedDivide
  | kind, name => (Operation.named? kind name).map ofOperation

end Reducer

end Deferred
