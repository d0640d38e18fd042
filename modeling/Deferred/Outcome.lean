import Deferred.Failure

/-!
# Outcomes

The outcome of a calculation is a value or a failure. Combinators that run all their operands sort
the outcomes into failures and values, each in the order of the operands.
-/

namespace Deferred

variable {α : Type}

/-- A value, or the reason why there is none. -/
abbrev Outcome (α : Type) := Except Failure α

namespace Outcome

/-- The failure, if there is one. -/
def failure? : Outcome α → Option Failure
  | .ok _ => none
  | .error failure => some failure

/-- The value, if there is one. -/
def value? : Outcome α → Option α
  | .ok value => some value
  | .error _ => none

/-- The failures among several outcomes, in order. -/
def failures (outcomes : List (Outcome α)) : List Failure :=
  outcomes.filterMap failure?

/-- The values among several outcomes, in order. -/
def values (outcomes : List (Outcome α)) : List α :=
  outcomes.filterMap value?

@[simp]
theorem failure?_ok (value : α) : failure? (.ok value) = none := rfl

@[simp]
theorem failure?_error (failure : Failure) :
    failure? (.error failure : Outcome α) = some failure := rfl

@[simp]
theorem value?_ok (value : α) : value? (.ok value) = some value := rfl

@[simp]
theorem value?_error (failure : Failure) : value? (.error failure : Outcome α) = none := rfl

@[simp]
theorem failures_nil : failures ([] : List (Outcome α)) = [] := rfl

@[simp]
theorem failures_ok_cons (value : α) (outcomes : List (Outcome α)) :
    failures (.ok value :: outcomes) = failures outcomes := rfl

@[simp]
theorem failures_error_cons (failure : Failure) (outcomes : List (Outcome α)) :
    failures (.error failure :: outcomes) = failure :: failures outcomes := rfl

@[simp]
theorem failures_append (first second : List (Outcome α)) :
    failures (first ++ second) = failures first ++ failures second := by
  simp [failures]

@[simp]
theorem values_nil : values ([] : List (Outcome α)) = [] := rfl

@[simp]
theorem values_ok_cons (value : α) (outcomes : List (Outcome α)) :
    values (.ok value :: outcomes) = value :: values outcomes := rfl

@[simp]
theorem values_error_cons (failure : Failure) (outcomes : List (Outcome α)) :
    values (.error failure :: outcomes) = values outcomes := rfl

/-- Nothing failed exactly if every outcome is a value. -/
theorem failures_eq_nil_iff {outcomes : List (Outcome α)} :
    failures outcomes = [] ↔ outcomes = (values outcomes).map .ok := by
  induction outcomes with
  | nil => simp
  | cons outcome outcomes ih =>
      cases outcome with
      | ok value => simp [ih]
      | error failure =>
          simp only [failures_error_cons, values_error_cons, reduceCtorEq, false_iff]
          cases values outcomes <;> simp

end Outcome

end Deferred
