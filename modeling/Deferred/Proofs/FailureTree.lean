import Deferred.Failure

/-!
# The tree of a failure

A failure is a tree: aggregates are its inner nodes, and all other failures are its leaves. This
file lists the leaves from left to right, each with the number of aggregates around it, and the
numbers of causes of the aggregates, those of the causes before those of the whole.
-/

namespace Deferred

/-- A failure, and the number of aggregates around it. -/
structure Nested where
  depth : Nat
  failure : Failure

namespace Nested

/-- The same failure seen from further above. -/
def beneath (layers : Nat) (nested : Nested) : Nested :=
  ⟨layers + nested.depth, nested.failure⟩

@[simp]
theorem failure_beneath (layers : Nat) (nested : Nested) :
    (nested.beneath layers).failure = nested.failure := rfl

@[simp]
theorem depth_beneath (layers : Nat) (nested : Nested) :
    (nested.beneath layers).depth = layers + nested.depth := rfl

@[simp]
theorem beneath_zero : beneath 0 = id := by
  funext nested
  simp [beneath]

theorem beneath_comp_beneath (outer inner : Nat) :
    beneath outer ∘ beneath inner = beneath (outer + inner) := by
  funext nested
  simp [beneath, Nat.add_assoc]

end Nested

namespace Failure

mutual

/-- The leaves of a failure from left to right, each with the number of aggregates around it. -/
def leaves : Failure → List Nested
  | .aggregate causes => (leavesOfAll causes).map (.beneath 1)
  | .message text => [⟨0, .message text⟩]
  | .external text => [⟨0, .external text⟩]
  | .overflow operation => [⟨0, .overflow operation⟩]

/-- The leaves of several failures, in order. -/
def leavesOfAll : List Failure → List Nested
  | [] => []
  | failure :: rest => failure.leaves ++ leavesOfAll rest

end

mutual

/-- The numbers of causes of the aggregates in a failure: first those in the causes, in order, and
then that of the failure itself. -/
def aggregateSizes : Failure → List Nat
  | .aggregate causes => aggregateSizesOfAll causes ++ [causes.length]
  | .message _ => []
  | .external _ => []
  | .overflow _ => []

/-- The numbers of causes of the aggregates in several failures, in order. -/
def aggregateSizesOfAll : List Failure → List Nat
  | [] => []
  | failure :: rest => failure.aggregateSizes ++ aggregateSizesOfAll rest

end

theorem leavesOfAll_eq_flatMap (failures : List Failure) :
    leavesOfAll failures = failures.flatMap leaves := by
  induction failures with
  | nil => rfl
  | cons failure rest ih => simp [leavesOfAll, ih]

theorem aggregateSizesOfAll_eq_flatMap (failures : List Failure) :
    aggregateSizesOfAll failures = failures.flatMap aggregateSizes := by
  induction failures with
  | nil => rfl
  | cons failure rest ih => simp [aggregateSizesOfAll, ih]

theorem leaves_aggregate (causes : List Failure) :
    (aggregate causes).leaves = (causes.flatMap leaves).map (.beneath 1) := by
  rw [leaves, leavesOfAll_eq_flatMap]

theorem aggregateSizes_aggregate (causes : List Failure) :
    (aggregate causes).aggregateSizes = causes.flatMap aggregateSizes ++ [causes.length] := by
  rw [aggregateSizes, aggregateSizesOfAll_eq_flatMap]

theorem leaves_of_not_isAggregate {failure : Failure} (single : failure.isAggregate = false) :
    failure.leaves = [⟨0, failure⟩] := by
  cases failure with
  | message text => rfl
  | external text => rfl
  | overflow operation => rfl
  | aggregate causes => cases single

theorem aggregateSizes_of_not_isAggregate {failure : Failure}
    (single : failure.isAggregate = false) : failure.aggregateSizes = [] := by
  cases failure with
  | message text => rfl
  | external text => rfl
  | overflow operation => rfl
  | aggregate causes => simp [isAggregate, causes?] at single

end Failure

end Deferred
