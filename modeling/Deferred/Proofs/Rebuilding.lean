import Deferred.Calculation

/-!
# Rebuilding a graph

A graph is rebuilt from its leaves up. At each position, a `Placement` says what is put there. It is
given the calculation that stood there, and the same calculation with what has been put into its
parts, so that it may put something in front of a calculation, put something else in its place, or
leave it where it is.

A position is the path of part numbers that leads to it. The operands of a fold start with the part
after its initial value.
-/

namespace Deferred

variable {kind : Kind}

/-- What is put at each position of a graph. -/
abbrev Placement :=
  List Nat → (kind : Kind) → (own rebuilt : Calculation kind) → Calculation kind

namespace Placement

/-- Leaves everything where it is. -/
def nothing : Placement :=
  fun _ _ _ rebuilt => rebuilt

/-- What is put at the positions of one of the parts. -/
def part (placement : Placement) (index : Nat) : Placement :=
  fun position => placement (index :: position)

@[simp]
theorem nothing_apply (position : List Nat) (own rebuilt : Calculation kind) :
    nothing position kind own rebuilt = rebuilt := rfl

@[simp]
theorem part_nothing (index : Nat) : nothing.part index = nothing := rfl

end Placement

mutual

/-- Puts what a placement says at each position of a graph. -/
def Calculation.rebuilt : {kind : Kind} → Placement → Calculation kind → Calculation kind
  | kind, placement, .constant value => placement [] kind (.constant value) (.constant value)
  | kind, placement, .input source => placement [] kind (.input source) (.input source)
  | kind, placement, .failing failure => placement [] kind (.failing failure) (.failing failure)
  | kind, placement, .supplied procedure =>
    placement [] kind (.supplied procedure) (.supplied procedure)
  | kind, placement, .preceded procedure operand =>
    placement [] kind (.preceded procedure operand) <|
      .preceded procedure (operand.rebuilt (placement.part 0))
  | _, placement, .not operand =>
    placement [] .bool (.not operand) (.not (operand.rebuilt (placement.part 0)))
  | _, placement, .equals lhs rhs =>
    placement [] .bool (.equals lhs rhs) <|
      .equals (lhs.rebuilt (placement.part 0)) (rhs.rebuilt (placement.part 1))
  | kind, placement, .conditional condition ifTrue ifFalse =>
    placement [] kind (.conditional condition ifTrue ifFalse) <|
      .conditional (condition.rebuilt (placement.part 0)) (ifTrue.rebuilt (placement.part 1))
        (ifFalse.rebuilt (placement.part 2))
  | kind, placement, .binary operation lhs rhs =>
    placement [] kind (.binary operation lhs rhs) <|
      .binary operation (lhs.rebuilt (placement.part 0)) (rhs.rebuilt (placement.part 1))
  | _, placement, .signum operand =>
    placement [] .int (.signum operand) (.signum (operand.rebuilt (placement.part 0)))
  | kind, placement, .reduceLeft reducer initial operands =>
    placement [] kind (.reduceLeft reducer initial operands) <|
      .reduceLeft reducer (initial.rebuilt (placement.part 0)) (operands.rebuilt placement 1)

/-- Puts what a placement says at each position of operands, of which the first is the part with the
given number. -/
def Operands.rebuilt : {kind : Kind} → Placement → (index : Nat) → Operands kind → Operands kind
  | _, _, _, .nil => .nil
  | _, placement, index, .cons operand operands =>
    .cons (operand.rebuilt (placement.part index)) (operands.rebuilt placement (index + 1))

end

@[simp]
theorem Operands.length_toList_rebuilt (placement : Placement) :
    (operands : Operands kind) → (index : Nat) →
    (operands.rebuilt placement index).toList.length = operands.toList.length
  | .nil, _ => rfl
  | .cons _ operands, index => by
      simp [rebuilt, toList, operands.length_toList_rebuilt placement (index + 1)]

mutual

theorem Calculation.rebuilt_nothing : {kind : Kind} → (calculation : Calculation kind) →
    calculation.rebuilt .nothing = calculation
  | _, .constant _ => rfl
  | _, .input _ => rfl
  | _, .failing _ => rfl
  | _, .supplied _ => rfl
  | _, .preceded _ operand => by simp [Calculation.rebuilt, operand.rebuilt_nothing]
  | _, .not operand => by simp [Calculation.rebuilt, operand.rebuilt_nothing]
  | _, .signum operand => by simp [Calculation.rebuilt, operand.rebuilt_nothing]
  | _, .equals lhs rhs => by simp [Calculation.rebuilt, lhs.rebuilt_nothing, rhs.rebuilt_nothing]
  | _, .conditional condition ifTrue ifFalse => by
      simp [Calculation.rebuilt, condition.rebuilt_nothing, ifTrue.rebuilt_nothing,
        ifFalse.rebuilt_nothing]
  | _, .binary _ lhs rhs => by simp [Calculation.rebuilt, lhs.rebuilt_nothing, rhs.rebuilt_nothing]
  | _, .reduceLeft _ initial operands => by
      simp [Calculation.rebuilt, initial.rebuilt_nothing, operands.rebuilt_nothing]

theorem Operands.rebuilt_nothing : {kind : Kind} → (operands : Operands kind) → (index : Nat) →
    operands.rebuilt .nothing index = operands
  | _, .nil, _ => rfl
  | _, .cons operand operands, index => by
      simp [Operands.rebuilt, operand.rebuilt_nothing, operands.rebuilt_nothing]

end

end Deferred
