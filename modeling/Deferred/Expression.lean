import Deferred.Operation.Catalogue
import Deferred.Scope

/-!
# Written calculations

An `Expression` is a calculation as it is written down: it refers to variables, to calculations and
to functions by name, and its kind follows from the place where it stands. `Expression.build` puts
the calculation together. Building runs nothing. It refuses an expression with an unknown name or
with a part of the wrong kind, and takes from the store the slots that new calculations count in.

An expression that is used several times is built once, and all uses share what was built.
-/

namespace Deferred

/-- A reducing function as it is written down. -/
inductive Reduction where
  | named (name : String)
  /-- The function that fails if the next value is the given one, and adds otherwise. -/
  | failingOn (value : Scalar) (failure : Failure)

/-- A calculation that is put around another one of the same kind. -/
inductive Layer where
  | handle
  | selected
  | signum
  | sum
  | product
  | checkedSum
  | checkedProduct
  | lessZero
  | twice
  | not
  | equalsTrue
  | equalsSelf

mutual

/-- A calculation as it is written down. -/
inductive Expression where
  | literal (value : Scalar)
  /-- Whatever has this name. -/
  | reference (name : String)
  | failing (failure : Failure)
  | conditional (condition ifTrue ifFalse : Expression)
  | binary (function : String) (lhs rhs : Expression)
  | reduceLeft (reduction : Reduction) (initial : Expression) (operands : Expressions)
  /-- A copy of a calculation. -/
  | copy (operand : Expression)
  /-- One more handle on a calculation. -/
  | handle (operand : Expression)
  /-- A calculation with the same layer put around it several times. -/
  | layered (count : Nat) (layer : Layer) (operand : Expression)
  /-- A calculation that announces a label first. -/
  | labelled (label : String) (operand : Expression)
  /-- A calculation from outside that gives one outcome after the other, and starts again. -/
  | script (label : String) (first : Outcome Scalar) (others : List (Outcome Scalar))
  /-- A calculation that puts a value into a variable first. -/
  | setting (target : String) (value : Scalar) (operand : Expression)
  | signum (operand : Expression)
  | difference (lhs rhs : Expression)
  | sum (operands : Expressions)
  | product (operands : Expressions)
  | checkedSum (operands : Expressions)
  | checkedProduct (operands : Expressions)
  | not (operand : Expression)
  /-- Whether two operands of the given kind have the same value. -/
  | equals (kind : Kind) (lhs rhs : Expression)

/-- The operands of a fold as they are written down. -/
inductive Expressions where
  | nil
  /-- One operand, standing there several times, before others. -/
  | cons (count : Nat) (operand : Expression) (operands : Expressions)

end

/-- Builds something from a store that provides slots, or refuses to. -/
abbrev Builder (α : Type) := StateT Store Option α

namespace Builder

variable {own kind : Kind}

/-- Puts a calculation into a place for one of the given kind. It is refused if its own kind is
another one. -/
def fit (kind : Kind) (calculation : Builder (Calculation own)) : Builder (Calculation kind) :=
  if same : own = kind then same ▸ calculation else failure

/-- A new slot. -/
def newSlot : Builder Slot :=
  modifyGet Store.createSlot

end Builder

/-- The reducing function that is meant, on the values of a kind. -/
def Reduction.resolve? (kind : Kind) : Reduction → Option (Reducer kind)
  | .named name => Reducer.named? kind name
  | .failingOn value failure => (value.value? kind).map fun value => .failingOn value failure

/-- Puts a layer around a calculation, if the layer serves for its kind. -/
def Layer.around? : (kind : Kind) → Layer → Option (Calculation kind → Calculation kind)
  | _, .handle => some id
  | _, .selected => some fun operand =>
    .conditional (.constant true) operand (.failing (.message "unselected"))
  | .int, .signum => some .signum
  | .int, .sum => some fun operand => .sum (.ofList [operand])
  | .int, .product => some fun operand => .product (.ofList [operand])
  | .int, .checkedSum => some fun operand => .checkedSum (.ofList [operand])
  | .int, .checkedProduct => some fun operand => .checkedProduct (.ofList [operand])
  | .int, .lessZero => some fun operand => .difference operand (.constant (0 : Int64))
  | .int, .twice => some fun operand => .sum (.ofList [operand, operand])
  | .bool, .not => some .not
  | .bool, .equalsTrue => some fun operand => .equals operand (.constant true)
  | .bool, .equalsSelf => some fun operand => .equals operand operand
  | _, _ => none

/-- Gives an outcome the kind of the place where it stands. -/
def Outcome.ofKind? (kind : Kind) : Outcome Scalar → Option (Outcome kind.Value)
  | .ok value => (value.value? kind).map .ok
  | .error failure => some (.error failure)

mutual

/-- Builds the calculation that an expression describes in a place for the given kind. -/
def Expression.build (scope : Scope) : Expression → (kind : Kind) → Builder (Calculation kind)
  | .literal value, kind => do
    let value ← value.value? kind
    return .constant value
  | .reference name, kind => do
    let binding ← scope.find? name
    binding.calculation? kind
  | .failing failure, _ => return .failing failure
  | .conditional condition ifTrue ifFalse, kind => do
    let condition ← condition.build scope .bool
    let ifTrue ← ifTrue.build scope kind
    let ifFalse ← ifFalse.build scope kind
    return .conditional condition ifTrue ifFalse
  | .binary function lhs rhs, kind => do
    let operation ← Operation.named? kind function
    let lhs ← lhs.build scope kind
    let rhs ← rhs.build scope kind
    return .binary operation lhs rhs
  | .reduceLeft reduction initial operands, kind => do
    let reducer ← reduction.resolve? kind
    let initial ← initial.build scope kind
    let operands ← operands.build scope kind
    return .reduceLeft reducer initial operands
  | .copy operand, kind => operand.build scope kind
  | .handle operand, kind => operand.build scope kind
  | .layered 0 _ operand, kind => operand.build scope kind
  | .layered (count + 1) layer operand, kind => do
    let around ← layer.around? kind
    let operand ← operand.build scope kind
    return Nat.repeat around (count + 1) operand
  | .labelled label operand, kind => do
    let operand ← operand.build scope kind
    return .labelled label operand
  | .script label first others, kind => do
    let first ← first.ofKind? kind
    let others ← (others.mapM (Outcome.ofKind? kind) : Option (List (Outcome kind.Value)))
    let slot ← Builder.newSlot
    return .supplied (.script label slot first others)
  | .setting target value operand, kind => do
    let some (.cell target) := scope.find? target | failure
    let value ← value.value? _
    let operand ← operand.build scope kind
    return .setting target value operand
  | .signum operand, kind => .fit kind do
    let operand ← operand.build scope .int
    return .signum operand
  | .difference lhs rhs, kind => .fit kind do
    let lhs ← lhs.build scope .int
    let rhs ← rhs.build scope .int
    return .difference lhs rhs
  | .sum operands, kind => .fit kind do
    let operands ← operands.build scope .int
    return .sum operands
  | .product operands, kind => .fit kind do
    let operands ← operands.build scope .int
    return .product operands
  | .checkedSum operands, kind => .fit kind do
    let operands ← operands.build scope .int
    return .checkedSum operands
  | .checkedProduct operands, kind => .fit kind do
    let operands ← operands.build scope .int
    return .checkedProduct operands
  | .not operand, kind => .fit kind do
    let operand ← operand.build scope .bool
    return .not operand
  | .equals operandKind lhs rhs, kind => .fit kind do
    let lhs ← lhs.build scope operandKind
    let rhs ← rhs.build scope operandKind
    return .equals lhs rhs

/-- Builds the operands that are written down for a place of the given kind. -/
def Expressions.build (scope : Scope) : Expressions → (kind : Kind) → Builder (Operands kind)
  | .nil, _ => return .nil
  | .cons count operand operands, kind => do
    let operand ← operand.build scope kind
    let operands ← operands.build scope kind
    return .consRepeat count operand operands

end

/-- Whether the calculation shows its operands. Folds do so, except for plain sums and products,
and so do copies of them and what refers to them. -/
def Expression.showsOperands (scope : Scope) : Expression → Bool
  | .reduceLeft _ _ _ => true
  | .checkedSum _ => true
  | .checkedProduct _ => true
  | .copy operand => operand.showsOperands scope
  | .reference name => (scope.find? name).any Binding.showsOperands
  | _ => false

end Deferred
