import Deferred.Evaluation.Combinators
import Deferred.Evaluation.Fold
import Deferred.Operation
import Deferred.Procedure

/-!
# Calculations

A `Calculation` is a graph of combinators over constants, variables, failing calculations and
calculations supplied from outside. Putting one together runs nothing, and nothing is kept from one
evaluation to the next: `Calculation.evaluate` always starts from the variables as they are.

A calculation that several others hold is the same calculation in each place. Everything that can
change is in the store, named by handles, so nothing tells a shared calculation from a copy of it.
-/

namespace Deferred

mutual

/-- A deferred computation of a value of the given kind. -/
inductive Calculation : Kind → Type where
  | constant {kind : Kind} (value : kind.Value) : Calculation kind
  | input {kind : Kind} (source : Variable kind) : Calculation kind
  | failing {kind : Kind} (failure : Failure) : Calculation kind
  | supplied {kind : Kind} (procedure : Procedure (Outcome kind.Value)) : Calculation kind
  /-- A calculation supplied from outside that does something first and then passes on the outcome
  of its operand. -/
  | preceded {kind : Kind} (procedure : Procedure Unit) (operand : Calculation kind) :
    Calculation kind
  | not (operand : Calculation .bool) : Calculation .bool
  | equals {operandKind : Kind} (lhs rhs : Calculation operandKind) : Calculation .bool
  | conditional {kind : Kind} (condition : Calculation .bool)
    (ifTrue ifFalse : Calculation kind) : Calculation kind
  | binary {kind : Kind} (operation : Operation kind) (lhs rhs : Calculation kind) :
    Calculation kind
  | signum (operand : Calculation .int) : Calculation .int
  | reduceLeft {kind : Kind} (reducer : Reducer kind) (initial : Calculation kind)
    (operands : Operands kind) : Calculation kind

/-- The operands of a fold, in order. -/
inductive Operands : Kind → Type where
  | nil {kind : Kind} : Operands kind
  | cons {kind : Kind} (operand : Calculation kind) (operands : Operands kind) : Operands kind

end

variable {kind : Kind}

mutual

/-- Runs a calculation against a store. -/
def Calculation.run : {kind : Kind} → Calculation kind → (tracing : Bool) → Store →
    Run kind.Value
  | _, .constant value, tracing, store => (Evaluation.pure value).run tracing store
  | _, .input source, tracing, store => (Evaluation.read source).run tracing store
  | _, .failing failure, tracing, store =>
    (Evaluation.raise .failing failure).run tracing store
  | _, .supplied procedure, tracing, store =>
    (procedure.perform >>= Evaluation.settle .supplied).run tracing store
  | _, .preceded procedure operand, tracing, store =>
    (procedure.perform >>= fun _ => ⟨operand.run⟩).run tracing store
  | _, .not operand, tracing, store => (Evaluation.negate ⟨operand.run⟩).run tracing store
  | _, .equals lhs rhs, tracing, store =>
    (Evaluation.equals ⟨lhs.run⟩ ⟨rhs.run⟩).run tracing store
  | _, .conditional condition ifTrue ifFalse, tracing, store =>
    (Evaluation.conditional ⟨condition.run⟩ ⟨ifTrue.run⟩ ⟨ifFalse.run⟩).run tracing store
  | _, .binary operation lhs rhs, tracing, store =>
    (Evaluation.binary operation.call ⟨lhs.run⟩ ⟨rhs.run⟩).run tracing store
  | _, .signum operand, tracing, store => (Evaluation.signum ⟨operand.run⟩).run tracing store
  | _, .reduceLeft reducer initial operands, tracing, store =>
    (Evaluation.reduceLeft reducer.call ⟨initial.run⟩ operands.evaluations).run tracing store

/-- The evaluations of operands, in order. -/
def Operands.evaluations : {kind : Kind} → Operands kind → List (Evaluation kind.Value)
  | _, .nil => []
  | _, .cons operand operands => ⟨operand.run⟩ :: operands.evaluations

end

namespace Operands

/-- The operands of a list, in order. -/
def ofList : List (Calculation kind) → Operands kind
  | [] => .nil
  | operand :: operands => .cons operand (ofList operands)

/-- The list of operands, in order. -/
def toList : Operands kind → List (Calculation kind)
  | .nil => []
  | .cons operand operands => operand :: operands.toList

/-- Puts an operand several times before others. -/
def consRepeat (count : Nat) (operand : Calculation kind) (operands : Operands kind) :
    Operands kind :=
  Nat.repeat (.cons operand) count operands

@[simp]
theorem toList_ofList (operands : List (Calculation kind)) :
    (ofList operands).toList = operands := by
  induction operands with
  | nil => rfl
  | cons operand operands ih => simp [ofList, toList, ih]

@[simp]
theorem toList_consRepeat (count : Nat) (operand : Calculation kind) (operands : Operands kind) :
    (consRepeat count operand operands).toList =
      List.replicate count operand ++ operands.toList := by
  induction count with
  | zero => rfl
  | succ count ih => simpa [consRepeat, Nat.repeat, toList, List.replicate_succ] using ih

end Operands

namespace Calculation

/-- What happens when a calculation is evaluated. -/
def evaluate (calculation : Calculation kind) : Evaluation kind.Value :=
  ⟨calculation.run⟩

/-- The difference of two integers, which wraps around. -/
def difference (lhs rhs : Calculation .int) : Calculation .int :=
  .binary .subtract lhs rhs

/-- The sum of all operands, which wraps around. It is zero if there are none. -/
def sum (operands : Operands .int) : Calculation .int :=
  .reduceLeft .add (.constant (0 : Int64)) operands

/-- The product of all operands, which wraps around. It is one if there are none. -/
def product (operands : Operands .int) : Calculation .int :=
  .reduceLeft .multiply (.constant (1 : Int64)) operands

/-- The sum of all operands, which fails instead of wrapping around. -/
def checkedSum (operands : Operands .int) : Calculation .int :=
  .reduceLeft .checkedAdd (.constant (0 : Int64)) operands

/-- The product of all operands, which fails instead of wrapping around. -/
def checkedProduct (operands : Operands .int) : Calculation .int :=
  .reduceLeft .checkedMultiply (.constant (1 : Int64)) operands

/-- Announces a label before the operand is run. -/
def labelled (label : String) (operand : Calculation kind) : Calculation kind :=
  .preceded (.announce label (.finish ())) operand

/-- Puts a value into a variable before the operand is run. -/
def setting {targetKind : Kind} (target : Variable targetKind) (value : targetKind.Value)
    (operand : Calculation kind) : Calculation kind :=
  .preceded (.write target value (.finish ())) operand

/-- The operands of a fold. Other calculations have none to show. -/
def operands? : Calculation kind → Option (Operands kind)
  | .reduceLeft _ _ operands => some operands
  | _ => none

@[simp]
theorem evaluate_constant (value : kind.Value) : (constant value).evaluate = pure value := rfl

@[simp]
theorem evaluate_input (source : Variable kind) :
    (input source).evaluate = Evaluation.read source := rfl

@[simp]
theorem evaluate_failing (failure : Failure) :
    (failing failure : Calculation kind).evaluate = Evaluation.raise .failing failure := rfl

theorem evaluate_supplied (procedure : Procedure (Outcome kind.Value)) :
    (supplied procedure).evaluate = procedure.perform >>= Evaluation.settle .supplied := rfl

theorem evaluate_preceded (procedure : Procedure Unit) (operand : Calculation kind) :
    (preceded procedure operand).evaluate = procedure.perform >>= fun _ => operand.evaluate := rfl

theorem evaluate_not (operand : Calculation .bool) :
    operand.not.evaluate = operand.evaluate.negate := rfl

theorem evaluate_equals (lhs rhs : Calculation kind) :
    (equals lhs rhs).evaluate = lhs.evaluate.equals rhs.evaluate := rfl

theorem evaluate_conditional (condition : Calculation .bool) (ifTrue ifFalse : Calculation kind) :
    (conditional condition ifTrue ifFalse).evaluate =
      condition.evaluate.conditional ifTrue.evaluate ifFalse.evaluate := rfl

theorem evaluate_binary (operation : Operation kind) (lhs rhs : Calculation kind) :
    (binary operation lhs rhs).evaluate =
      Evaluation.binary operation.call lhs.evaluate rhs.evaluate := rfl

theorem evaluate_signum (operand : Calculation .int) :
    operand.signum.evaluate = operand.evaluate.signum := rfl

end Calculation

/-- The evaluations of operands are those of their list. -/
theorem Operands.evaluations_eq : (operands : Operands kind) →
    operands.evaluations = operands.toList.map Calculation.evaluate
  | .nil => rfl
  | .cons operand operands => congrArg (operand.evaluate :: ·) operands.evaluations_eq

theorem Calculation.evaluate_reduceLeft (reducer : Reducer kind) (initial : Calculation kind)
    (operands : Operands kind) :
    (reduceLeft reducer initial operands).evaluate =
      Evaluation.reduceLeft reducer.call initial.evaluate
        (operands.toList.map Calculation.evaluate) := by
  rw [← operands.evaluations_eq]
  rfl

end Deferred
