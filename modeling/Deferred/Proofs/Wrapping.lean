import Mathlib.Data.Int.ModEq
import Deferred.Proofs.Steady

/-!
# Graphs that wrap around

A `Term` is an integer expression with sums and products of any number of operands, and with binary
functions that add, subtract or multiply. It has an exact value, which knows no bounds, and it
describes a graph in which every operation wraps around. However deep the graph is, and wherever its
intermediate results wrap around, its value is the exact value reduced to the range of 64-bit
integers: reduction goes through every operation, so it is enough to reduce at the end.
-/

namespace Deferred

/-- The operations of a ring. -/
inductive RingOperation where
  | add
  | subtract
  | multiply
deriving DecidableEq, Repr

namespace RingOperation

/-- The exact result. -/
def exact : RingOperation → Int → Int → Int
  | .add, lhs, rhs => lhs + rhs
  | .subtract, lhs, rhs => lhs - rhs
  | .multiply, lhs, rhs => lhs * rhs

/-- The result that wraps around. -/
def wrapping : RingOperation → Int64 → Int64 → Int64
  | .add, lhs, rhs => lhs + rhs
  | .subtract, lhs, rhs => lhs - rhs
  | .multiply, lhs, rhs => lhs * rhs

/-- Reduction to 64 bits goes through the operations. -/
theorem wrapping_ofInt (operation : RingOperation) (lhs rhs : Int) :
    operation.wrapping (.ofInt lhs) (.ofInt rhs) = .ofInt (operation.exact lhs rhs) := by
  cases operation with
  | add => exact (Int64.ofInt_add lhs rhs).symm
  | subtract => exact (Int64.ofInt_sub lhs rhs).symm
  | multiply => exact (Int64.ofInt_mul lhs rhs).symm

end RingOperation

/-- The folds of integers that come without a reducing function from outside. -/
inductive Folding where
  | sum
  | product
deriving DecidableEq, Repr

namespace Folding

/-- What there is before the first operand. -/
def start : Folding → Int64
  | .sum => 0
  | .product => 1

/-- What a step does. -/
def operation : Folding → RingOperation
  | .sum => .add
  | .product => .multiply

/-- What exact steps come to. -/
def total (folding : Folding) (values : List Int) : Int :=
  values.foldl folding.operation.exact folding.start.toInt

/-- The fold that wraps around. -/
def wrapping : Folding → Operands .int → Calculation .int
  | .sum, operands => .sum operands
  | .product, operands => .product operands

theorem wrapping_eq (folding : Folding) (operands : Operands .int) :
    folding.wrapping operands =
      .reduceLeft
        (.pure none fun accumulated next => .ok (folding.operation.wrapping accumulated next))
        (.constant folding.start) operands := by
  cases folding <;> rfl

end Folding

/-- An integer expression. -/
inductive Term where
  | constant (value : Int64)
  | input (source : Variable .int)
  | fold (folding : Folding) (operands : List Term)
  /-- A binary function, which may have a name. -/
  | binary (name : Option String) (operation : RingOperation) (lhs rhs : Term)

namespace Term

/-- The difference of two terms. -/
def difference (lhs rhs : Term) : Term :=
  .binary none .subtract lhs rhs

mutual

/-- The value of a term in integers without bounds. -/
def exact (store : Store) : Term → Int
  | .constant value => value.toInt
  | .input source => (store.read source).toInt
  | .fold folding operands => folding.total (exactAll store operands)
  | .binary _ operation lhs rhs => operation.exact (lhs.exact store) (rhs.exact store)

/-- The values of several terms in integers without bounds. -/
def exactAll (store : Store) : List Term → List Int
  | [] => []
  | term :: rest => term.exact store :: exactAll store rest

end

mutual

/-- The graph of a term, in which every operation wraps around. -/
def wrapping : Term → Calculation .int
  | .constant value => .constant value
  | .input source => .input source
  | .fold folding operands => folding.wrapping (.ofList (wrappingAll operands))
  | .binary name operation lhs rhs =>
    .binary (.pure name operation.wrapping) lhs.wrapping rhs.wrapping

/-- The graphs of several terms. -/
def wrappingAll : List Term → List (Calculation .int)
  | [] => []
  | term :: rest => term.wrapping :: wrappingAll rest

end

@[simp]
theorem exactAll_eq_map (store : Store) (terms : List Term) :
    exactAll store terms = terms.map (exact store) := by
  induction terms with
  | nil => rfl
  | cons term rest ih => simp [exactAll, ih]

@[simp]
theorem wrappingAll_eq_map (terms : List Term) : wrappingAll terms = terms.map wrapping := by
  induction terms with
  | nil => rfl
  | cons term rest ih => simp [wrappingAll, ih]

/-- The graph of a difference is the difference of the graphs. -/
theorem wrapping_difference (lhs rhs : Term) :
    (lhs.difference rhs).wrapping = .difference lhs.wrapping rhs.wrapping := rfl

/-- What holds of a term if it holds of its operands holds of every term. -/
@[elab_as_elim]
theorem induction {motive : Term → Prop} (constant : ∀ value, motive (.constant value))
    (input : ∀ source, motive (.input source))
    (fold : ∀ folding operands, (∀ operand ∈ operands, motive operand) →
      motive (.fold folding operands))
    (binary : ∀ name operation lhs rhs, motive lhs → motive rhs →
      motive (.binary name operation lhs rhs)) :
    (term : Term) → motive term
  | .constant value => constant value
  | .input source => input source
  | .fold folding operands =>
      fold folding operands fun operand _ => induction constant input fold binary operand
  | .binary name operation lhs rhs =>
      binary name operation lhs rhs (induction constant input fold binary lhs)
        (induction constant input fold binary rhs)

end Term

/-! ## Reduction at the end is enough -/

section

variable {tracing : Bool} {store : Store}

/-- Reducing after every step comes to the same as reducing at the end. -/
theorem RingOperation.foldl_wrapping (operation : RingOperation) (accumulated : Int)
    (values : List Int) :
    (values.map Int64.ofInt).foldl operation.wrapping (.ofInt accumulated) =
      .ofInt (values.foldl operation.exact accumulated) := by
  induction values generalizing accumulated with
  | nil => rfl
  | cons next rest ih => simp [operation.wrapping_ofInt, ih]

/-- A fold that wraps around reduces the exact total, if its operands reduce exact values. -/
theorem Folding.gives_wrapping {ι : Type} (folding : Folding) {items : List ι}
    {operand : ι → Calculation .int} {value : ι → Int}
    (each : ∀ item ∈ items,
      (operand item).evaluate.Gives tracing store (.ok (.ofInt (value item)))) :
    (folding.wrapping (.ofList (items.map operand))).evaluate.Gives tracing store
      (.ok (.ofInt (folding.total (items.map value)))) := by
  have folded := Reducer.gives_reduceLeft_pure none
    (fun accumulated next => .ok (folding.operation.wrapping accumulated next))
    (Evaluation.gives_pure folding.start) each
  have values : items.map (fun item => (.ok (.ofInt (value item)) : Outcome Int64)) =
      ((items.map value).map Int64.ofInt).map .ok := by
    simp
  have steps : ((items.map value).map Int64.ofInt).foldlM
      (fun accumulated next => (.ok (folding.operation.wrapping accumulated next) : Outcome Int64))
      folding.start = .ok (.ofInt (folding.total (items.map value))) := by
    rw [total, ← RingOperation.foldl_wrapping, Int64.ofInt_toInt]
    exact List.foldlM_pure
  rw [wrapping_eq, Calculation.evaluate_reduceLeft, Operands.toList_ofList, List.map_map]
  rw [values, Outcome.collected_map_ok] at folded
  exact steps ▸ folded

/-- A graph that wraps around comes to the reduced exact value. -/
theorem Term.gives_wrapping (term : Term) :
    term.wrapping.evaluate.Gives tracing store (.ok (.ofInt (term.exact store))) := by
  induction term using Term.induction with
  | constant value =>
      rw [exact, Int64.ofInt_toInt]
      exact Evaluation.gives_pure value
  | input source =>
      rw [exact, Int64.ofInt_toInt]
      exact Evaluation.gives_read source
  | fold folding operands ih =>
      rw [wrapping, exact, wrappingAll_eq_map, exactAll_eq_map]
      exact folding.gives_wrapping ih
  | binary name operation lhs rhs ihLeft ihRight =>
      rw [wrapping, exact, Calculation.evaluate_binary, ← operation.wrapping_ofInt]
      exact ihLeft.binary ihRight (Operation.gives_call_pure name operation.wrapping)

end

theorem Arithmetic.toInt_ofInt_modEq (exact : Int) :
    (Int64.ofInt exact).toInt ≡ exact [ZMOD 2 ^ 64] := by
  rw [Int64.toInt_ofInt]
  exact Int.bmod_emod

/-- Numbers in the range of 64-bit integers are equal if they leave the same remainder. -/
theorem Arithmetic.eq_of_modEq {first second : Int} (firstFits : -2 ^ 63 ≤ first ∧ first < 2 ^ 63)
    (secondFits : -2 ^ 63 ≤ second ∧ second < 2 ^ 63)
    (congruent : first ≡ second [ZMOD 2 ^ 64]) : first = second := by
  unfold Int.ModEq at congruent
  omega

/-- A graph that wraps around never fails. Its value is the only number in the range of 64-bit
integers that is congruent to the exact value modulo `2 ^ 64`. -/
theorem Term.wrapping_reduces_exact (term : Term) (tracing : Bool) (store : Store) :
    ∃ value : Int64, (term.wrapping.evaluate.run tracing store).outcome = .ok value ∧
      (-2 ^ 63 ≤ value.toInt ∧ value.toInt < 2 ^ 63) ∧
      value.toInt ≡ term.exact store [ZMOD 2 ^ 64] ∧
      ∀ other : Int, -2 ^ 63 ≤ other ∧ other < 2 ^ 63 →
        other ≡ term.exact store [ZMOD 2 ^ 64] → other = value.toInt := by
  have fits : -2 ^ 63 ≤ (Int64.ofInt (term.exact store)).toInt ∧
      (Int64.ofInt (term.exact store)).toInt < 2 ^ 63 :=
    ⟨Int64.le_toInt _, Int64.toInt_lt _⟩
  have congruent := Arithmetic.toInt_ofInt_modEq (term.exact store)
  refine ⟨.ofInt (term.exact store), term.gives_wrapping.outcome_eq, fits, congruent, ?_⟩
  intro other otherFits same
  exact Arithmetic.eq_of_modEq otherFits fits (same.trans congruent.symm)

/-- The least integer is its own negation. -/
example :
    ((Term.fold .product [.constant .minValue, .constant (-1)]).wrapping.evaluate.run true
      .empty).outcome = .ok .minValue := rfl

end Deferred
