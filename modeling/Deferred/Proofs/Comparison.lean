import Deferred.Proofs.Reordering
import Deferred.Proofs.Repetition
import Deferred.Proofs.Splitting

/-!
# Comparison by the sign of a difference

The sign of a difference says which one of two integers is larger, as long as the difference does
not wrap around. If it does, it is off by one turn of the range. A difference of two integers in the
range exceeds it by less than the range is wide, so that the difference that is left lies on the
other side of zero. Its sign is then the opposite one, but never zero: whether two integers are
equal can always be seen from their difference.

A graph that selects the larger one of two integers in this way thus selects the smaller one if the
exact difference does not fit.
-/

namespace Deferred

namespace Arithmetic

theorem toInt_sign (value : Int64) : (sign value).toInt = value.toInt.sign := by
  have zero : (0 : Int64).toInt = 0 := rfl
  unfold sign
  split
  · next negative =>
    rw [Int64.lt_iff_toInt_lt, zero] at negative
    exact (Int.sign_eq_neg_one_of_neg negative).symm
  · next notNegative =>
    rw [Int64.lt_iff_toInt_lt, zero] at notNegative
    split
    · next isZero =>
      rw [isZero]
      rfl
    · next nonzero =>
      rw [← Int64.toInt_inj, zero] at nonzero
      exact (Int.sign_eq_one_of_pos (by omega)).symm

/-- The sign of a difference after it has been reduced to 64 bits, seen from the exact one. -/
def reducedSign (exact : Int) : Int :=
  if Fits exact then exact.sign else -exact.sign

section

variable (lhs rhs : Int64)

theorem toInt_sub_of_fits {lhs rhs : Int64} (fits : Fits (lhs.toInt - rhs.toInt)) :
    (lhs - rhs).toInt = lhs.toInt - rhs.toInt := by
  rw [fits_iff] at fits
  rw [Int64.toInt_sub, Int.bmod_def]
  omega

theorem sign_toInt_sub_of_not_fits {lhs rhs : Int64} (unfit : ¬Fits (lhs.toInt - rhs.toInt)) :
    (lhs - rhs).toInt.sign = -(lhs.toInt - rhs.toInt).sign := by
  have leftFits := fits_iff.mp (fits_toInt lhs)
  have rightFits := fits_iff.mp (fits_toInt rhs)
  rw [fits_iff] at unfit
  rw [Int64.toInt_sub, Int.bmod_def]
  rcases lt_or_gt_of_ne (show lhs.toInt - rhs.toInt ≠ 0 by omega) with below | above
  · rw [Int.sign_eq_neg_one_of_neg below, Int.sign_eq_one_of_pos (by omega)]
    rfl
  · rw [Int.sign_eq_one_of_pos above, Int.sign_eq_neg_one_of_neg (by omega)]

theorem toInt_sign_sub : (sign (lhs - rhs)).toInt = reducedSign (lhs.toInt - rhs.toInt) := by
  rw [toInt_sign, reducedSign]
  split
  · next fits => rw [toInt_sub_of_fits fits]
  · next unfit => exact sign_toInt_sub_of_not_fits unfit

theorem reducedSign_eq_zero_iff (exact : Int) : reducedSign exact = 0 ↔ exact = 0 := by
  unfold reducedSign
  split <;> simp

theorem sign_sub_eq_zero_iff : sign (lhs - rhs) = 0 ↔ lhs = rhs := by
  have zero : (0 : Int64).toInt = 0 := rfl
  rw [← Int64.toInt_inj, toInt_sign_sub, zero, reducedSign_eq_zero_iff, Int.sub_eq_zero,
    Int64.toInt_inj]

theorem sign_eq_zero_iff (value : Int64) : sign value = 0 ↔ value = 0 := by
  have zero : (0 : Int64).toInt = 0 := rfl
  rw [← Int64.toInt_inj, toInt_sign, zero, Int.sign_eq_zero_iff_zero, ← zero, Int64.toInt_inj]

theorem sub_eq_zero_iff : lhs - rhs = 0 ↔ lhs = rhs := by
  rw [← sign_eq_zero_iff, sign_sub_eq_zero_iff]

theorem sign_sub_eq_neg_one_iff :
    sign (lhs - rhs) = -1 ↔
      if Fits (lhs.toInt - rhs.toInt) then lhs.toInt < rhs.toInt else rhs.toInt < lhs.toInt := by
  have minusOne : (-1 : Int64).toInt = -1 := rfl
  rw [← Int64.toInt_inj, toInt_sign_sub, minusOne, reducedSign]
  split
  · rw [Int.sign_eq_neg_one_iff_neg]
    omega
  · rw [Int.neg_inj, Int.sign_eq_one_iff_pos]
    omega

/-- What is selected by the sign of a difference. -/
theorem selected_by_sign :
    (if sign (lhs - rhs) = -1 then rhs else lhs) =
      if Fits (lhs.toInt - rhs.toInt) then max lhs rhs else min lhs rhs := by
  have larger : max lhs rhs = if lhs ≤ rhs then rhs else lhs := rfl
  have smaller : min lhs rhs = if lhs ≤ rhs then lhs else rhs := rfl
  rw [larger, smaller]
  simp only [sign_sub_eq_neg_one_iff, Int64.le_iff_toInt_le]
  apply Int64.toInt_inj.mp
  split <;> split <;> split <;> omega

end

end Arithmetic

namespace Evaluation.Gives

variable {α : Type} {tracing : Bool} {store : Store}

theorem signum {operand : Evaluation Int64} {value : Int64}
    (gives : operand.Gives tracing store (.ok value)) :
    operand.signum.Gives tracing store (.ok (Arithmetic.sign value)) :=
  (gives.reportingFailure _).map _

theorem equals [DecidableEq α] {lhs rhs : Evaluation α} {left right : α}
    (leftGives : lhs.Gives tracing store (.ok left))
    (rightGives : rhs.Gives tracing store (.ok right)) :
    (lhs.equals rhs).Gives tracing store (.ok (decide (left = right))) :=
  (leftGives.both rightGives).map _

theorem conditional {condition : Evaluation Bool} {ifTrue ifFalse : Evaluation α} {selected : Bool}
    {whenTrue whenFalse : α} (conditionGives : condition.Gives tracing store (.ok selected))
    (trueGives : ifTrue.Gives tracing store (.ok whenTrue))
    (falseGives : ifFalse.Gives tracing store (.ok whenFalse)) :
    (condition.conditional ifTrue ifFalse).Gives tracing store
      (.ok (if selected then whenTrue else whenFalse)) := by
  apply (conditionGives.reportingFailure _).bind
  intro value isSelected
  cases isSelected
  cases selected with
  | true => exact trueGives
  | false => exact falseGives

end Evaluation.Gives

namespace Calculation

/-- Selects one of two operands by the sign of their difference, which is meant to be the larger
one. -/
def larger (lhs rhs : Calculation .int) : Calculation .int :=
  .conditional (.equals (difference lhs rhs).signum (.constant (-1 : Int64))) rhs lhs

/-- What the difference of two operands shows about their values. -/
structure DifferenceShows (tracing : Bool) (store : Store) (lhs rhs : Calculation .int)
    (left right : Int64) : Prop where
  signum : ∃ sign : Int64, (difference lhs rhs).signum.outcome tracing store = .ok sign ∧
    sign.toInt = Arithmetic.reducedSign (left.toInt - right.toInt) ∧ (sign = 0 ↔ left = right)
  equals : (equals (difference lhs rhs) (.constant (0 : Int64))).outcome tracing store =
      (equals lhs rhs).outcome tracing store ∧
    (equals lhs rhs).outcome tracing store = .ok (decide (left = right))
  larger : (larger lhs rhs).outcome tracing store =
    .ok (if Arithmetic.Fits (left.toInt - right.toInt) then max left right else min left right)

section

variable {tracing : Bool} {store : Store} {lhs rhs : Calculation .int} {left right : Int64}

theorem gives_constant (value : Int64) :
    (constant value : Calculation .int).evaluate.Gives tracing store (.ok value) :=
  Evaluation.gives_pure value

theorem gives_difference (leftGives : lhs.evaluate.Gives tracing store (.ok left))
    (rightGives : rhs.evaluate.Gives tracing store (.ok right)) :
    (difference lhs rhs).evaluate.Gives tracing store (.ok (left - right)) := by
  have subtracts (first second : Int64) :
      (Operation.subtract.call first second).Gives tracing store (.ok (first - second)) :=
    Operation.gives_call_pure _ _ _ _
  exact leftGives.binary rightGives subtracts

theorem gives_equals (leftGives : lhs.evaluate.Gives tracing store (.ok left))
    (rightGives : rhs.evaluate.Gives tracing store (.ok right)) :
    (equals lhs rhs).evaluate.Gives tracing store (.ok (decide (left = right))) :=
  leftGives.equals rightGives

theorem gives_larger (leftGives : lhs.evaluate.Gives tracing store (.ok left))
    (rightGives : rhs.evaluate.Gives tracing store (.ok right)) :
    (larger lhs rhs).evaluate.Gives tracing store
      (.ok (if Arithmetic.Fits (left.toInt - right.toInt) then max left right
        else min left right)) := by
  have sign : (difference lhs rhs).signum.evaluate.Gives tracing store
      (.ok (Arithmetic.sign (left - right))) := (gives_difference leftGives rightGives).signum
  have isNegative := gives_equals sign (gives_constant (-1))
  have selected := isNegative.conditional rightGives leftGives
  simp only [decide_eq_true_eq] at selected
  rw [← Arithmetic.selected_by_sign]
  exact selected

theorem differenceShows (leftGives : lhs.evaluate.Gives tracing store (.ok left))
    (rightGives : rhs.evaluate.Gives tracing store (.ok right)) :
    DifferenceShows tracing store lhs rhs left right := by
  have subtracted := gives_difference leftGives rightGives
  have compared := gives_equals leftGives rightGives
  have isZero := gives_equals subtracted (gives_constant 0)
  constructor
  · exact ⟨_, subtracted.signum.outcome_eq, Arithmetic.toInt_sign_sub left right,
      Arithmetic.sign_sub_eq_zero_iff left right⟩
  · simp only [Arithmetic.sub_eq_zero_iff] at isZero
    exact ⟨isZero.outcome_eq.trans compared.outcome_eq.symm, compared.outcome_eq⟩
  · exact (gives_larger leftGives rightGives).outcome_eq

end

/-- The sign of a difference is the sign of the exact one if that fits, and the opposite one if it
does not. It is zero for equal values only. So a selection by the sign of a difference, whatever its
variables were set to before, gives the larger one of their current values if the exact difference
fits, and the smaller one otherwise. -/
theorem compares_by_difference :
    (∀ (lhs rhs : Calculation .int) (left right : Int64) (tracing : Bool) (store : Store),
      lhs.evaluate.Gives tracing store (.ok left) → rhs.evaluate.Gives tracing store (.ok right) →
      DifferenceShows tracing store lhs rhs left right) ∧
    ∀ (own other : Variable .int) (history : List Use),
      (∀ graph, .evaluate graph ∈ history → graph.calculation.IsIn .pure) →
      ∀ (tracing : Bool) (store : Store),
        let later := Run.storeAfter store (Evaluation.runs tracing store (history.map Use.perform))
        let left : Int64 := later.read own
        let right : Int64 := later.read other
        store.IsAfter history later ∧
          (larger (.input own) (.input other)).outcome tracing later =
            .ok (if Arithmetic.Fits (left.toInt - right.toInt) then max left right
              else min left right) := by
  refine ⟨fun lhs rhs left right tracing store leftGives rightGives =>
    differenceShows leftGives rightGives, ?_⟩
  intro own other history allPure tracing store later left right
  refine ⟨Use.isAfter_runs allPure tracing store, ?_⟩
  exact (differenceShows (Evaluation.gives_read own) (Evaluation.gives_read other)).larger

/-- One is subtracted from the least integer, and the selection gives the least one. -/
theorem compares_by_difference_of_least :
    let own : Variable .int := ⟨0⟩
    let other : Variable .int := ⟨1⟩
    let selection : Calculation .int := larger (.input own) (.input other)
    let least : Calculation .int := .constant Int64.minValue
    let one : Calculation .int := .constant (1 : Int64)
    let history : List Use :=
      [.set own Int64.minValue, .evaluate ⟨selection⟩, .set other (1 : Int64)]
    let later := Run.storeAfter .empty (Evaluation.runs true .empty (history.map Use.perform))
    selection.outcome true later = .ok Int64.minValue ∧
      DifferenceShows true .empty least one Int64.minValue 1 ∧
      Arithmetic.reducedSign (Int64.minValue.toInt - (1 : Int64).toInt) = 1 := by
  intro own other selection least one history later
  have allPure : ∀ graph, .evaluate graph ∈ history → graph.calculation.IsIn .pure := by
    intro graph member
    simp only [history, List.mem_cons, List.not_mem_nil, or_false, reduceCtorEq, false_or,
      Use.evaluate.injEq] at member
    rw [member]
    exact ⟨⟨⟨fun _ _ => ⟨_, rfl⟩, trivial, trivial⟩, trivial⟩, trivial, trivial⟩
  rcases compares_by_difference with ⟨operands, settings⟩
  have unfit : ¬Arithmetic.Fits (Int64.minValue.toInt - (1 : Int64).toInt) := by decide
  rcases settings own other history allPure true .empty with ⟨isAfter, selected⟩
  have ownHolds : later.read own = Int64.minValue :=
    Scalar.ofValue_injective (isAfter .int own)
  have otherHolds : later.read other = (1 : Int64) :=
    Scalar.ofValue_injective (isAfter .int other)
  rw [ownHolds, otherHolds, if_neg unfit] at selected
  refine ⟨selected, ?_, by decide⟩
  exact operands least one Int64.minValue 1 true .empty ⟨rfl, rfl⟩ ⟨rfl, rfl⟩

end Calculation

end Deferred
