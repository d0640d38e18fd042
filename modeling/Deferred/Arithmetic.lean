import Deferred.Outcome

/-!
# 64-bit arithmetic

Integers of 64 bits are added, subtracted and multiplied in two ways. The plain operations of
`Int64` wrap around. The checked operations are computed exactly first, and fail if the exact result
does not fit, naming the operation.
-/

namespace Deferred.Arithmetic

/-- An integer fits if it is in the range of 64-bit signed integers. -/
def Fits (value : Int) : Prop :=
  Int64.minValue.toInt ≤ value ∧ value ≤ Int64.maxValue.toInt

instance instDecidableFits (value : Int) : Decidable (Fits value) :=
  inferInstanceAs (Decidable (Int64.minValue.toInt ≤ value ∧ value ≤ Int64.maxValue.toInt))

/-- The 64-bit integer that equals an exact integer, if it fits. -/
def exactly? (exact : Int) : Option Int64 :=
  if Fits exact then some (.ofInt exact) else none

/-- The exact result of the named operation, which fails if it does not fit. -/
def checked (operation : String) (exact : Int) : Outcome Int64 :=
  match exactly? exact with
  | some value => .ok value
  | none => .error (.overflow operation)

/-- Adds, and fails instead of wrapping around. -/
def checkedAdd (lhs rhs : Int64) : Outcome Int64 :=
  checked "addition" (lhs.toInt + rhs.toInt)

/-- Multiplies, and fails instead of wrapping around. -/
def checkedMultiply (lhs rhs : Int64) : Outcome Int64 :=
  checked "multiplication" (lhs.toInt * rhs.toInt)

/-- Subtracts, and fails instead of wrapping around. -/
def checkedSubtract (lhs rhs : Int64) : Outcome Int64 :=
  checked "subtraction" (lhs.toInt - rhs.toInt)

/-- Divides, rounding toward zero. It fails if the divisor is zero, or if the quotient does not
fit. -/
def checkedDivide (lhs rhs : Int64) : Outcome Int64 :=
  if rhs = 0 then
    .error (.message "division by zero")
  else
    checked "division" (lhs.toInt.tdiv rhs.toInt)

/-- The sign of an integer, written as minus one, zero or one. -/
def sign (value : Int64) : Int64 :=
  if value < 0 then -1 else if value = 0 then 0 else 1

theorem fits_toInt (value : Int64) : Fits value.toInt :=
  ⟨value.minValue_le_toInt, value.toInt_le⟩

theorem exactly?_eq_some_iff {exact : Int} {value : Int64} :
    exactly? exact = some value ↔ value.toInt = exact := by
  unfold exactly?
  split
  · next fits =>
    rw [Option.some.injEq]
    constructor
    · rintro rfl
      exact Int64.toInt_ofInt_of_le fits.1 (Int.lt_of_le_sub_one fits.2)
    · rintro rfl
      exact Int64.ofInt_toInt value
  · next unfit =>
    simp only [reduceCtorEq, false_iff]
    rintro rfl
    exact unfit (fits_toInt value)

theorem exactly?_eq_none_iff {exact : Int} : exactly? exact = none ↔ ¬Fits exact := by
  unfold exactly?
  split <;> simp_all

theorem checked_eq_ok_iff {operation : String} {exact : Int} {value : Int64} :
    checked operation exact = .ok value ↔ value.toInt = exact := by
  rw [← exactly?_eq_some_iff]
  unfold checked
  cases exactly? exact <;> simp

theorem checked_eq_error_iff {operation : String} {exact : Int} {failure : Failure} :
    checked operation exact = .error failure ↔ ¬Fits exact ∧ failure = .overflow operation := by
  rw [← exactly?_eq_none_iff]
  unfold checked
  cases exactly? exact <;> simp [eq_comm]

end Deferred.Arithmetic
