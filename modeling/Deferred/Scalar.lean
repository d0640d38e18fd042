/-!
# Kinds and scalars

A calculation yields either a truth value or a 64-bit integer. This file names the two kinds of
result, gives the values of each, and packs a value together with its kind as a `Scalar`, the form
in which values of either kind are written down.
-/

namespace Deferred

/-- The kind of result of a calculation. -/
inductive Kind where
  | bool
  /-- 64-bit signed integers, whose arithmetic wraps around. -/
  | int
deriving DecidableEq, Repr

namespace Kind

/-- The values of a kind. -/
abbrev Value : Kind → Type
  | .bool => Bool
  | .int => Int64

instance instDecidableEqValue : (kind : Kind) → DecidableEq kind.Value
  | .bool => inferInstanceAs (DecidableEq Bool)
  | .int => inferInstanceAs (DecidableEq Int64)

/-- The value that a variable holds before anything is put into it. -/
def zero : (kind : Kind) → kind.Value
  | .bool => false
  | .int => 0

end Kind

/-- A value of either kind. -/
inductive Scalar where
  | bool (value : Bool)
  | int (value : Int64)
deriving DecidableEq, Repr

namespace Scalar

/-- Packs a value with its kind. -/
def ofValue : {kind : Kind} → kind.Value → Scalar
  | .bool, value => .bool value
  | .int, value => .int value

/-- The value of a scalar, if the scalar is of the given kind. -/
def value? : (kind : Kind) → Scalar → Option kind.Value
  | .bool, .bool value => some value
  | .int, .int value => some value
  | _, _ => none

/-- The text of a scalar: the words for the truth values, and shortest decimal for integers. -/
def render : Scalar → String
  | .bool true => "true"
  | .bool false => "false"
  | .int value => toString value.toInt

@[simp]
theorem value?_ofValue {kind : Kind} (value : kind.Value) :
    (ofValue value).value? kind = some value := by
  cases kind <;> rfl

theorem value?_eq_some_iff {kind : Kind} {scalar : Scalar} {value : kind.Value} :
    scalar.value? kind = some value ↔ scalar = ofValue value := by
  cases kind <;> cases scalar <;> simp [value?, ofValue]

end Scalar

end Deferred
