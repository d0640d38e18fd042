import Deferred.Arithmetic

/-!
# Decimal notation

Integers are written down in decimal, with a minus sign if they are negative. Reading also accepts
leading zeros and a negative zero, and nothing else: no plus sign, no blanks, and no number that
does not fit 64 bits.
-/

namespace Deferred.Decimal

/-- The number that a sequence of digits stands for, of which there has to be at least one. -/
def natural? (digits : List Char) : Option Nat :=
  if digits ≠ [] ∧ digits.all Char.isDigit then
    some <| digits.foldl (fun number digit => number * 10 + (digit.toNat - '0'.toNat)) 0
  else
    none

/-- Reads an integer. -/
def read? (text : String) : Option Int64 :=
  match text.toList with
  | '-' :: digits => natural? digits >>= fun number => Arithmetic.exactly? (-number)
  | digits => natural? digits >>= fun number => Arithmetic.exactly? number

end Deferred.Decimal
