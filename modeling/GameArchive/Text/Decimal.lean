/-!
# Decimal numbers in text

An unsigned number is written with at least one digit after an optional plus sign, and it must
be below a given bound.
-/

namespace GameArchive
namespace Decimal

def digit? (character : Char) : Option Nat :=
  if '0' ≤ character ∧ character ≤ '9' then some (character.toNat - '0'.toNat) else none

/-- The value of a run of digits after digits of value `value`. -/
def digitsFrom? : (value : Nat) → List Char → Option Nat
  | value, [] => some value
  | value, character :: rest =>
      (digit? character).bind fun digit => digitsFrom? (10 * value + digit) rest

/-- The number that a text writes, if it writes one below `bound`. -/
def parse? (bound : Nat) (text : List Char) : Option Nat :=
  let digits := match text with
    | '+' :: rest => rest
    | other => other
  if digits.isEmpty then
    none
  else
    (digitsFrom? 0 digits).filter (· < bound)

end Decimal
end GameArchive
