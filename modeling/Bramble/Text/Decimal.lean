/-!
# Decimal numerals

Reading of numerals. A numeral is a nonempty run of the digits `0` to `9`; where a sign is
allowed there is at most one. The range of the result is left to the caller, because each
setting has its own.
-/

set_option autoImplicit false

namespace Bramble
namespace Text

/-- The number that a run of digits stands for. -/
def digitsValue (digits : List Char) : Nat :=
  digits.foldl (fun n c => 10 * n + (c.toNat - '0'.toNat)) 0

/-- Reads a numeral without a sign. -/
def numeral? (cs : List Char) : Option Nat :=
  if cs ≠ [] ∧ cs.all Char.isDigit then some (digitsValue cs) else none

/-- Reads a numeral that may follow one plus sign. -/
def unsigned? : List Char → Option Nat
  | '+' :: digits => numeral? digits
  | cs => numeral? cs

/-- Reads a numeral that may follow one sign. -/
def signed? : List Char → Option Int
  | '-' :: digits => (numeral? digits).map fun n : Nat => -(n : Int)
  | cs => (unsigned? cs).map fun n : Nat => (n : Int)

end Text
end Bramble
