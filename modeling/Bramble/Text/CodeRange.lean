/-!
# Ranges of code points

A property of characters is given by the ranges of code points that have it. The ranges of a
table stand in increasing order, so that a search may stop at the first range that begins
beyond the code point it looks for.
-/

set_option autoImplicit false

namespace Bramble
namespace Text

/-- A range of code points, both ends included. -/
structure CodeRange where
  first : Nat
  last : Nat
deriving DecidableEq, Repr

/-- Whether a code point lies in one of the ranges, which stand in increasing order. -/
def CodeRange.cover : List CodeRange → Nat → Bool
  | [], _ => false
  | range :: ranges, code =>
      if code < range.first then false
      else if code ≤ range.last then true
      else cover ranges code

end Text
end Bramble
