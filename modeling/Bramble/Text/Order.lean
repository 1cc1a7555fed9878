/-!
# The order of names

Names are listed by the code points of their characters, first difference first, a name before
its extensions. It is the same order as that of their bytes in UTF-8.
-/

set_option autoImplicit false

namespace Bramble
namespace Text

/-- Whether the first text stands before the second one or equals it. -/
def precedes : List Char → List Char → Bool
  | [], _ => true
  | _ :: _, [] => false
  | a :: as, b :: bs => if a = b then precedes as bs else decide (a.toNat < b.toNat)

/-- The names in their order. -/
def sorted (names : List String) : List String :=
  names.mergeSort fun a b => precedes a.toList b.toList

end Text
end Bramble
