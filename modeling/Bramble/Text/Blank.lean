import Bramble.Text.CodeRange

/-!
# Blank characters

The Unicode property `White_Space`. It decides which lines of a dialogue are empty and what is
trimmed from a setting. The spaces between tokens are a smaller set of their own.
-/

set_option autoImplicit false

namespace Bramble
namespace Text

/-- The ranges of the property `White_Space`, in increasing order. -/
def blankRanges : List CodeRange :=
  [⟨0x9, 0xd⟩, ⟨0x20, 0x20⟩, ⟨0x85, 0x85⟩, ⟨0xa0, 0xa0⟩, ⟨0x1680, 0x1680⟩, ⟨0x2000, 0x200a⟩,
   ⟨0x2028, 0x2029⟩, ⟨0x202f, 0x202f⟩, ⟨0x205f, 0x205f⟩, ⟨0x3000, 0x3000⟩]

/-- Whether a character is blank. -/
def isBlank (c : Char) : Bool := CodeRange.cover blankRanges c.toNat

/-- The text between the blanks at both of its ends. -/
def trim (cs : List Char) : List Char :=
  ((cs.dropWhile isBlank).reverse.dropWhile isBlank).reverse

end Text
end Bramble
