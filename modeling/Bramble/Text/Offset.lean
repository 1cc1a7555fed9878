/-!
# Places in a text

A place in a text is the number of bytes before it when the text is written in UTF-8. Only some
of these numbers fall between two characters.
-/

set_option autoImplicit false

namespace Bramble
namespace Text

/-- The number of bytes of a text in UTF-8. -/
def byteLength : List Char → Nat
  | [] => 0
  | c :: cs => c.utf8Size + byteLength cs

/-- The characters before a place. A place beyond the end is taken for the end, and a place
inside a character has no answer. -/
def before? : List Char → Nat → Option (List Char)
  | [], _ => some []
  | c :: cs, offset =>
      if offset = 0 then some []
      else if c.utf8Size ≤ offset then (before? cs (offset - c.utf8Size)).map (c :: ·)
      else none

theorem byteLength_append (as bs : List Char) :
    byteLength (as ++ bs) = byteLength as + byteLength bs := by
  induction as with
  | nil => simp [byteLength]
  | cons c as ih => simp [byteLength, ih, Nat.add_assoc]

/-- The place after a piece of text is a place between characters. -/
theorem before?_append (as bs : List Char) : before? (as ++ bs) (byteLength as) = some as := by
  induction as with
  | nil => cases bs <;> rfl
  | cons c as ih =>
      have positive : 0 < c.utf8Size := c.utf8Size_pos
      have nonzero : ¬ byteLength (c :: as) = 0 := by
        rw [byteLength]
        omega
      rw [List.cons_append, before?, if_neg nonzero, byteLength,
        if_pos (Nat.le_add_right _ _), Nat.add_sub_cancel_left, ih]
      rfl

/-- A place at or beyond the end has the whole text before it. -/
theorem before?_of_byteLength_le {cs : List Char} {offset : Nat}
    (beyond : byteLength cs ≤ offset) : before? cs offset = some cs := by
  induction cs generalizing offset with
  | nil => rfl
  | cons c cs ih =>
      have positive : 0 < c.utf8Size := c.utf8Size_pos
      rw [byteLength] at beyond
      rw [before?, if_neg (by omega), if_pos (by omega), ih (by omega)]
      rfl

end Text
end Bramble
