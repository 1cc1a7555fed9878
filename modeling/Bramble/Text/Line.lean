/-!
# Lines

A text cut after each line feed. Every line keeps its line feed, and only the last line may be
without one, so that the lines put together again are the text.
-/

set_option autoImplicit false

namespace Bramble
namespace Text

/-- The lines of a text, each with its ending. -/
def lines : List Char → List (List Char)
  | [] => []
  | c :: cs =>
      if c = '\n' then [c] :: lines cs
      else
        match lines cs with
        | [] => [[c]]
        | line :: rest => (c :: line) :: rest

theorem lines_flatten (cs : List Char) : (lines cs).flatten = cs := by
  induction cs with
  | nil => rfl
  | cons c cs ih =>
      rw [lines]
      split
      · rw [List.flatten_cons, ih]
        rfl
      · cases h : lines cs with
        | nil =>
            rw [h] at ih
            rw [← ih]
            rfl
        | cons line rest =>
            rw [h] at ih
            rw [← ih]
            rfl

end Text
end Bramble
