import Bramble.Text.Offset

/-!
# Spans and positions

A span is where a piece of a text stands, in byte offsets. A position is how a person is told of
a place: by line and by column, both counted from one. The column counts characters and not
bytes.
-/

set_option autoImplicit false

namespace Bramble

/-- The place of a piece of text: the offset of its first byte and the offset after its last. -/
structure Span where
  start : Nat
  stop : Nat
deriving DecidableEq, Repr, Inhabited

/-- A line and a column, both counted from one. -/
structure Position where
  line : Nat
  column : Nat
deriving DecidableEq, Repr

namespace Position

/-- The position that follows the given characters: the line is one more than their line feeds,
and the column is one more than the characters since the last of these. -/
def after (read : List Char) : Position where
  line := read.count '\n' + 1
  column := (read.reverse.takeWhile (· ≠ '\n')).length + 1

/-- The position of an offset in a text. An offset inside a character has none. -/
def of? (text : String) (offset : Nat) : Option Position :=
  (Text.before? text.toList offset).map after

/-- Line and column with a colon between them. -/
def display (p : Position) : String := toString p.line ++ ":" ++ toString p.column

end Position

end Bramble
